/-
**The studio** carries out orders: it opens the ledger of the source, reads the chunks and runs all
stages.

* `Engine` is the codec that it works with, in memory or behind external tools.
* `Site` is what a studio works on: the tree of files and the ledgers in memory, one per source.
* `Studio.execute` carries out one order, `Studio.batch` several, one after another; a failed order
  does not keep the others from being carried out.
-/
import Transcode.Codec.External
import Transcode.Codec.Simulated
import Transcode.Ledger.OnDisk
import Transcode.Run.Batch
import Transcode.Source.Folder

namespace Transcode

/-- A codec in one of its two forms. -/
inductive Engine where
  | simulated (codec : Simulated)
  | external (codec : External)

/-- The answer of the engine to a call, and the tree of files after it. -/
def Engine.answer (engine : Engine) (launcher : Launcher) (call : Codec.Call) (disk : Disk) :
    call.Answer × Disk :=
  match engine with
  | .simulated codec => (codec.codec.answer call, disk)
  | .external codec => codec.answer launcher call disk

/-- Where the ledgers of all sources are kept. -/
inductive LedgerPlace where
  | memory
  | folder (workspace : String)
  deriving DecidableEq, Repr

/-- What a studio works on. -/
structure Site where
  disk : Disk
  ledgers : List (String × MemoryLedger)

namespace Site

/-- The ledger of a source in memory; it is empty until something is stored. -/
def ledger (site : Site) (source : String) : MemoryLedger :=
  (site.ledgers.lookup source).getD .empty

/-- The site with another ledger for the source. -/
def setLedger (site : Site) (source : String) (ledger : MemoryLedger) : Site :=
  { site with
    ledgers := (source, ledger) :: site.ledgers.filter fun entry => entry.1 ≠ source }

end Site

/-- How orders are carried out. -/
structure Studio where
  engine : Engine
  ledgers : LedgerPlace
  chunks : ChunkFolder
  launcher : Launcher

namespace Studio

variable (studio : Studio)

/-! ### Ledgers -/

/-- Opens the ledger of a source. -/
def openLedger (source : String) (site : Site) : Except LedgerError Unit × Site :=
  match studio.ledgers with
  | .memory => (.ok (), site)
  | .folder workspace =>
    let (result, disk) := FolderLedger.create workspace source site.disk
    (result.map fun _ => (), { site with disk })

/-- The answer of the ledger of a source to an operation. -/
def ledgerAnswer (source : String) (op : Ledger.Op) (site : Site) : op.Answer × Site :=
  match studio.ledgers with
  | .memory =>
    let (answer, ledger) := (site.ledger source).answer op
    (answer, site.setLedger source ledger)
  | .folder workspace =>
    let (answer, disk) := FolderLedger.answer ⟨workspace, source⟩ site.disk op
    (answer, { site with disk })

/-! ### Runs -/

/-- The answer of the engine to a call. -/
def engineAnswer (call : Codec.Call) (site : Site) : call.Answer × Site :=
  let (answer, disk) := studio.engine.answer studio.launcher call site.disk
  (answer, { site with disk })

/-- What the tasks of a run on a source ask for. -/
def service (source : String) : Service Run.interface Site :=
  Run.service (studio.ledgerAnswer source) fun call site =>
    let (answer, site) := studio.engineAnswer call site
    (answer, site, false)

/-- Carries out an order. -/
def execute (order : Order) (world : World Site) : Except RunError Run.Result × World Site :=
  match studio.openLedger order.source world.state with
  | (.error error, site) => (.error (.ofLedger error), { world with state := site })
  | (.ok (), site) =>
    let chunks := studio.chunks.split order.source order.count site.disk
    (order.plan chunks).run.run (studio.service order.source) { world with state := site }

/-- Carries out orders one after another; the results by the positions of the orders. -/
def executeAll : List (Order × Nat) → World Site →
    List (Nat × Except RunError Run.Result) × World Site
  | [], world => ([], world)
  | (order, position) :: rest, world =>
    let (result, world) := studio.execute order world
    let (results, world) := executeAll rest world
    ((position, result) :: results, world)

/-- Carries out a batch of orders. -/
def batch (orders : List Order) (world : World Site) :
    List (String × Except RunError Run.Result) × World Site :=
  let (results, world) := studio.executeAll orders.zipIdx world
  (Batch.gather orders results, world)

end Studio

end Transcode
