/-
**A run** transcodes the chunks of one source into one ledger under one policy.

* `Run.Request` is what its tasks ask for: ledger operations and codec calls.
* `Run.store` fills a slot as the policy has it; `Run.canSkip` says whether a task has nothing to
  do; `Run.firstMissing` checks what a stage needs before it starts.
* `Run.service` answers requests from a ledger and a codec, and `Run.inMemory` from the ledger in
  memory and a codec without side effects.
-/
import Transcode.Codec.Basic
import Transcode.Ledger.Memory
import Transcode.Policy
import Transcode.Schedule.Flow

namespace Transcode

/-- The chunks of a source, and how stored artifacts are treated. -/
structure Run where
  source : String
  chunks : List RawChunk
  policy : Policy

namespace Run

/-! ### Requests -/

/-- What the tasks of a run ask for. -/
inductive Request where
  | ledger (op : Ledger.Op)
  | codec (call : Codec.Call)

/-- The requests of a run with their answers. -/
abbrev interface : Interface where
  Request := Request
  Answer
    | .ledger op => op.Answer
    | .codec call => call.Answer

/-- Part of a run that may fail. -/
abbrev Job (α : Type) : Type :=
  ExceptT RunError (Task interface) α

namespace Job

/-- A ledger operation, whose answer the function interprets. -/
def interpret {α : Type} (op : Ledger.Op) (read : op.Answer → Except RunError α) : Job α :=
  ExceptT.mk (Task.ask (.ledger op) fun answer => .done (read answer))

/-- A ledger operation whose failure is a failure of the run. -/
def ledger (op : Ledger.Op) : Job op.Result :=
  interpret op fun answer => answer.mapError RunError.ofLedger

/-- A codec call whose failure is a failure of the run as the function says. -/
def codec (call : Codec.Call) (blame : CodecError → RunError) : Job call.Result :=
  ExceptT.mk (Task.ask (.codec call) fun answer => .done (answer.mapError blame))

/-- A value that may be missing. -/
def ofExcept {α : Type} (result : Except RunError α) : Job α :=
  ExceptT.mk (.done result)

end Job

/-- Answers requests from a state that serves both the ledger and the codec. A codec call may fire
the cancellation token. -/
def service {σ : Type} (ledger : (op : Ledger.Op) → σ → op.Answer × σ)
    (codec : (call : Codec.Call) → σ → call.Answer × σ × Bool) : Service interface σ where
  reply
    | .ledger op, state =>
      let (answer, state) := ledger op state
      ⟨answer, state, false⟩
    | .codec call, state =>
      let (answer, state, cancels) := codec call state
      ⟨answer, state, cancels⟩

/-- The ledger in memory and a codec without side effects. -/
def inMemory (codec : Codec) : Service interface MemoryLedger :=
  service (fun op ledger => ledger.answer op) fun call ledger => (codec.answer call, ledger, false)

/-! ### What tasks of a run do -/

variable (run : Run)

/-- The number of chunks. -/
def count : Nat :=
  run.chunks.length

/-- The positions of the chunks. -/
def indices : List ChunkIndex :=
  List.range run.count

/-- The raw chunk at a position. -/
def raw (chunk : ChunkIndex) : Except RunError RawChunk :=
  match run.chunks[chunk]? with
  | some raw => .ok raw
  | none => .error (.internal (.outsideRun chunk run.count))

/-- Fills a slot. A resumed run keeps what is there: a task that stopped between two of its writes
leaves the first one behind. -/
def store (key : Key) (artifact : Artifact) : Job Unit :=
  match run.policy with
  | .overwrite => Job.ledger (.overwrite key artifact)
  | .strict => Job.ledger (.put key artifact)
  | .resume => Job.interpret (.put key artifact) fun
    | .error (.duplicateKey _) => .ok ()
    | answer => answer.mapError RunError.ofLedger

/-- Whether all slots are filled; they are looked at in order, up to the first empty one. -/
def allStored : List Key → Job Bool
  | [] => pure true
  | key :: rest => do
    if ← Job.ledger (.contains key) then allStored rest else pure false

/-- Whether a task with these outputs has nothing to do. Only a resumed run skips. -/
def canSkip (keys : List Key) : Job Bool :=
  if run.policy = .resume then allStored keys else pure false

/-- The least required slot that is empty. -/
def firstMissing (required : KeySet) : Job (Option Key) := do
  let existing ← Job.ledger .keys
  pure (required.firstMissing existing)

/-- The bitstream in a slot. -/
def bitstream (chunk : ChunkIndex) (kind : Kind) : Job Bitstream := do
  let artifact ← Job.ledger (.get ⟨chunk, kind⟩)
  Job.ofExcept ((Ledger.asBitstream ⟨chunk, kind⟩ artifact).mapError RunError.ofLedger)

/-- The decoder state in a slot. -/
def state (chunk : ChunkIndex) (kind : Kind) : Job StateHandle := do
  let artifact ← Job.ledger (.get ⟨chunk, kind⟩)
  Job.ofExcept ((Ledger.asState ⟨chunk, kind⟩ artifact).mapError RunError.ofLedger)

end Run

end Transcode
