/-
**The status view**: which artifacts of a source are stored, without running anything.
-/
import Transcode.Dependency
import Transcode.Report.Structured
import Transcode.Studio.Basic

namespace Transcode

/-- How far a stage has come. -/
structure StageStatus where
  stage : Stage
  done : Nat
  pending : List ChunkIndex
  deriving DecidableEq, Repr

/-- How far a source has come. -/
structure Status where
  source : String
  count : Nat
  stages : List StageStatus
  nextStage : Option Stage
  finalOutput : Option Key
  deriving DecidableEq, Repr

namespace Status

/-- The status of a source whose progress is known. -/
def ofProgress (source : String) (progress : Progress) : Status where
  source := source
  count := progress.count
  stages := Stage.all.map fun stage =>
    let pending := progress.pending stage
    ⟨stage, progress.count - pending.length, pending⟩
  nextStage := progress.nextStage?
  finalOutput := progress.finalOutput?

/-- The status in structured form. -/
def toJson (status : Status) : Json :=
  .object [
    ("source", .string status.source),
    ("chunk_count", .nat status.count),
    ("stages", .array (status.stages.map fun stage => .object [
      ("stage", .string stage.stage.identifier),
      ("done", .nat stage.done),
      ("pending", .array (stage.pending.map .nat))])),
    ("next_stage", .ofOption (fun stage => .string stage.identifier) status.nextStage),
    ("final_output", .ofOption Key.toJson status.finalOutput)]

end Status

/-- The status of a source, over so many chunks. -/
def Studio.status (studio : Studio) (source : String) (count : Nat) (site : Site) :
    Except RunError Status × Site :=
  match studio.openLedger source site with
  | (.error error, site) => (.error (.ofLedger error), site)
  | (.ok (), site) =>
    match studio.ledgerAnswer source .keys site with
    | (.error error, site) => (.error (.ofLedger error), site)
    | (.ok existing, site) => (.ok (Status.ofProgress source ⟨existing, count⟩), site)

end Transcode
