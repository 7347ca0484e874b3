/-
**Failures of a run.** Every failure of the parts ends up as one of these; `RunError.exitCode`,
`RunError.chunk?` and `RunError.stage?` say how it is reported and what it is attributed to.
-/
import Transcode.Error.Codec
import Transcode.Error.Config
import Transcode.Error.Ledger
import Transcode.Error.Split

namespace Transcode

/-- Failures that no input of a correct run brings about, and misuse of single steps. -/
inductive InternalFault where
  | noChunks
  | serialStage (stage : Stage)
  | notABarrier (stage : Stage)
  | outsideRun (chunk : ChunkIndex) (count : Nat)
  | noPredecessor
  | taskPanicked (stage : Stage)
  | decodeFailed (cause : CodecError)
  | noResult (source : String)
  | described (text : String)
  deriving DecidableEq, Repr

/-- The wording of an internal fault. -/
def InternalFault.message : InternalFault → String
  | .noChunks => "a pipeline run needs at least one chunk"
  | .serialStage stage => s!"stage {stage.name} is driven by the rebase chain"
  | .notABarrier stage => s!"stage {stage.name} cannot run as a barrier stage"
  | .outsideRun chunk count => s!"chunk {chunk.label} is outside a run of {count} chunks"
  | .noPredecessor => "the first chunk has no predecessor to rebase onto"
  | .taskPanicked stage => s!"task in stage {stage.name} panicked"
  | .decodeFailed cause => s!"decode failed: {cause.message}"
  | .noResult source => s!"pipeline for {source} did not report a result"
  | .described text => text

/-- Why a run, or a step of one, failed. -/
inductive RunError where
  /-- The chunks of the source are not to be had. -/
  | split (cause : SplitError)
  /-- A codec call of a barrier stage failed. -/
  | codec (chunk : ChunkIndex) (stage : Stage) (cause : CodecError)
  /-- An artifact would have been written twice. -/
  | duplicateArtifact (key : Key)
  /-- An artifact was missing when it was needed. -/
  | notFound (key : Key)
  /-- The chain could not rebase a chunk. -/
  | rebase (chunk : ChunkIndex) (cause : CodecError)
  /-- The chain could not merge a chunk. -/
  | merge (chunk : ChunkIndex) (cause : CodecError)
  /-- Any other failure of the ledger. -/
  | ledger (cause : LedgerError)
  /-- The run was cancelled before all its work was scheduled. -/
  | cancelled (stage : Stage)
  | config (cause : ConfigError)
  | internal (fault : InternalFault)
  deriving DecidableEq, Repr

namespace RunError

/-- A ledger failure as a failure of the run: a taken and an empty slot are told apart from
trouble with the storage. -/
def ofLedger : LedgerError → RunError
  | .duplicateKey key => duplicateArtifact key
  | .notFound key => notFound key
  | cause => ledger cause

/-- A codec call of a barrier stage that came to nothing. With a call that has panicked, its task
has. -/
def ofCodec (chunk : ChunkIndex) (stage : Stage) : CodecError → RunError
  | .panicked => internal (.taskPanicked stage)
  | cause => codec chunk stage cause

/-- Whether the failure stands for a panic of the run itself. It makes the calls of its chain, and
those after it, by itself; tasks of a stage panic on their own. -/
def isPanic : RunError → Bool
  | rebase _ .panicked | merge _ .panicked | internal (.decodeFailed .panicked) => true
  | _ => false

/-- The name of the failure in structured reports. -/
def identifier : RunError → String
  | split _ => "SplitFailure"
  | codec .. => "CodecFailure"
  | duplicateArtifact _ => "DuplicateArtifact"
  | notFound _ => "NotFound"
  | rebase .. => "RebaseFailure"
  | merge .. => "MergeFailure"
  | ledger _ => "Ledger"
  | cancelled _ => "Cancelled"
  | config _ => "Config"
  | internal _ => "Internal"

/-- The wording of a run error. -/
def message : RunError → String
  | split cause => s!"Split failed: {cause.message}"
  | codec chunk stage cause =>
    s!"Codec failure in stage {stage.name} for chunk {chunk.label}: {cause.message}"
  | duplicateArtifact key => s!"Duplicate artifact: {key.label}"
  | notFound key =>
    s!"Artifact not found: {key.label} (stage ran out of order or ledger is corrupt)"
  | rebase chunk cause => s!"Rebase failed for chunk {chunk.label}: {cause.message}"
  | merge chunk cause => s!"Merge failed for chunk {chunk.label}: {cause.message}"
  | ledger cause => s!"Ledger error: {cause.message}"
  | cancelled stage => s!"Pipeline run cancelled during stage {stage.name}"
  | config cause => s!"Configuration error: {cause.message}"
  | internal fault => s!"Internal error: {fault.message}"

/-- The messages of what lies behind the error, nearest first. -/
def causes : RunError → List String
  | split cause => cause.message :: cause.causes
  | codec _ _ cause | rebase _ cause | merge _ cause => cause.message :: cause.causes
  | config cause => cause.message :: cause.causes
  | _ => []

/-- The exit code of the process, by class of failure. -/
def exitCode : RunError → Nat
  | rebase _ .panicked | merge _ .panicked | internal (.decodeFailed .panicked) => 101
  | split _ => 2
  | codec .. => 3
  | rebase .. => 4
  | merge .. => 5
  | duplicateArtifact _ | notFound _ | ledger _ => 6
  | cancelled _ => 130
  | config _ | internal _ => 1

/-- The chunk that the failure is attributed to. -/
def chunk? : RunError → Option ChunkIndex
  | codec chunk .. | rebase chunk _ | merge chunk _ => some chunk
  | duplicateArtifact key | notFound key => some key.chunk
  | _ => none

/-- The stage that the failure is attributed to. -/
def stage? : RunError → Option Stage
  | codec _ stage _ | cancelled stage => some stage
  | rebase .. => some .rebase
  | merge .. => some .merge
  | _ => none

end RunError

end Transcode
