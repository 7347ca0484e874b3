/-
**Stages.** A run passes through six stages. The first four are barriers: every chunk passes one
before any chunk enters the next, and within one the chunks are independent. The last two are the
serial chain, which visits the chunks in order.
-/

namespace Transcode

/-- A phase of a run. -/
inductive Stage where
  | baselineEncode
  | stateExtraction
  | encodeGivenStateV0
  | encodeGivenStateV1
  | rebase
  | merge
  deriving DecidableEq, Repr

namespace Stage

/-- The stages whose tasks run in parallel, in order. -/
def barriers : List Stage :=
  [baselineEncode, stateExtraction, encodeGivenStateV0, encodeGivenStateV1]

/-- Every stage, in order of execution. -/
def all : List Stage :=
  barriers ++ [rebase, merge]

/-- The name shown to users. -/
def name : Stage → String
  | baselineEncode => "vpx"
  | stateExtraction => "decodeState"
  | encodeGivenStateV0 => "encGivenStateV0"
  | encodeGivenStateV1 => "encGivenStateV1"
  | rebase => "rebase"
  | merge => "merge"

/-- The name in structured reports. -/
def identifier : Stage → String
  | baselineEncode => "BaselineEncode"
  | stateExtraction => "StateExtraction"
  | encodeGivenStateV0 => "EncodeGivenStateV0"
  | encodeGivenStateV1 => "EncodeGivenStateV1"
  | rebase => "Rebase"
  | merge => "Merge"

/-- The stage with that name in structured reports. -/
def ofIdentifier? (text : String) : Option Stage :=
  all.find? fun stage => stage.identifier = text

/-- Whether the stage belongs to the serial chain. -/
def isSerial : Stage → Bool
  | rebase | merge => true
  | _ => false

theorem mem_all (stage : Stage) : stage ∈ all := by
  cases stage <;> decide

theorem mem_barriers {stage : Stage} : stage ∈ barriers ↔ stage.isSerial = false := by
  cases stage <;> decide

end Stage

end Transcode
