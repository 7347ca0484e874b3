/-
**Values that a slot or an option cannot take.**
-/
import Transcode.Artifact

namespace Transcode

/-- Why a value was turned down. -/
inductive ValueError where
  /-- A word that is none of those an option knows. -/
  | unrecognised (subject plural given : String) (valid : List String)
  /-- An artifact of the other payload than its slot declares. -/
  | payloadMismatch (expected : Payload)
  | described (text : String)
  deriving DecidableEq, Repr

/-- The name of the failure in structured reports. -/
def ValueError.identifier : ValueError → String
  | .payloadMismatch _ => "PayloadMismatch"
  | _ => "BadArgs"

/-- The wording of a value error. -/
def ValueError.message : ValueError → String
  | .unrecognised subject plural given valid =>
    let options := String.intercalate ", " valid
    s!"Bad arguments: Invalid {subject}: {given}. Valid {plural}: {options}"
  | .payloadMismatch expected => s!"Artifact payload mismatch: expected {expected.name}"
  | .described text => s!"Bad arguments: {text}"

end Transcode
