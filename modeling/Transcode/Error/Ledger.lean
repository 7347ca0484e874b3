/-
**Failures of the ledger**, the store of artifacts.
-/
import Transcode.Error.Io
import Transcode.Error.Value

namespace Transcode

/-- Why a ledger operation failed. -/
inductive LedgerError where
  /-- The slot is taken. -/
  | duplicateKey (key : Key)
  /-- The slot is empty. -/
  | notFound (key : Key)
  /-- The artifact is not of the payload that the slot declares. -/
  | corrupt (key : Key) (cause : ValueError)
  /-- The storage behind one slot failed. -/
  | storage (key : Key) (cause : IoError)
  /-- The storage behind the whole ledger failed. -/
  | io (cause : IoError)
  deriving DecidableEq, Repr

/-- The name of the failure in structured reports. -/
def LedgerError.identifier : LedgerError → String
  | .duplicateKey _ => "DuplicateKey"
  | .notFound _ => "NotFound"
  | .corrupt .. => "Corrupt"
  | .storage .. => "Storage"
  | .io _ => "Io"

/-- The wording of a ledger error. -/
def LedgerError.message : LedgerError → String
  | .duplicateKey key => s!"Artifact already exists: {key.label}"
  | .notFound key => s!"Artifact not found: {key.label}"
  | .corrupt key cause => s!"Artifact {key.label} holds the wrong payload: {cause.message}"
  | .storage key cause => s!"Ledger storage error for {key.label}: {cause.message}"
  | .io cause => s!"Ledger I/O error: {cause.message}"

end Transcode
