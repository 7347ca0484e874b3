/-
**The ledger**, the store of artifacts, as its users see it. `Ledger.Op` lists the operations and
`Ledger.Op.Result` what each yields. Slots are filled once: `put` refuses a slot that is taken.
-/
import Transcode.Error.Ledger

namespace Transcode.Ledger

/-- An operation on the ledger. -/
inductive Op where
  | contains (key : Key)
  /-- All filled slots. -/
  | keys
  | get (key : Key)
  /-- Fills an empty slot. -/
  | put (key : Key) (artifact : Artifact)
  /-- Fills a slot, whatever it holds. -/
  | overwrite (key : Key) (artifact : Artifact)
  deriving DecidableEq, Repr

/-- What an operation yields when it succeeds. -/
abbrev Op.Result : Op → Type
  | contains _ => Bool
  | keys => KeySet
  | get _ => Artifact
  | put .. | overwrite .. => Unit

/-- What an operation yields. -/
abbrev Op.Answer (op : Op) : Type :=
  Except LedgerError op.Result

/-- An artifact is stored only where its payload belongs. -/
def checkFit (key : Key) (artifact : Artifact) : Except LedgerError Unit :=
  if artifact.fits key then .ok ()
  else .error (.corrupt key (.payloadMismatch key.kind.payload))

/-- The bitstream in an artifact that was read from a slot. -/
def asBitstream (key : Key) (artifact : Artifact) : Except LedgerError Bitstream :=
  match artifact.bitstream? with
  | some stream => .ok stream
  | none => .error (.corrupt key (.payloadMismatch .bitstream))

/-- The decoder state in an artifact that was read from a slot. -/
def asState (key : Key) (artifact : Artifact) : Except LedgerError StateHandle :=
  match artifact.state? with
  | some handle => .ok handle
  | none => .error (.corrupt key (.payloadMismatch .state))

end Transcode.Ledger
