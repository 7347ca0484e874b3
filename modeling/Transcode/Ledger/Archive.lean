/-
**Archives.** An `Archive` is an open ledger of either form together with the tree of files beside
it. It answers the operations of a ledger, and can also do what a run never does: empty a slot, and
show what lies in all of them (`Archive.inventory`).
-/
import Transcode.Ledger.Memory
import Transcode.Ledger.OnDisk
import Transcode.Text.Hex

namespace Transcode

/-- A ledger in one of its forms. -/
inductive OpenLedger where
  | memory (ledger : MemoryLedger)
  | folder (ledger : FolderLedger)

/-- An open ledger and the tree of files. -/
structure Archive where
  disk : Disk
  ledger : OpenLedger

namespace Archive

/-- The answer to an operation, and the archive after it. -/
def answer (op : Ledger.Op) (archive : Archive) : op.Answer × Archive :=
  match archive.ledger with
  | .memory ledger =>
    let (answer, ledger) := ledger.answer op
    (answer, { archive with ledger := .memory ledger })
  | .folder ledger =>
    let (answer, disk) := ledger.answer archive.disk op
    (answer, { archive with disk })

/-- Opens the ledger of a source in a workspace. -/
def openFolder (workspace source : String) (archive : Archive) :
    Except LedgerError Unit × Archive :=
  match FolderLedger.create workspace source archive.disk with
  | (.ok ledger, disk) => (.ok (), { disk, ledger := .folder ledger })
  | (.error error, disk) => (.error error, { archive with disk })

/-- Empties a slot; what was in it, as far as it can be read. -/
def remove (key : Key) (archive : Archive) : Option Artifact × Archive :=
  match archive.ledger with
  | .memory ledger =>
    (ledger.get? key, { archive with ledger := .memory (ledger.remove key) })
  | .folder ledger =>
    match archive.disk.removeFile (ledger.path key) with
    | .ok disk => ((ledger.get key archive.disk).toOption, { archive with disk })
    | .error _ => (none, archive)

/-- The line of a slot: chunk, kind, and the digest of what is in it, or the name of the failure to
read it. -/
def line (archive : Archive) (key : Key) : String :=
  let content :=
    match (archive.answer (.get key)).1 with
    | .ok artifact => artifact.bytes.digest
    | .error error => error.identifier
  key.chunk.label ++ " " ++ key.kind.name ++ " " ++ content

/-- The lines of all filled slots, in the order of their keys. -/
def inventory (archive : Archive) : Except LedgerError (List String) :=
  (archive.answer .keys).1.map fun keys => keys.map archive.line

end Archive

end Transcode
