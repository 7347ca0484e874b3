/-
**The ledger in a workspace folder.** Each slot is a file of its own, named for the source, the
kind and the chunk (`FileName.artifact`); several sources share one workspace. A slot is filled by
putting the complete file in place in one step, so readers and resumed runs never see part of an
artifact.
-/
import Transcode.Disk.Basic
import Transcode.FileName
import Transcode.Ledger.Basic

namespace Transcode

/-- The ledger of a source in a workspace. -/
structure FolderLedger where
  workspace : String
  source : String
  deriving DecidableEq, Repr

namespace FolderLedger

/-- The ledger of a source, whose workspace is made if it is missing. -/
def create (workspace source : String) (disk : Disk) : Except LedgerError FolderLedger × Disk :=
  match disk.makeFolders workspace with
  | (.ok (), disk) => (.ok ⟨workspace, source⟩, disk)
  | (.error error, disk) => (.error (.io error), disk)

variable (ledger : FolderLedger)

/-- The file of a slot. -/
def path (key : Key) : String :=
  Path.join ledger.workspace (FileName.artifact ledger.source key)

/-- A failure at the file of a slot. -/
def failure (key : Key) (error : IoError) : LedgerError :=
  if error = .alreadyExists then .duplicateKey key else .storage key error

/-- Fills a slot. With `clobber` it may be filled already. -/
def fill (key : Key) (artifact : Artifact) (clobber : Bool) (disk : Disk) :
    Except LedgerError Unit × Disk :=
  match Ledger.checkFit key artifact with
  | .error error => (.error error, disk)
  | .ok () =>
    let (result, disk) := disk.persist (ledger.path key) artifact.bytes clobber
    (result.mapError (failure key), disk)

/-- The artifact in a slot. -/
def get (key : Key) (disk : Disk) : Except LedgerError Artifact :=
  match disk.read (ledger.path key) with
  | .ok bytes => .ok (.ofBytes key.kind bytes)
  | .error .notFound => .error (.notFound key)
  | .error error => .error (.storage key error)

/-- Whether the file of a slot exists. -/
def contains (key : Key) (disk : Disk) : Except LedgerError Bool :=
  (disk.isPresent (ledger.path key)).mapError (.storage key)

/-- The slots whose files lie in the workspace. -/
def keys (disk : Disk) : Except LedgerError KeySet := do
  let names ← (disk.list ledger.workspace).mapError .io
  let files := names.filter fun name => disk.isFile (Path.join ledger.workspace name)
  .ok (KeySet.ofList (files.filterMap (FileName.parse? ledger.source)))

/-- The answer to an operation, and the tree after it. -/
def answer (disk : Disk) : (op : Ledger.Op) → op.Answer × Disk
  | .contains key => (ledger.contains key disk, disk)
  | .keys => (ledger.keys disk, disk)
  | .get key => (ledger.get key disk, disk)
  | .put key artifact => ledger.fill key artifact false disk
  | .overwrite key artifact => ledger.fill key artifact true disk

end FolderLedger

end Transcode
