/-
**Listing a tree of files**: the digest of each file below a location, and each folder that is
empty.
-/
import Transcode.Disk.Basic
import Transcode.Text.Hex

namespace Transcode.Disk

/-- What is shown for an empty folder. -/
def emptyFolderText : String := "dir"

/-- What is shown for a node, if anything is: a folder shows in what it holds. -/
def nodeText? (disk : Disk) (location : Location) : Node → Option String
  | .file data _ => some data.digest
  | .folder => if (disk.childNames location).isEmpty then some emptyFolderText else none

/-- The paths from a location down, each with what is shown for it. -/
def listing (disk : Disk) (top : Location) : List (String × String) :=
  disk.entries.filterMap fun (location, node) =>
    if top.isPrefixOf location && location ≠ top then
      (disk.nodeText? location node).map fun text =>
        (String.intercalate "/" (location.drop top.length), text)
    else none

end Transcode.Disk
