/-
**A tree of files held in memory.** A `Disk` maps locations to files and folders; its view is
`Disk.node?`. A path is followed from the root or from the working directory (`Disk.locate`): what
it passes through must be folders, and names have a greatest length. The operations fail for the
reasons a file system has, and a failed operation changes nothing.

* `Disk.stat?`, `Disk.isFile`, `Disk.isPresent`, `Disk.read`, `Disk.list` look.
* `Disk.makeFolders` makes a folder with all folders above it.
* `Disk.write` fills a file in place; `Disk.persist` puts a complete file in place in one step, so
  nobody ever sees part of it, and can be told to leave an existing file alone.
-/
import Transcode.Bytes
import Transcode.Disk.Path
import Transcode.Error.Io

namespace Transcode

/-- A place in the tree, as the names on the way from the root. -/
abbrev Location := List String

/-- What a location holds. -/
inductive Node where
  | file (data : Bytes) (executable : Bool)
  | folder
  deriving DecidableEq, Repr

/-- A tree of files. -/
structure Disk where
  entries : List (Location × Node)
  /-- The working directory. -/
  home : Location

namespace Disk

/-! ### The view -/

/-- What a location holds; the root is always a folder. -/
def node? (disk : Disk) : Location → Option Node
  | [] => some .folder
  | location => disk.entries.lookup location

/-- The path of the working directory. -/
def homePath (disk : Disk) : String :=
  "/" ++ String.intercalate "/" disk.home

/-- The tree without the location. -/
def erase (disk : Disk) (location : Location) : Disk :=
  { disk with entries := disk.entries.filter fun entry => entry.1 ≠ location }

/-- The tree with the location holding the node. -/
def set (disk : Disk) (location : Location) (node : Node) : Disk :=
  { disk with entries := (location, node) :: (disk.erase location).entries }

/-- The tree without the location and everything below it. -/
def eraseTree (disk : Disk) (location : Location) : Disk :=
  { disk with entries := disk.entries.filter fun entry => !location.isPrefixOf entry.1 }

/-- The names directly below a location. -/
def childNames (disk : Disk) (location : Location) : List String :=
  disk.entries.filterMap fun entry =>
    if entry.1.dropLast = location then entry.1.getLast? else none

/-! ### Following paths -/

/-- The greatest length of a name in bytes. -/
def maxName : Nat := 255

/-- The greatest length of a path in bytes. -/
def maxPath : Nat := 4095

/-- Follows names from a location, which must be a folder. The last name may be missing from the
tree. -/
def follow (disk : Disk) (location : Location) : List String → Except IoError Location
  | [] => .ok location
  | name :: rest =>
    match disk.node? location with
    | none => .error .notFound
    | some (.file ..) => .error .notADirectory
    | some .folder =>
      if name = "" ∨ name = "." then follow disk location rest
      else if name = ".." then follow disk location.dropLast rest
      else if name.utf8ByteSize > maxName then .error .nameTooLong
      else follow disk (location ++ [name]) rest

/-- The location of a path. -/
def locate (disk : Disk) (path : String) : Except IoError Location :=
  if path.toList.contains '\x00' then .error .containsNul
  else if path.isEmpty then .error .notFound
  else if path.utf8ByteSize > maxPath then .error .nameTooLong
  else disk.follow (if Path.isAbsolute path then [] else disk.home) (Path.names path)

/-! ### Looking -/

/-- What the path leads to. -/
def stat? (disk : Disk) (path : String) : Except IoError Node := do
  let location ← disk.locate path
  match disk.node? location with
  | some node => .ok node
  | none => .error .notFound

/-- Whether the path leads to a file. -/
def isFile (disk : Disk) (path : String) : Bool :=
  match disk.stat? path with
  | .ok (.file ..) => true
  | _ => false

/-- Whether the path leads to a folder. -/
def isFolder (disk : Disk) (path : String) : Bool :=
  match disk.stat? path with
  | .ok .folder => true
  | _ => false

/-- Whether the path leads to anything. Not being able to tell is an error. -/
def isPresent (disk : Disk) (path : String) : Except IoError Bool :=
  match disk.stat? path with
  | .ok _ => .ok true
  | .error .notFound => .ok false
  | .error error => .error error

/-- The content of a file. -/
def read (disk : Disk) (path : String) : Except IoError Bytes := do
  match ← disk.stat? path with
  | .file data _ => .ok data
  | .folder => .error .isADirectory

/-- The names in a folder; none for a file. -/
def list (disk : Disk) (path : String) : Except IoError (List String) := do
  let location ← disk.locate path
  match disk.node? location with
  | some .folder => .ok (disk.childNames location)
  | some (.file ..) => .ok []
  | none => .error .notFound

/-! ### Changing -/

/-- Whether the last character is a slash. -/
def endsInSlash (path : String) : Bool :=
  path.toList.getLast? == some '/'

/-- The path without slashes at its end, except the root. -/
def withoutTrailingSlash (path : String) : String :=
  match path.toList.reverse.dropWhile (· = '/') with
  | [] => path
  | text => String.ofList text.reverse

/-- Makes a folder inside one that exists. -/
def makeFolder (disk : Disk) (path : String) : Except IoError Disk := do
  let location ← disk.locate (withoutTrailingSlash path)
  match disk.node? location with
  | some _ => .error .alreadyExists
  | none => .ok (disk.set location .folder)

/-- Makes a folder; one that exists will do. -/
def ensureFolder (disk : Disk) (path : String) : Except IoError Unit × Disk :=
  match disk.makeFolder path with
  | .ok made => (.ok (), made)
  | .error error => if disk.isFolder path then (.ok (), disk) else (.error error, disk)

/-- Makes a folder and whatever is missing above it, going up at most `fuel` levels. Folders made
on the way stay when a later one fails. -/
def makeFoldersUpTo (disk : Disk) (path : String) : (fuel : Nat) → Except IoError Unit × Disk
  | 0 => (.ok (), disk)
  | fuel + 1 =>
    if path.isEmpty then (.ok (), disk)
    else
      match disk.makeFolder path, Path.parent? path with
      | .error .notFound, some parent =>
        match disk.makeFoldersUpTo parent fuel with
        | (.ok (), disk) => disk.ensureFolder path
        | (.error error, disk) => (.error error, disk)
      | _, _ => disk.ensureFolder path

/-- Makes a folder and whatever is missing above it. -/
def makeFolders (disk : Disk) (path : String) : Except IoError Unit × Disk :=
  disk.makeFoldersUpTo path (path.length + 1)

/-- Whether a file at the location may be run. -/
def isExecutable (disk : Disk) (location : Location) : Bool :=
  match disk.node? location with
  | some (.file _ executable) => executable
  | _ => false

/-- Fills a file in place, or makes it. A path that ends in a slash can only be a folder. -/
def write (disk : Disk) (path : String) (data : Bytes) : Except IoError Disk := do
  let location ← disk.locate (withoutTrailingSlash path)
  if endsInSlash path then .error .isADirectory
  else
    match disk.node? location with
    | some .folder => .error .isADirectory
    | _ => .ok (disk.set location (.file data (disk.isExecutable location)))

/-- Puts a complete file at a location in one step. With `clobber` it replaces a file there, and
otherwise nothing may be there. -/
def install (disk : Disk) (location : Location) (data : Bytes) (clobber : Bool) :
    Except IoError Disk :=
  match disk.node? location, clobber with
  | some _, false => .error .alreadyExists
  | some .folder, true => .error .isADirectory
  | _, _ => .ok (disk.set location (.file data false))

/-- Puts a complete file at a path whose folder exists. A path that ends in a slash is no place for
a file, and neither is one that ends in dots. -/
def installAt (disk : Disk) (path : String) (data : Bytes) (clobber : Bool) :
    Except IoError Disk :=
  if endsInSlash path then .error .notADirectory
  else do
    let location ← disk.locate path
    if Path.isDotted path then .error (if clobber then .busy else .alreadyExists)
    else disk.install location data clobber

/-- The outcome of a change, and the tree after it: a failed change leaves it as it was. -/
def commit (disk : Disk) : Except IoError Disk → Except IoError Unit × Disk
  | .ok changed => (.ok (), changed)
  | .error error => (.error error, disk)

/-- Puts a complete file at a path in one step, with the folders above it. -/
def persist (disk : Disk) (path : String) (data : Bytes) (clobber : Bool) :
    Except IoError Unit × Disk :=
  match disk.makeFolders ((Path.parent? path).getD ".") with
  | (.error error, disk) => (.error error, disk)
  | (.ok (), disk) => disk.commit (disk.installAt path data clobber)

/-- The tree with a node put at a path, and the folders above it. A file that may be run stays one.
Where nothing can be put, nothing is. -/
def plant (disk : Disk) (path : String) (node : Node) : Disk :=
  match disk.makeFolders ((Path.parent? path).getD "/") with
  | (.error _, disk) => disk
  | (.ok (), disk) =>
    match disk.locate (withoutTrailingSlash path) with
    | .ok location =>
      match node with
      | .file data executable =>
        disk.set location (.file data (executable || disk.isExecutable location))
      | .folder => disk.set location .folder
    | .error _ => disk

/-- Removes a file. -/
def removeFile (disk : Disk) (path : String) : Except IoError Disk := do
  let location ← disk.locate path
  match disk.node? location with
  | some (.file ..) => .ok (disk.erase location)
  | some .folder => .error .isADirectory
  | none => .error .notFound

/-- Removes a folder with everything in it. -/
def removeTree (disk : Disk) (path : String) : Disk :=
  match disk.locate path with
  | .ok location => disk.eraseTree location
  | .error _ => disk

end Disk

end Transcode
