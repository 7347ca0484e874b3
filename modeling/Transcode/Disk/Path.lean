/-
**Paths as text.** A path is a sequence of names between slashes; one that begins with a slash is
absolute.

* `Path.join` puts a path behind a directory, unless it is absolute.
* `Path.parent?` is the path without its last name.
* `Path.names` are the names to walk through.
-/

namespace Transcode.Path

/-- Whether the path starts at the root. -/
def isAbsolute (path : String) : Bool :=
  path.toList.head? == some '/'

/-- The path of something inside a directory. An absolute path stays as it is. -/
def join (directory path : String) : String :=
  if isAbsolute path || directory.isEmpty then path
  else if directory.toList.getLast? == some '/' then directory ++ path
  else directory ++ "/" ++ path

/-- Reversed text without slashes, and without names that stand for the directory itself, at its
end. -/
def dropTrailing : List Char → List Char
  | '/' :: rest => dropTrailing rest
  | '.' :: '/' :: rest => dropTrailing rest
  | text => text

/-- The path without its last name; the root and the empty path have none. -/
def parent? (path : String) : Option String :=
  let root := if isAbsolute path then "/" else ""
  match dropTrailing path.toList.reverse with
  | [] => none
  | text =>
    match dropTrailing (text.dropWhile (· ≠ '/')) with
    | [] => some root
    | before => some (String.ofList before.reverse)

/-- The pieces between slashes. -/
def pieces : List Char → List (List Char)
  | [] => [[]]
  | '/' :: rest => [] :: pieces rest
  | c :: rest =>
    match pieces rest with
    | [] => [[c]]
    | first :: others => (c :: first) :: others

/-- The names to walk through, from the root or from the working directory. An empty name, as after
a slash at the end, stands for the directory that has been reached. -/
def names (path : String) : List String :=
  (pieces path.toList).map String.ofList

/-- Whether the last name stands for a folder on the way, the one reached or the one above. -/
def isDotted (path : String) : Bool :=
  (names path).getLast? == some "." || (names path).getLast? == some ".."

end Transcode.Path
