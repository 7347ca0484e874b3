/-
**Utilities.** The programs that scripts are made of, each a function of its arguments, what it
reads, and the tree of files. `Utility.find?` gives the utility of a name.
-/
import Transcode.Tool.Basic
import Transcode.Shell.Format

namespace Transcode.Shell

/-- What a utility has done. -/
structure Effect where
  status : Nat := 0
  output : Bytes := []
  diagnostics : String := ""
  disk : Disk

/-- A program without state of its own. -/
abbrev Utility := (arguments : List String) → (input : Bytes) → Disk → Effect

namespace Utility

/-- Writes text. -/
def say (text : String) (disk : Disk) : Effect :=
  { output := Bytes.ofString text, disk }

/-- Fails with lines of complaint. -/
def refuse (status : Nat) (lines : List String) (disk : Disk) : Effect :=
  { status, diagnostics := String.join (lines.map (· ++ "\n")), disk }

/-- The wording of a file system failure without its number. -/
def reason : IoError → String
  | .notFound => "No such file or directory"
  | .permissionDenied => "Permission denied"
  | .alreadyExists => "File exists"
  | .notADirectory => "Not a directory"
  | .isADirectory => "Is a directory"
  | .nameTooLong => "File name too long"
  | error => error.message

/-- Arguments after a mark that ends the options. -/
def operands : List String → List String
  | "--" :: rest => rest
  | arguments => arguments

/-- A complaint about the number of operands. -/
def misuse (name complaint : String) (disk : Disk) : Effect :=
  refuse 1 [name ++ ": " ++ complaint, "Try '" ++ name ++ " --help' for more information."] disk

/-- The effects of two steps in a row; the status is the worse one. -/
def andThen (first : Effect) (next : Disk → Effect) : Effect :=
  let second := next first.disk
  { status := max first.status second.status
    output := first.output ++ second.output
    diagnostics := first.diagnostics ++ second.diagnostics
    disk := second.disk }

/-- A step for each operand in turn. -/
def forEach (step : String → Disk → Effect) (operands : List String) (disk : Disk) : Effect :=
  operands.foldl (fun effect operand => andThen effect (step operand)) { disk }

/-! ### Text -/

/-- Writes its arguments with blanks between them and a line end, or without one after `-n`. -/
def echo : Utility := fun arguments _ disk =>
  let (arguments, ending) :=
    match arguments with
    | "-n" :: rest => (rest, "")
    | arguments => (arguments, "\n")
  say (String.ofList (Format.unescape (String.intercalate " " arguments).toList) ++ ending) disk

/-- Writes a format filled with arguments. -/
def printf : Utility := fun arguments _ disk =>
  match operands arguments with
  | [] => refuse 2 ["printf: usage: printf format [arg ...]"] disk
  | format :: arguments =>
    let (text, fits) := Format.render format arguments
    { status := if fits then 0 else 1, output := Bytes.ofString text, disk }

/-- A path without the slashes at its end. -/
def trimmed (path : String) : List Char :=
  (path.toList.reverse.dropWhile (· = '/')).reverse

/-- The last name of a path. -/
def lastName (path : String) : String :=
  match trimmed path with
  | [] => if path.isEmpty then "" else "/"
  | text => String.ofList (text.reverse.takeWhile (· ≠ '/')).reverse

/-- A name without an ending, unless the ending is all of it. -/
def dropEnding (name ending : String) : String :=
  if name ≠ ending ∧ name.endsWith ending then (name.dropEnd ending.length).toString else name

/-- Writes the last name of a path, without an ending if one is given. -/
def basename : Utility := fun arguments _ disk =>
  match operands arguments with
  | [] => misuse "basename" "missing operand" disk
  | [path] => say (lastName path ++ "\n") disk
  | [path, ending] => say (dropEnding (lastName path) ending ++ "\n") disk
  | _ :: _ :: extra :: _ => misuse "basename" ("extra operand '" ++ extra ++ "'") disk

/-- What a path names a part of. -/
def folderOf (path : String) : String :=
  let isSlash (c : Char) : Bool := c = '/'
  match trimmed path with
  | [] => if path.isEmpty then "." else "/"
  | text =>
    match text.reverse.dropWhile (· ≠ '/') with
    | [] => "."
    | before =>
      match before.dropWhile isSlash with
      | [] => "/"
      | folder => String.ofList folder.reverse

/-- Writes what its operands name parts of. -/
def dirname : Utility := fun arguments _ disk =>
  match operands arguments with
  | [] => misuse "dirname" "missing operand" disk
  | paths => say (String.join (paths.map fun path => folderOf path ++ "\n")) disk

/-! ### Files -/

/-- Writes the content of files, or what it reads when there are none. -/
def cat : Utility := fun arguments input disk =>
  let content (path : String) (disk : Disk) : Effect :=
    if path = "-" then { output := input, disk }
    else
      match disk.read path with
      | .ok bytes => { output := bytes, disk }
      | .error error => refuse 1 ["cat: " ++ path ++ ": " ++ reason error] disk
  match operands arguments with
  | [] => { output := input, disk }
  | paths => forEach content paths disk

/-- Where a copy goes: into a folder under the last name of the file. -/
def destination (path target : String) (disk : Disk) : String :=
  if disk.isFolder target then Path.join target (lastName path) else target

/-- Copies a file. -/
def copy (target path : String) (disk : Disk) : Effect :=
  let place := destination path target disk
  match disk.stat? path with
  | .error error => refuse 1 ["cp: cannot stat '" ++ path ++ "': " ++ reason error] disk
  | .ok .folder => refuse 1 ["cp: -r not specified; omitting directory '" ++ path ++ "'"] disk
  | .ok (.file data executable) =>
    match disk.locate path, disk.locate place with
    | .ok source, .ok there =>
      if source = there then
        refuse 1 ["cp: '" ++ path ++ "' and '" ++ place ++ "' are the same file"] disk
      else
        match disk.node? there with
        | none => { disk := disk.set there (.file data executable) }
        | some (.file _ mode) => { disk := disk.set there (.file data mode) }
        | some .folder =>
          refuse 1
            ["cp: cannot overwrite directory '" ++ place ++ "' with non-directory"] disk
    | _, .error error =>
      refuse 1 ["cp: cannot create regular file '" ++ place ++ "': " ++ reason error] disk
    | .error error, _ => refuse 1 ["cp: cannot stat '" ++ path ++ "': " ++ reason error] disk

/-- Copies files to the place named last. -/
def cp : Utility := fun arguments _ disk =>
  match (operands arguments).reverse with
  | [] => misuse "cp" "missing file operand" disk
  | [path] => misuse "cp" ("missing destination file operand after '" ++ path ++ "'") disk
  | [target, path] => copy target path disk
  | target :: paths =>
    if disk.isFolder target then forEach (copy target) paths.reverse disk
    else refuse 1 ["cp: target '" ++ target ++ "' is not a directory"] disk

/-- Makes folders, with what is missing above them after `-p`. -/
def mkdir : Utility := fun arguments _ disk =>
  let complaint (path : String) (error : IoError) (disk : Disk) : Effect :=
    refuse 1 ["mkdir: cannot create directory '" ++ path ++ "': " ++ reason error] disk
  let make (path : String) (disk : Disk) : Effect :=
    match disk.makeFolder path with
    | .ok disk => { disk }
    | .error error => complaint path error disk
  let makeAll (path : String) (disk : Disk) : Effect :=
    match disk.makeFolders path with
    | (.ok (), disk) => { disk }
    | (.error error, disk) => complaint path error disk
  match arguments with
  | "-p" :: rest => forEach makeAll (operands rest) disk
  | arguments =>
    match operands arguments with
    | [] => misuse "mkdir" "missing operand" disk
    | paths => forEach make paths disk

/-- Removes files; with `-f` it does not matter whether they are there. -/
def rm : Utility := fun arguments _ disk =>
  let remove (forced : Bool) (path : String) (disk : Disk) : Effect :=
    match disk.removeFile path with
    | .ok disk => { disk }
    | .error error =>
      if forced && error = .notFound then { disk }
      else refuse 1 ["rm: cannot remove '" ++ path ++ "': " ++ reason error] disk
  match arguments with
  | "-f" :: rest => forEach (remove true) (operands rest) disk
  | arguments =>
    match operands arguments with
    | [] => misuse "rm" "missing operand" disk
    | paths => forEach (remove false) paths disk

/-- Makes files that are not there. -/
def touch : Utility := fun arguments _ disk =>
  let make (path : String) (disk : Disk) : Effect :=
    if (disk.stat? path).isOk then { disk }
    else
      match disk.write path [] with
      | .ok disk => { disk }
      | .error error => refuse 1 ["touch: cannot touch '" ++ path ++ "': " ++ reason error] disk
  match operands arguments with
  | [] => misuse "touch" "missing file operand" disk
  | paths => forEach make paths disk

/-- Writes the working directory. -/
def pwd : Utility := fun _ _ disk =>
  say (disk.homePath ++ "\n") disk

/-! ### Conditions -/

/-- The comparison of numbers that an operator stands for. -/
def comparison? : String → Option (Int → Int → Bool)
  | "-eq" => some fun left right => left = right
  | "-ne" => some fun left right => left ≠ right
  | "-lt" => some fun left right => left < right
  | "-le" => some fun left right => left ≤ right
  | "-gt" => some fun left right => right < left
  | "-ge" => some fun left right => right ≤ left
  | _ => none

/-- Whether a condition holds, or what is wrong with it. -/
def holds (disk : Disk) : List String → Except String Bool
  | [] => .ok false
  | "!" :: rest => (holds disk rest).map not
  | [text] => .ok (!text.isEmpty)
  | ["-n", text] => .ok (!text.isEmpty)
  | ["-z", text] => .ok text.isEmpty
  | ["-e", path] => .ok (disk.stat? path).isOk
  | ["-f", path] => .ok (disk.isFile path)
  | ["-d", path] => .ok (disk.isFolder path)
  | ["-r", path] => .ok (disk.stat? path).isOk
  | ["-w", path] => .ok (disk.stat? path).isOk
  | ["-x", path] =>
    .ok (match disk.stat? path with
      | .ok .folder => true
      | .ok (.file _ executable) => executable
      | .error _ => false)
  | ["-s", path] =>
    .ok (match disk.read path with
      | .ok bytes => !bytes.isEmpty
      | .error error => error = .isADirectory)
  | [left, "=", right] => .ok (left = right)
  | [left, "==", right] => .ok (left = right)
  | [left, "!=", right] => .ok (left ≠ right)
  | [left, operator, right] =>
    match comparison? operator, Sum.number? left, Sum.number? right with
    | none, _, _ => .error (operator ++ ": unexpected operator")
    | _, none, _ => .error ("Illegal number: " ++ left)
    | _, _, none => .error ("Illegal number: " ++ right)
    | some compare, some first, some second => .ok (compare first second)
  | _ => .error "too many arguments"

/-- Tells by its status whether a condition holds. -/
def condition (name : String) (words : List String) (disk : Disk) : Effect :=
  match holds disk words with
  | .ok result => { status := if result then 0 else 1, disk }
  | .error complaint => refuse 2 [name ++ ": " ++ complaint] disk

/-- A condition between brackets. -/
def bracket : Utility := fun arguments _ disk =>
  if arguments.getLast? = some "]" then condition "[" arguments.dropLast disk
  else refuse 2 ["[: missing ]"] disk

/-- Does nothing and ends with a status. -/
def ending (status : Nat) : Utility := fun _ _ disk =>
  { status, disk }

/-- The utility of a name. -/
def find? : String → Option Utility
  | "true" => some (ending 0)
  | "false" => some (ending 1)
  | "echo" => some echo
  | "printf" => some printf
  | "[" => some bracket
  | "test" => some fun words _ disk => condition "test" words disk
  | "basename" => some basename
  | "dirname" => some dirname
  | "cat" => some cat
  | "cp" => some cp
  | "mkdir" => some mkdir
  | "rm" => some rm
  | "touch" => some touch
  | "pwd" => some pwd
  | _ => none

end Utility

end Transcode.Shell
