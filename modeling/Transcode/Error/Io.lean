/-
**Failures of the file system and of launched programs**, by the condition that the system
reports, with the wording that users see.
-/

namespace Transcode

/-- Why the file system refused. -/
inductive IoError where
  | notFound
  | permissionDenied
  | alreadyExists
  | notADirectory
  | isADirectory
  | busy
  | nameTooLong
  | invalidText
  | containsNul
  /-- A failure that names the path it happened at. -/
  | atPath (cause : IoError) (path : String)
  | described (text : String)
  deriving DecidableEq, Repr

/-- The wording of a file system failure. -/
def IoError.message : IoError → String
  | .notFound => "No such file or directory (os error 2)"
  | .permissionDenied => "Permission denied (os error 13)"
  | .alreadyExists => "File exists (os error 17)"
  | .notADirectory => "Not a directory (os error 20)"
  | .isADirectory => "Is a directory (os error 21)"
  | .busy => "Device or resource busy (os error 16)"
  | .nameTooLong => "File name too long (os error 36)"
  | .invalidText => "stream did not contain valid UTF-8"
  | .containsNul => "file name contained an unexpected NUL byte"
  | .atPath cause path => s!"{cause.message} at path \"{path}\""
  | .described text => text

/-- How a launched program ended. -/
inductive ExitStatus where
  | code (value : Nat)
  | signal (number : Nat) (name : String)
  deriving DecidableEq, Repr

namespace ExitStatus

/-- Only code zero is a success. -/
def isSuccess (status : ExitStatus) : Bool :=
  status = code 0

/-- The wording of an exit status. -/
def message : ExitStatus → String
  | code value => s!"exit status: {value}"
  | signal number name => s!"signal: {number} ({name})"

end ExitStatus

end Transcode
