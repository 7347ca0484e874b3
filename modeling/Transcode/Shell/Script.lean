/-
**Shell scripts as data.** A `Script` is a tree of commands. A word of a command is a list of
pieces, each either text or something whose value is only known when the command runs; a piece also
says whether it stood in quotes, for only what is unquoted is split into several fields.
-/

namespace Transcode.Shell

/-- The end of a text from which a pattern is removed. -/
inductive Edge where
  | front
  | back
  deriving DecidableEq, Repr

/-- Where the text of a piece comes from. -/
inductive Source where
  | text (text : String)
  /-- A variable, an argument, or one of the special parameters. -/
  | parameter (name : String)
  /-- A parameter without what the pattern matches at one end. -/
  | without (name : String) (edge : Edge) (longest : Bool) (pattern : String)
  /-- What a script writes. -/
  | capture (script : String)
  /-- The value of a sum. -/
  | value (expression : String)
  deriving DecidableEq, Repr

/-- A piece of a word. -/
structure Piece where
  source : Source
  quoted : Bool
  deriving DecidableEq, Repr

/-- A word as it is written. -/
abbrev Word := List Piece

namespace Word

/-- The text of a word without quotes and parameters. -/
def plain? : Word → Option String
  | [⟨.text text, false⟩] => some text
  | _ => none

end Word

/-- The streams that a command writes to. -/
inductive Descriptor where
  | output
  | diagnostics
  deriving DecidableEq, Repr

/-- A change of the streams of a command. -/
inductive Redirection where
  | input (path : Word)
  | file (descriptor : Descriptor) (path : Word) (extend : Bool)
  | same (descriptor target : Descriptor)
  deriving DecidableEq, Repr

/-- A script. -/
inductive Script where
  | nothing
  | command (line : Nat) (settings : List (String × Word)) (words : List Word)
  | redirected (body : Script) (line : Nat) (redirections : List Redirection)
  | sequence (first second : Script)
  | both (first second : Script)
  | either (first second : Script)
  | inverse (body : Script)
  | pipe (first second : Script)
  | loop (condition body : Script) (goesOnAt : Bool)
  | each (name : String) (words : List Word) (body : Script)
  | choice (condition yes no : Script)
  | inside (body : Script)
  deriving DecidableEq, Repr

end Transcode.Shell
