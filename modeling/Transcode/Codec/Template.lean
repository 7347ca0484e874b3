/-
**Command templates.** Each codec operation is one command of an external tool, given as a list of
arguments with placeholders in braces for the files of the call.

* `Replace.all` replaces every occurrence of a pattern, from left to right and without overlaps.
* `Template.placeholders` are the names a template refers to, and `Template.check` compares them
  with what the operation offers and needs.
* `Template.render` puts paths in their places, one placeholder after another.
-/
import Transcode.Codec.Basic

namespace Transcode

namespace Replace

/-- Replaces the occurrences after the next `skip` characters, which are dropped. -/
def after (pattern replacement : List Char) : (skip : Nat) → List Char → List Char
  | _, [] => []
  | skip + 1, _ :: rest => after pattern replacement skip rest
  | 0, c :: rest =>
    if pattern.isPrefixOf (c :: rest) then
      replacement ++ after pattern replacement (pattern.length - 1) rest
    else c :: after pattern replacement 0 rest

/-- The text with every occurrence of a pattern, which is not empty, replaced. -/
def all (pattern replacement : List Char) (text : List Char) : List Char :=
  after pattern replacement 0 text

end Replace

/-- A file of a codec call. -/
inductive Placeholder where
  | raw
  | bitstream
  | state
  | oldState
  | predictor
  | head
  | tail
  | output
  | outputState
  deriving DecidableEq, Repr

namespace Placeholder

/-- The name between the braces. -/
def name : Placeholder → String
  | raw => "raw"
  | bitstream => "bitstream"
  | state => "state"
  | oldState => "old_state"
  | predictor => "predictor"
  | head => "prefix"
  | tail => "suffix"
  | output => "output"
  | outputState => "output_state"

/-- The name with its braces. -/
def mark (placeholder : Placeholder) : List Char :=
  '\x7b' :: placeholder.name.toList ++ ['\x7d']

end Placeholder

namespace Codec.Operation

/-- The files of a call, in the order in which they are put into the template. -/
def offered : Operation → List Placeholder
  | encode => [.raw, .output]
  | decodeState => [.bitstream, .outputState]
  | encodeGivenState => [.raw, .state, .predictor, .output, .outputState]
  | rebase => [.raw, .state, .oldState, .predictor, .output, .outputState]
  | merge => [.head, .tail, .output]
  | decode => [.bitstream, .output]

/-- The files that a template cannot do without. A predictor is only a help for encoding. -/
def needed (operation : Operation) : List Placeholder :=
  if operation = encodeGivenState then operation.offered.erase .predictor else operation.offered

end Codec.Operation

/-- The arguments of a command, the program first. -/
abbrev Template := List String

namespace Template

open Codec (Operation)

/-- The names in braces, outside and inside of which the reader may be. An opening brace that is
never closed names nothing. -/
def names : Option (List Char) → List Char → List String
  | _, [] => []
  | none, c :: rest => if c = '\x7b' then names (some []) rest else names none rest
  | some name, c :: rest =>
    if c = '\x7d' then String.ofList name.reverse :: names none rest
    else names (some (c :: name)) rest

/-- The names that the template refers to. -/
def placeholders (template : Template) : List String :=
  template.flatMap fun argument => names none argument.toList

/-- A template must not be empty, must not refer to what the operation does not offer, and must
refer to all that it needs. -/
def check (operation : Operation) (template : Template) : Except TemplateError Unit :=
  let used := template.placeholders
  let offered := operation.offered.map Placeholder.name
  if template.isEmpty then .error (.empty operation.name)
  else
    match used.find? fun name => !offered.contains name with
    | some name => .error (.unknownPlaceholder operation.name name)
    | none =>
      match operation.needed.find? fun placeholder => !used.contains placeholder.name with
      | some placeholder => .error (.missingPlaceholder operation.name placeholder.name)
      | none => .ok ()

/-- An argument with the paths in the places of the placeholders. Text that an earlier path brings
in is subject to the later ones. -/
def renderArgument (bindings : List (Placeholder × String)) (argument : String) : String :=
  String.ofList (bindings.foldl
    (fun text binding => Replace.all binding.1.mark binding.2.toList text) argument.toList)

/-- The command with all paths in their places. -/
def render (template : Template) (bindings : List (Placeholder × String)) : List String :=
  template.map (renderArgument bindings)

end Template

/-- The templates of all operations. -/
structure Commands where
  encode : Template
  decodeState : Template
  encodeGivenState : Template
  rebase : Template
  merge : Template
  decode : Template
  deriving DecidableEq, Repr

namespace Commands

open Codec (Operation)

/-- The template of an operation. -/
def template (commands : Commands) : Operation → Template
  | .encode => commands.encode
  | .decodeState => commands.decodeState
  | .encodeGivenState => commands.encodeGivenState
  | .rebase => commands.rebase
  | .merge => commands.merge
  | .decode => commands.decode

/-- The templates with that of one operation replaced. -/
def set (commands : Commands) (operation : Operation) (template : Template) : Commands :=
  match operation with
  | .encode => { commands with encode := template }
  | .decodeState => { commands with decodeState := template }
  | .encodeGivenState => { commands with encodeGivenState := template }
  | .rebase => { commands with rebase := template }
  | .merge => { commands with merge := template }
  | .decode => { commands with decode := template }

/-- Checks all templates, in the order of the operations. -/
def check (commands : Commands) : Except TemplateError Unit :=
  Operation.all.forM fun operation => (commands.template operation).check operation

/-- A placeholder as an argument of its own. -/
def file (placeholder : Placeholder) : String :=
  String.ofList placeholder.mark

/-- The arguments shared by the two operations that continue a decoder state. -/
def continuation (oldState : List String) : Template :=
  ["xc-enc", "-i", "y4m", "-O", file .outputState, "-o", file .output, "-r", "-I", file .state] ++
    oldState ++ ["-p", file .predictor, "--no-wait", file .raw]

/-- The tools that are called when nothing is configured. -/
def standard : Commands where
  encode := ["vpxenc", "--codec=vp8", "--ivf", "--good", "--cpu-used=0", "--end-usage=cq",
    "--min-q=0", "--max-q=63", "--cq-level=31", "--buf-initial-sz=10000",
    "--buf-optimal-sz=20000", "--buf-sz=40000", "--undershoot-pct=100", "--passes=2",
    "--auto-alt-ref=1", "--threads=1", "--token-parts=0", "--tune=ssim",
    "--target-bitrate=4294967295", "-o", file .output, file .raw]
  decodeState := ["xc-dump", file .bitstream, file .outputState]
  encodeGivenState := continuation []
  rebase := continuation ["-S", file .oldState]
  merge := ["xc-merge", file .head, file .tail, file .output]
  decode := ["vp8decode", "-o", file .output, file .bitstream]

end Commands

end Transcode
