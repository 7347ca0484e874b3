/-
**Reading TOML.** A document is a sequence of lines: headers in brackets, and keys with their values
(`Toml.Line`). `Toml.read` reads the lines and puts them together.
-/
import Transcode.Toml.Scalar

namespace Transcode.Toml

/-! ### Blanks and comments -/

/-- The text after blanks. -/
def skipBlanks (text : List Char) : List Char :=
  text.dropWhile isBlank

/-- The text after a comment, if there is one, which may hold printable characters only. -/
def skipComment? : List Char → Option (List Char)
  | '#' :: rest =>
    match rest.dropWhile isPrintable with
    | [] => some []
    | text => (newline? text).map fun _ => text
  | text => some text

/-- The text after the rest of a line that holds nothing more. -/
def endOfLine? (text : List Char) : Option (List Char) := do
  match ← skipComment? (skipBlanks text) with
  | [] => some []
  | text => newline? text

/-- The text after blanks, comments and line ends. -/
def skipLines? : (fuel : Nat) → List Char → Option (List Char)
  | 0, _ => none
  | fuel + 1, text => do
    let text ← skipComment? (skipBlanks text)
    match newline? text with
    | some rest => skipLines? fuel rest
    | none => some text

/-! ### Keys -/

/-- Whether the character may stand in a key without marks. -/
def isBareKey (c : Char) : Bool :=
  c.isAlphanum || c = '_' || c = '-'

/-- One part of a key, after blanks. -/
def keyPart? (text : List Char) : Option (String × List Char) :=
  match skipBlanks text with
  | [] => none
  | c :: rest =>
    if c = '"' ∨ c = '\'' then quoted? (c :: rest)
    else
      match (c :: rest).takeWhile isBareKey with
      | [] => none
      | part => some (String.ofList part, (c :: rest).dropWhile isBareKey)

/-- How deep values and keys may be nested. -/
def maxDepth : Nat := 80

/-- A dotted key of at most `fuel` parts. -/
def keyParts? : (fuel : Nat) → List Char → Option (List String × String × List Char)
  | 0, _ => none
  | fuel + 1, text => do
    let (part, rest) ← keyPart? text
    match skipBlanks rest with
    | '.' :: rest => do
      let (path, last, rest) ← keyParts? fuel rest
      some (part :: path, last, rest)
    | rest => some ([], part, rest)

/-- A dotted key: the parts before the last, the last, and what follows it and its blanks. -/
def key? (text : List Char) : Option (List String × String × List Char) :=
  keyParts? (maxDepth - 1) text

/-! ### Values -/

/-- Whether the character ends a number, a date or a word. -/
def endsToken (c : Char) : Bool :=
  isBlank c || c = '\n' || c = '\r' || c = ',' || c = ']' || c = '\x7d' || c = '#'

/-- A number, a date or a word at the front. Between a date and a time there may be a blank. -/
def token? (text : List Char) : Option (Toml × List Char) :=
  let token := text.takeWhile fun c => !endsToken c
  let rest := text.dropWhile fun c => !endsToken c
  if isMoment token then
    match rest with
    | ' ' :: more =>
      let time := more.takeWhile fun c => !endsToken c
      if afterDate? token == some [] ∧ isOffsetTime time then
        some (.moment, more.drop time.length)
      else some (.moment, rest)
    | _ => some (.moment, rest)
  else
    match integer? token, float? token, String.ofList token with
    | some value, _, _ => some (.integer value, rest)
    | none, some value, _ => some (.float value, rest)
    | none, none, "true" => some (.bool true, rest)
    | none, none, "false" => some (.bool false, rest)
    | none, none, _ => none

mutual

/-- A value at the front, inside containers of the given depth. -/
def value? : (fuel depth : Nat) → List Char → Option (Toml × List Char)
  | 0, _, _ => none
  | fuel + 1, depth, text =>
    match text with
    | '"' :: _ | '\'' :: _ => (string? text).map fun (body, rest) => (.string body, rest)
    | '[' :: rest =>
      if maxDepth ≤ depth + 1 then none
      else (items? fuel (depth + 1) rest).map fun (items, rest) => (.array items, rest)
    | '\x7b' :: rest =>
      if maxDepth ≤ depth + 1 then none
      else
        match skipBlanks rest with
        | '\x7d' :: rest => some (.table .inline [], rest)
        | rest =>
          (fields? fuel (depth + 1) ⟨.inline, []⟩ rest).map fun (filled, rest) =>
            (filled.toToml, rest)
    | _ => token? text

/-- The items of an array up to its closing bracket. A comma may follow the last. -/
def items? : (fuel depth : Nat) → List Char → Option (List Toml × List Char)
  | 0, _, _ => none
  | fuel + 1, depth, text => do
    match ← skipLines? (text.length + 1) text with
    | ']' :: rest => some ([], rest)
    | text =>
      let (item, rest) ← value? fuel depth text
      match ← skipLines? (rest.length + 1) rest with
      | ',' :: rest =>
        let (items, rest) ← items? fuel depth rest
        some (item :: items, rest)
      | ']' :: rest => some ([item], rest)
      | _ => none

/-- The fields of a table in braces up to the closing one; there is at least one more. -/
def fields? : (fuel depth : Nat) → Table → List Char → Option (Table × List Char)
  | 0, _, _, _ => none
  | fuel + 1, depth, given, text => do
    let (path, key, rest) ← key? text
    let rest ← skip? '=' rest
    let (value, rest) ← value? fuel depth (skipBlanks rest)
    let filled ← given.addValue .inlineDotted path key value
    match skipBlanks rest with
    | ',' :: rest => fields? fuel depth filled rest
    | '\x7d' :: rest => some (filled, rest)
    | _ => none

end

/-! ### Documents -/

/-- A document under construction: its tables, and the header that values belong to. -/
structure Draft where
  root : Table
  header : List String

/-- A line, without its end. -/
inductive Line where
  | blank
  | header (path : List String) (key : String)
  | arrayHeader (path : List String) (key : String)
  | value (path : List String) (key : String) (value : Toml)

/-- The document with one more line. -/
def Draft.add (draft : Draft) : Line → Option Draft
  | .blank => some draft
  | .header path key =>
    (draft.root.openTable path key).map fun root => ⟨root, path ++ [key]⟩
  | .arrayHeader path key =>
    (draft.root.openArrayTable path key).map fun root => ⟨root, path ++ [key]⟩
  | .value path key value =>
    (draft.root.addUnder draft.header path key value).map fun root => { draft with root }

/-- The line at the front, which is not empty, and what follows on the same line. -/
def line? (text : List Char) : Option (Line × List Char) :=
  match text with
  | '#' :: _ | '\n' :: _ | '\r' :: _ => some (.blank, text)
  | '[' :: '[' :: rest => do
    let (path, key, rest) ← key? rest
    match rest with
    | ']' :: ']' :: rest => some (.arrayHeader path key, rest)
    | _ => none
  | '[' :: rest => do
    let (path, key, rest) ← key? rest
    let rest ← skip? ']' rest
    some (.header path key, rest)
  | _ => do
    let (path, key, rest) ← key? text
    let rest ← skip? '=' rest
    let (value, rest) ← value? (2 * rest.length + 2) 0 (skipBlanks rest)
    some (.value path key value, rest)

/-- Reads the remaining lines. -/
def lines? : (fuel : Nat) → Draft → List Char → Option Draft
  | 0, _, _ => none
  | fuel + 1, draft, text =>
    match skipBlanks text with
    | [] => some draft
    | text => do
      let (line, rest) ← line? text
      let draft ← draft.add line
      lines? fuel draft (← endOfLine? rest)

/-- Reads a document. A byte order mark in front is ignored. -/
def read (text : String) : Option Table :=
  let chars :=
    match text.toList with
    | '\ufeff' :: rest => rest
    | chars => chars
  (lines? (chars.length + 1) ⟨.document, []⟩ chars).map Draft.root

end Transcode.Toml
