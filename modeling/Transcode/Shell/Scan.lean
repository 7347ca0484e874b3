/-
**Tokens of a shell script.** `Scan.tokens` takes a script apart into words, operators and
redirections, each with the number of its line. Quotes and expansions are resolved into the pieces
of a word here; what stands between the parentheses of an expansion is kept as text.
-/
import Transcode.Shell.Script

namespace Transcode.Shell

/-- The arrow of a redirection. -/
inductive Arrow where
  | input
  | fresh
  | extend
  | same
  deriving DecidableEq, Repr

/-- A token. A line end is the operator of that character. -/
inductive Token where
  | word (word : Word)
  | operator (text : String)
  | arrow (arrow : Arrow) (descriptor : Option Nat)
  deriving DecidableEq, Repr

/-- A token and its line. -/
structure Placed where
  token : Token
  line : Nat
  deriving DecidableEq, Repr

namespace Scan

/-! ### Expansions -/

/-- Whether the character may stand in the name of a variable. -/
def isNameChar (c : Char) : Bool :=
  c.isAlphanum || c = '_'

/-- Whether the character is the name of a parameter by itself. -/
def isSpecial (c : Char) : Bool :=
  ['@', '*', '#', '?', '$', '!', '-'].contains c

/-- The text up to the bracket that closes an open one, and what follows it. Brackets in quotes do
not count. -/
def enclosed (opening closing : Char) :
    (depth : Nat) → (quote : Option Char) → List Char → Option (List Char × List Char)
  | _, _, [] => none
  | depth, quote, '\\' :: c :: rest =>
    (enclosed opening closing depth quote rest).map fun (body, rest) => ('\\' :: c :: body, rest)
  | depth, some mark, c :: rest =>
    (enclosed opening closing depth (if c = mark then none else some mark) rest).map
      fun (body, rest) => (c :: body, rest)
  | depth, none, c :: rest =>
    if c = closing then
      match depth with
      | 0 => some ([], rest)
      | depth + 1 =>
        (enclosed opening closing depth none rest).map fun (body, rest) => (c :: body, rest)
    else
      let depth := if c = opening then depth + 1 else depth
      let quote := if c = '"' || c = '\'' then some c else none
      (enclosed opening closing depth quote rest).map fun (body, rest) => (c :: body, rest)

/-- The name of a parameter at the front, and what follows it. -/
def parameterName : List Char → Option (String × List Char)
  | [] => none
  | c :: rest =>
    if isSpecial c || c.isDigit then some (String.singleton c, rest)
    else if isNameChar c then
      some (String.ofList ((c :: rest).takeWhile isNameChar), (c :: rest).dropWhile isNameChar)
    else none

/-- What stands between the braces of a parameter. -/
def braced (body : List Char) : Option Source := do
  let (name, rest) ← parameterName body
  let without (edge : Edge) (longest : Bool) (pattern : List Char) : Source :=
    .without name edge longest (String.ofList pattern)
  match rest with
  | [] => some (.parameter name)
  | '#' :: '#' :: pattern => some (without .front true pattern)
  | '#' :: pattern => some (without .front false pattern)
  | '%' :: '%' :: pattern => some (without .back true pattern)
  | '%' :: pattern => some (without .back false pattern)
  | _ => none

/-- What stands between the parentheses of an expansion: a sum when they are doubled. -/
def parenthesised (body : List Char) : Source :=
  match body, body.getLast? with
  | '(' :: inner, some ')' => .value (String.ofList inner.dropLast)
  | _, _ => .capture (String.ofList body)

/-- The expansion after a dollar sign, and what follows it. A dollar sign before anything else
stands for itself. -/
def expansion : List Char → Option (Source × List Char)
  | '(' :: rest => do
    let (body, rest) ← enclosed '(' ')' 0 none rest
    some (parenthesised body, rest)
  | '\x7b' :: rest => do
    let (body, rest) ← enclosed '\x7b' '\x7d' 0 none rest
    some (← braced body, rest)
  | rest =>
    match parameterName rest with
    | some (name, rest) => some (.parameter name, rest)
    | none => some (.text "$", rest)

/-! ### Words -/

/-- Whether an unquoted character ends a word. -/
def endsWord (c : Char) : Bool :=
  [' ', '\t', '\n', ';', '&', '|', '(', ')', '<', '>'].contains c

/-- A piece that is one character. -/
def character (c : Char) (quoted : Bool) : Piece :=
  ⟨.text (String.singleton c), quoted⟩

/-- The pieces between double quotes, and what follows the closing one. -/
def doubleQuoted : (fuel : Nat) → List Char → Option (Word × List Char)
  | 0, _ => none
  | fuel + 1, text =>
    let further (piece : Piece) (rest : List Char) : Option (Word × List Char) :=
      (doubleQuoted fuel rest).map fun (word, rest) => (piece :: word, rest)
    match text with
    | [] => none
    | '"' :: rest => some ([], rest)
    | '\\' :: '\n' :: rest => doubleQuoted fuel rest
    | '\\' :: c :: rest =>
      if ['$', '"', '\\', '\x60'].contains c then further (character c true) rest
      else further ⟨.text (String.ofList ['\\', c]), true⟩ rest
    | '$' :: rest => do
      let (source, rest) ← expansion rest
      further ⟨source, true⟩ rest
    | c :: rest => further (character c true) rest

/-- The pieces of a word, and what follows it. -/
def pieces : (fuel : Nat) → List Char → Option (Word × List Char)
  | 0, _ => none
  | fuel + 1, text =>
    let further (word : Word) (rest : List Char) : Option (Word × List Char) :=
      (pieces fuel rest).map fun (more, rest) => (word ++ more, rest)
    match text with
    | [] => some ([], [])
    | '\\' :: '\n' :: rest => pieces fuel rest
    | '\\' :: c :: rest => further [character c true] rest
    | '\'' :: rest =>
      match rest.dropWhile (· ≠ '\'') with
      | [] => none
      | _ :: after => further [⟨.text (String.ofList (rest.takeWhile (· ≠ '\''))), true⟩] after
    | '"' :: rest => do
      let (word, rest) ← doubleQuoted fuel rest
      further (if word.isEmpty then [⟨.text "", true⟩] else word) rest
    | '$' :: rest => do
      let (source, rest) ← expansion rest
      further [⟨source, false⟩] rest
    | c :: rest =>
      if endsWord c then some ([], text) else further [character c false] rest

/-- Joins neighbouring pieces of text that are quoted alike. -/
def joined (word : Word) : Word :=
  word.foldr (fun piece more =>
    match piece, more with
    | ⟨.text first, quoted⟩, ⟨.text second, alike⟩ :: more =>
      if quoted = alike then ⟨.text (first ++ second), quoted⟩ :: more
      else ⟨.text first, quoted⟩ :: ⟨.text second, alike⟩ :: more
    | piece, more => piece :: more) []

/-! ### Scanning -/

/-- The operators, longer ones before their beginnings. -/
def operators : List String :=
  ["&&", "||", ";;", "\n", ";", "&", "|", "(", ")"]

/-- The arrows, longer ones before their beginnings. -/
def arrows : List (String × Arrow) :=
  [(">>", .extend), (">&", .same), (">", .fresh), ("<", .input)]

/-- The arrow at the front, with the digits before it. -/
def arrow? (text : List Char) : Option (Token × List Char) := do
  let digits := text.takeWhile Char.isDigit
  let rest := text.dropWhile Char.isDigit
  let (mark, arrow) ← arrows.find? fun (mark, _) => mark.toList.isPrefixOf rest
  let descriptor := if digits.isEmpty then none else some (Nat.ofDigitChars 10 digits 0)
  some (.arrow arrow descriptor, rest.drop mark.length)

/-- The operator at the front. -/
def operator? (text : List Char) : Option (Token × List Char) := do
  let mark ← operators.find? fun mark => mark.toList.isPrefixOf text
  some (.operator mark, text.drop mark.length)

/-- The word at the front. -/
def word? (text : List Char) : Option (Token × List Char) := do
  let (word, rest) ← pieces (text.length + 1) text
  if word.isEmpty then none else some (.word (joined word), rest)

/-- The tokens of a text that begins on the given line, reading at most `fuel` of them. The failure
is the line at which something stays open. -/
def tokensFrom : (fuel line : Nat) → List Char → Except Nat (List Placed)
  | 0, line, _ => .error line
  | fuel + 1, line, text =>
    match text with
    | [] => .ok []
    | ' ' :: rest | '\t' :: rest => tokensFrom fuel line rest
    | '\\' :: '\n' :: rest => tokensFrom fuel (line + 1) rest
    | '#' :: rest => tokensFrom fuel line (rest.dropWhile (· ≠ '\n'))
    | text =>
      match arrow? text <|> operator? text <|> word? text with
      | none => .error line
      | some (token, rest) => do
        let taken := text.take (text.length - rest.length)
        let more ← tokensFrom fuel (line + taken.count '\n') rest
        .ok (⟨token, line⟩ :: more)

/-- The tokens of a script. -/
def tokens (text : String) : Except Nat (List Placed) :=
  tokensFrom (text.length + 1) 1 text.toList

end Scan

end Transcode.Shell
