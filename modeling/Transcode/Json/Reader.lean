/-
**Reading JSON.** `Json.read` accepts one value with blanks around it and nothing else. A
string holds no raw control character, and its escapes must stand for characters.
-/
import Transcode.Json.Basic
import Transcode.Text.Hex

namespace Transcode.Json

/-- The text after its leading blanks. -/
def skipBlanks (text : List Char) : List Char :=
  text.dropWhile fun c => c = ' ' || c = '\n' || c = '\t' || c = '\r'

/-! ### Strings -/

/-- The character of a one-letter escape. -/
def simpleEscape? : Char → Option Char
  | '"' => some '"'
  | '\\' => some '\\'
  | '/' => some '/'
  | 'b' => some '\x08'
  | 'f' => some '\x0c'
  | 'n' => some '\n'
  | 'r' => some '\r'
  | 't' => some '\t'
  | _ => none

/-- The character of a code unit that is no half of a pair. -/
def unitChar? (unit : Nat) : Option Char :=
  if 0xd800 ≤ unit ∧ unit < 0xe000 then none else some (Char.ofNat unit)

/-- The character of a pair of code units. -/
def pairChar? (high low : Nat) : Option Char :=
  if 0xd800 ≤ high ∧ high < 0xdc00 ∧ 0xdc00 ≤ low ∧ low < 0xe000 then
    some (Char.ofNat (0x10000 + (high - 0xd800) * 0x400 + (low - 0xdc00)))
  else none

/-- The rest of a string after its opening quote, and what follows the closing one. -/
def stringBody : List Char → Option (List Char × List Char)
  | [] => none
  | '"' :: rest => some ([], rest)
  | '\\' :: 'u' :: a :: b :: c :: d :: rest => do
    let unit ← Hex.value? [a, b, c, d]
    match unitChar? unit with
    | some char => do
      let (body, rest) ← stringBody rest
      some (char :: body, rest)
    | none =>
      match rest with
      | '\\' :: 'u' :: a :: b :: c :: d :: rest => do
        let low ← Hex.value? [a, b, c, d]
        let char ← pairChar? unit low
        let (body, rest) ← stringBody rest
        some (char :: body, rest)
      | _ => none
  | '\\' :: c :: rest => do
    let char ← simpleEscape? c
    let (body, rest) ← stringBody rest
    some (char :: body, rest)
  | c :: rest => do
    if c.toNat < 0x20 || c = '\\' then none
    else
      let (body, rest) ← stringBody rest
      some (c :: body, rest)

/-! ### Numbers -/

/-- The digits at the front, of which there is at least one. -/
def digits? (text : List Char) : Option (List Char × List Char) :=
  match text.takeWhile Char.isDigit with
  | [] => none
  | digits => some (digits, text.dropWhile Char.isDigit)

/-- The whole part: a single zero, or digits that do not begin with one. -/
def wholePart? : List Char → Option (List Char × List Char)
  | '0' :: rest =>
    match rest with
    | c :: _ => if c.isDigit then none else some (['0'], rest)
    | [] => some (['0'], rest)
  | text => digits? text

/-- The digits of a fraction, if there is one. -/
def fraction? : List Char → Option (List Char × List Char)
  | '.' :: rest => digits? rest
  | text => some ([], text)

/-- The exponent, if there is one. -/
def exponent? : List Char → Option (Option Int × List Char)
  | 'e' :: rest | 'E' :: rest =>
    let (negative, rest) :=
      match rest with
      | '+' :: rest => (false, rest)
      | '-' :: rest => (true, rest)
      | rest => (false, rest)
    match digits? rest with
    | some (digits, rest) =>
      let value : Int := Nat.ofDigitChars 10 digits 0
      some (some (if negative then -value else value), rest)
    | none => none
  | text => some (none, text)

/-- A number at the front. -/
def number? (text : List Char) : Option (JsonNumber × List Char) := do
  let (negative, text) :=
    match text with
    | '-' :: rest => (true, rest)
    | text => (false, text)
  let (whole, text) ← wholePart? text
  let (fraction, text) ← fraction? text
  let (exponent, text) ← exponent? text
  some ({
    negative
    mantissa := Nat.ofDigitChars 10 (whole ++ fraction) 0
    exponent := exponent.getD 0 - fraction.length
    whole := fraction.isEmpty && exponent.isNone }, text)

/-! ### Values -/

/-- The word at the front. -/
def literal? (word : String) (value : Json) (text : List Char) : Option (Json × List Char) :=
  (word.toList.isPrefixOf? text).map fun rest => (value, rest)

mutual

/-- A value at the front, after blanks. -/
def value? : (fuel : Nat) → List Char → Option (Json × List Char)
  | 0, _ => none
  | fuel + 1, text =>
    match skipBlanks text with
    | 'n' :: rest => literal? "ull" .null rest
    | 't' :: rest => literal? "rue" (.bool true) rest
    | 'f' :: rest => literal? "alse" (.bool false) rest
    | '"' :: rest => (stringBody rest).map fun (body, rest) => (.string (String.ofList body), rest)
    | '[' :: rest =>
      match skipBlanks rest with
      | ']' :: rest => some (.array [], rest)
      | rest => (items? fuel rest).map fun (items, rest) => (.array items, rest)
    | '{' :: rest =>
      match skipBlanks rest with
      | '}' :: rest => some (.object [], rest)
      | rest => (fields? fuel rest).map fun (fields, rest) => (.object fields, rest)
    | text => (number? text).map fun (read, rest) => (.number read, rest)

/-- The items of an array up to its closing bracket; there is at least one. -/
def items? : (fuel : Nat) → List Char → Option (List Json × List Char)
  | 0, _ => none
  | fuel + 1, text => do
    let (item, rest) ← value? fuel text
    match skipBlanks rest with
    | ',' :: rest => do
      let (items, rest) ← items? fuel rest
      some (item :: items, rest)
    | ']' :: rest => some ([item], rest)
    | _ => none

/-- The fields of an object up to its closing brace; there is at least one. -/
def fields? : (fuel : Nat) → List Char → Option (List (String × Json) × List Char)
  | 0, _ => none
  | fuel + 1, text => do
    let '"' :: rest := skipBlanks text | none
    let (name, rest) ← stringBody rest
    let ':' :: rest := skipBlanks rest | none
    let (value, rest) ← value? fuel rest
    match skipBlanks rest with
    | ',' :: rest => do
      let (fields, rest) ← fields? fuel rest
      some ((String.ofList name, value) :: fields, rest)
    | '}' :: rest => some ([(String.ofList name, value)], rest)
    | _ => none

end

/-- Reads a text that is one value. Every step of the reader takes a character or goes one level
down to a reader that does, so twice the length is fuel enough. -/
def read (text : String) : Option Json := do
  let chars := text.toList
  let (value, rest) ← value? (2 * chars.length + 2) chars
  if (skipBlanks rest).isEmpty then some value else none

end Transcode.Json
