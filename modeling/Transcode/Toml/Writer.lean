/-
**Writing TOML.** A string is written in the plainest of its forms that needs no escapes
(`Toml.quote`), an array of more than one item with one item per line, and each section under its
header.
-/
import Transcode.Decimal.Shortest
import Transcode.Text.Hex
import Transcode.Toml.Basic

namespace Transcode.Toml

/-! ### Strings -/

/-- The greatest number of occurrences of a character in a row, after `run` of them. -/
def longestRun (c : Char) (run : Nat) : List Char → Nat
  | [] => run
  | first :: rest => if first = c then longestRun c (run + 1) rest else max run (longestRun c 0 rest)

/-- Whether the character can be written only as an escape. -/
def isControl (c : Char) : Bool :=
  (c.toNat < 0x20 && c ≠ '\t' && c ≠ '\n') || c.toNat = 0x7f

/-- The escape of a character that has a short one. -/
def shortEscape? : Char → Option Char
  | '\x08' => some 'b'
  | '\t' => some 't'
  | '\n' => some 'n'
  | '\x0c' => some 'f'
  | '\r' => some 'r'
  | '\\' => some '\\'
  | _ => none

/-- An escape of four uppercase digits. -/
def longEscape (c : Char) : List Char :=
  '\\' :: 'u' :: (Hex.padded 4 c.toNat).map Char.toUpper

/-- The characters of a string with escapes. Up to `quotes` quotation marks in a row stay as they
are, and so do line ends in a block. -/
def escapeFrom (block : Bool) (quotes run : Nat) : List Char → List Char
  | [] => []
  | c :: rest =>
    if c = '"' then
      if run < quotes then '"' :: escapeFrom block quotes (run + 1) rest
      else '\\' :: '"' :: escapeFrom block quotes 0 rest
    else if block && c = '\n' then '\n' :: escapeFrom block quotes 0 rest
    else
      match shortEscape? c with
      | some letter => '\\' :: letter :: escapeFrom block quotes 0 rest
      | none =>
        if isControl c then longEscape c ++ escapeFrom block quotes 0 rest
        else c :: escapeFrom block quotes 0 rest

/-- A string between marks. In threefold marks a string of more than one line begins on a line of
its own. -/
def enclose (mark : String) (lines : Bool) (body : List Char) : String :=
  mark ++ (if lines && mark.length = 3 then "\n" else "") ++ String.ofList body ++ mark

/-- A string. Quotation marks are preferred to apostrophes, and single marks to threefold ones, as
long as nothing has to be escaped. -/
def quote (text : String) : String :=
  let chars := text.toList
  let lines := chars.contains '\n'
  let control := chars.any isControl
  let escape := chars.contains '\\'
  let quotes := longestRun '"' 0 chars
  let apostrophes := longestRun '\'' 0 chars
  let plain := enclose "\"" lines (escapeFrom false 0 0 chars)
  let block := enclose "\"\"\"" lines (escapeFrom true 2 0 chars)
  if !control && !escape && quotes = 0 && !lines then plain
  else if !control && apostrophes = 0 && !lines then enclose "'" lines chars
  else if !control && !escape && quotes ≤ 2 then block
  else if !control && apostrophes ≤ 2 then enclose "'''" lines chars
  else if lines then block
  else plain

/-! ### Values and sections -/

/-- A floating-point number. A whole one keeps one decimal place, and no number has no sign. -/
def floatText (value : Float) : String :=
  let text := Decimal.text value
  if value.isNaN then "nan"
  else if text.toList.contains '.' || value.isInf then text
  else text ++ ".0"

/-- A list of strings. -/
def textsText : List String → String
  | [] => "[]"
  | [text] => "[" ++ quote text ++ "]"
  | texts => "[" ++ String.join (texts.map fun text => "\n    " ++ quote text ++ ",") ++ "\n]"

/-- A section: its header, and its keys with their values as they are written. -/
def sectionText (header : String) (entries : List (String × String)) : String :=
  "[" ++ header ++ "]\n" ++
    String.join (entries.map fun (key, value) => key ++ " = " ++ value ++ "\n")

/-- A document of sections. -/
def documentText (sections : List String) : String :=
  String.intercalate "\n" sections

end Transcode.Toml
