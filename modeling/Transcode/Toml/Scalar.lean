/-
**Scalars of TOML documents**: strings in their four forms, whole numbers in four bases,
floating-point numbers, and dates and times.
-/
import Transcode.Decimal.Reader
import Transcode.Text.Hex
import Transcode.Time.Calendar
import Transcode.Toml.Basic

namespace Transcode.Toml

/-! ### Characters -/

/-- Whether the character is a blank within a line. -/
def isBlank (c : Char) : Bool :=
  c = ' ' || c = '\t'

/-- Whether the character may stand in a comment. -/
def isPrintable (c : Char) : Bool :=
  c = '\t' || (0x20 ≤ c.toNat && c.toNat ≠ 0x7f)

/-- The text after a line end, if it begins with one. -/
def newline? : List Char → Option (List Char)
  | '\n' :: rest => some rest
  | '\r' :: '\n' :: rest => some rest
  | _ => none

/-! ### Strings -/

/-- The character with that code point. -/
def scalar? (digits : List Char) : Option Char := do
  let value ← Hex.value? digits
  if h : value.isValidChar then some (Char.ofNatAux value h) else none

/-- The character of an escape, and what follows. -/
def escape? : List Char → Option (Char × List Char)
  | 'b' :: rest => some ('\x08', rest)
  | 't' :: rest => some ('\t', rest)
  | 'n' :: rest => some ('\n', rest)
  | 'f' :: rest => some ('\x0c', rest)
  | 'r' :: rest => some ('\r', rest)
  | '"' :: rest => some ('"', rest)
  | '\\' :: rest => some ('\\', rest)
  | 'u' :: a :: b :: c :: d :: rest => (scalar? [a, b, c, d]).map fun char => (char, rest)
  | 'U' :: a :: b :: c :: d :: e :: f :: g :: h :: rest =>
    (scalar? [a, b, c, d, e, f, g, h]).map fun char => (char, rest)
  | _ => none

/-- The text after an escaped line end and the blanks and line ends that follow it. -/
def lineContinuation? (text : List Char) : Option (List Char) :=
  (newline? (text.dropWhile isBlank)).map fun rest =>
    rest.dropWhile fun c => isBlank c || c = '\n' || c = '\r'

/-- The rest of a string in single quotation marks or apostrophes, up to the mark. -/
def lineString? (mark : Char) (escapes : Bool) :
    (fuel : Nat) → List Char → Option (List Char × List Char)
  | 0, _ => none
  | _, [] => none
  | fuel + 1, c :: rest =>
    if c = mark then some ([], rest)
    else if escapes && c = '\\' then do
      let (char, rest) ← escape? rest
      let (body, rest) ← lineString? mark escapes fuel rest
      some (char :: body, rest)
    else if isPrintable c then do
      let (body, rest) ← lineString? mark escapes fuel rest
      some (c :: body, rest)
    else none

/-- The end of a string in threefold marks: up to two more marks belong to the string. -/
def closing? (mark : Char) (text : List Char) : Option (List Char × List Char) :=
  let marks := (text.take 5).takeWhile (· = mark)
  if marks.length < 3 then none else some (marks.drop 3, text.drop marks.length)

/-- The rest of a string in threefold marks. -/
def blockString? (mark : Char) (escapes : Bool) :
    (fuel : Nat) → List Char → Option (List Char × List Char)
  | 0, _ => none
  | _, [] => none
  | fuel + 1, c :: rest =>
    match closing? mark (c :: rest) with
    | some (marks, rest) => some (marks, rest)
    | none =>
      if escapes && c = '\\' then
        match lineContinuation? rest with
        | some rest => blockString? mark escapes fuel rest
        | none => do
          let (char, rest) ← escape? rest
          let (body, rest) ← blockString? mark escapes fuel rest
          some (char :: body, rest)
      else
        match newline? (c :: rest) with
        | some rest => do
          let (body, rest) ← blockString? mark escapes fuel rest
          some ('\n' :: body, rest)
        | none =>
          if isPrintable c then do
            let (body, rest) ← blockString? mark escapes fuel rest
            some (c :: body, rest)
          else none

/-- A string in single marks. -/
def quoted? (text : List Char) : Option (String × List Char) :=
  match text with
  | [] => none
  | mark :: rest =>
    (lineString? mark (mark = '"') (rest.length + 1) rest).map fun (body, rest) =>
      (String.ofList body, rest)

/-- A string in single or threefold marks. A line end right after the threefold mark does not
belong to it. -/
def string? (text : List Char) : Option (String × List Char) :=
  match text with
  | a :: b :: c :: rest =>
    if a = b ∧ b = c then
      let rest := (newline? rest).getD rest
      (blockString? a (a = '"') (rest.length + 1) rest).map fun (body, rest) =>
        (String.ofList body, rest)
    else quoted? text
  | _ => quoted? text

/-! ### Numbers -/

/-- Digits, with single underscores between them; the digits alone. -/
def groupedDigits? (isDigit : Char → Bool) : List Char → Option (List Char)
  | [] => none
  | [c] => if isDigit c then some [c] else none
  | c :: '_' :: rest =>
    if isDigit c then (groupedDigits? isDigit rest).map (c :: ·) else none
  | c :: rest => if isDigit c then (groupedDigits? isDigit rest).map (c :: ·) else none

/-- The sign in front. -/
def splitSign : List Char → Bool × List Char
  | '-' :: rest => (true, rest)
  | '+' :: rest => (false, rest)
  | text => (false, text)

/-- Whether the digits begin with a zero that does not count. -/
def hasLeadingZero : List Char → Bool
  | '0' :: _ :: _ => true
  | _ => false

/-- A whole number of 64 bits with its sign. -/
def bounded? (value : Int) : Option Int :=
  if Int64.minValue.toInt ≤ value ∧ value ≤ Int64.maxValue.toInt then some value else none

/-- Digits in one of the other bases. -/
def radix? (base : Nat) (digits : List Char) : Option Int := do
  let digits ← groupedDigits? (fun c => (Hex.digit? c).any (· < base)) digits
  let value := digits.foldl (fun value c => base * value + (Hex.digit? c).getD 0) 0
  bounded? value

/-- A whole number. -/
def integer? (token : List Char) : Option Int :=
  match token with
  | '0' :: 'x' :: digits => radix? 16 digits
  | '0' :: 'o' :: digits => radix? 8 digits
  | '0' :: 'b' :: digits => radix? 2 digits
  | _ => do
    let (negative, digits) := splitSign token
    let digits ← groupedDigits? Char.isDigit digits
    if hasLeadingZero digits then none
    else
      let value : Int := Nat.ofDigitChars 10 digits 0
      bounded? (if negative then -value else value)

/-- The exponent after its letter. -/
def exponent? (text : List Char) : Option Int := do
  let (negative, digits) := splitSign text
  let digits ← groupedDigits? Char.isDigit digits
  let value : Int := Nat.ofDigitChars 10 digits 0
  some (if negative then -value else value)

/-- Text up to the first character with a property, and what follows that character, if there is
one. -/
def cutAt (stop : Char → Bool) (text : List Char) : List Char × Option (List Char) :=
  match text.dropWhile fun c => !stop c with
  | [] => (text, none)
  | _ :: rest => (text.takeWhile fun c => !stop c, some rest)

/-- A floating-point number without its sign, which has a fraction or an exponent. -/
def magnitude? (text : List Char) : Option Float := do
  let (mantissa, exponent) := cutAt (fun c => c = 'e' || c = 'E') text
  let (whole, fraction) := cutAt (· = '.') mantissa
  if fraction.isNone && exponent.isNone then none
  else
    let whole ← groupedDigits? Char.isDigit whole
    let fraction ← fraction.elim (some []) (groupedDigits? Char.isDigit)
    let exponent ← exponent.elim (some 0) exponent?
    if hasLeadingZero whole then none
    else
      some (Decimal.nearest (Nat.ofDigitChars 10 (whole ++ fraction) 0)
        (exponent - fraction.length))

/-- A floating-point number. One that is too large is refused, unless it is negative. -/
def float? (token : List Char) : Option Float :=
  let (negative, text) := splitSign token
  let signed (value : Float) : Float := if negative then -value else value
  match String.ofList text with
  | "inf" => some (signed (1.0 / 0.0))
  | "nan" => some (signed (0.0 / 0.0))
  | _ => do
    let value ← magnitude? text
    if value.isInf && !negative then none else some (signed value)

/-! ### Dates and times -/

/-- A number of exactly so many digits in a range, at the front. -/
def fixedField? (width first last : Nat) (text : List Char) : Option (Nat × List Char) := do
  let digits := text.take width
  if digits.length = width then
    let value ← Number.ofDigits? digits
    if first ≤ value ∧ value ≤ last then some (value, text.drop width) else none
  else none

/-- The text after the expected character. -/
def skip? (expected : Char) : List Char → Option (List Char)
  | [] => none
  | c :: rest => if c = expected then some rest else none

/-- The text after a date. -/
def afterDate? (text : List Char) : Option (List Char) := do
  let (year, text) ← fixedField? 4 0 9999 text
  let (month, text) ← fixedField? 2 1 12 (← skip? '-' text)
  let (day, text) ← fixedField? 2 1 31 (← skip? '-' text)
  if day ≤ Date.daysInMonth year month then some text else none

/-- The text after a time of day. -/
def afterTime? (text : List Char) : Option (List Char) := do
  let (_, text) ← fixedField? 2 0 23 text
  let (_, text) ← fixedField? 2 0 59 (← skip? ':' text)
  let (_, text) ← fixedField? 2 0 60 (← skip? ':' text)
  match text with
  | '.' :: rest =>
    if (rest.takeWhile Char.isDigit).isEmpty then none else some (rest.dropWhile Char.isDigit)
  | _ => some text

/-- Whether the text is nothing or an offset. -/
def isOffset (text : List Char) : Bool :=
  match text with
  | [] | ['Z'] | ['z'] => true
  | sign :: rest =>
    (sign = '+' || sign = '-') &&
      ((do
        let (_, text) ← fixedField? 2 0 23 rest
        let (_, text) ← fixedField? 2 0 59 (← skip? ':' text)
        some text) == some [])

/-- Whether the text is a time of day, with or without an offset. -/
def isOffsetTime (text : List Char) : Bool :=
  (afterTime? text).any isOffset

/-- Whether the text is a date, a time of day, or both. -/
def isMoment (token : List Char) : Bool :=
  match afterDate? token with
  | some [] => true
  | some (mark :: time) => (mark = 'T' || mark = 't') && isOffsetTime time
  | none => afterTime? token == some []

end Transcode.Toml
