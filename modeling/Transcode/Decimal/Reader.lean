/-
**Reading floating-point numbers.** `Decimal.nearest` is the number nearest to a decimal one;
`Decimal.read` accepts digits with at most one point among or around them, an exponent, a sign, and
the words for infinity and for no number, in any letter case.
-/
import Transcode.Text.Number

namespace Transcode

/-- Why a text is not a floating-point number. -/
inductive FloatError where
  | empty
  | invalid
  deriving DecidableEq, Repr

/-- The wording of a float error. -/
def FloatError.message : FloatError → String
  | .empty => "cannot parse float from empty string"
  | .invalid => "invalid float literal"

namespace Decimal

/-- The number nearest to `mantissa · 10 ^ exponent`. Far outside the range of the format it is
infinite or zero, whatever the digits. -/
def nearest (mantissa : Nat) (exponent : Int) : Float :=
  let size : Int := (Number.digits mantissa).length + exponent
  if mantissa = 0 ∨ size < -400 then 0.0
  else if 400 < size then 1.0 / 0.0
  else Float.ofScientific mantissa (exponent < 0) exponent.natAbs

/-- A number without its sign. -/
structure Parts where
  whole : List Char
  fraction : List Char
  exponent : Int

/-- The exponent at the end of a number, or nothing. -/
def exponent? : List Char → Option Int
  | [] => some 0
  | letter :: rest =>
    if letter = 'e' ∨ letter = 'E' then
      let (negative, digits) :=
        match rest with
        | '-' :: digits => (true, digits)
        | '+' :: digits => (false, digits)
        | digits => (false, digits)
      (Number.ofDigits? digits).map fun (size : Nat) =>
        if negative then -(size : Int) else (size : Int)
    else none

/-- The parts of a number without a sign. There must be a digit before the exponent. -/
def parts? (text : List Char) : Option Parts := do
  let whole := text.takeWhile Char.isDigit
  let (fraction, rest) :=
    match text.dropWhile Char.isDigit with
    | '.' :: rest => (rest.takeWhile Char.isDigit, rest.dropWhile Char.isDigit)
    | rest => ([], rest)
  if whole = [] ∧ fraction = [] then none
  else
    let exponent ← exponent? rest
    some ⟨whole, fraction, exponent⟩

/-- A number without a sign. -/
def unsigned? (text : List Char) : Option Float :=
  match parts? text with
  | some parts =>
    some (nearest (Nat.ofDigitChars 10 (parts.whole ++ parts.fraction) 0)
      (parts.exponent - parts.fraction.length))
  | none =>
    match String.ofList (text.map Char.toLower) with
    | "inf" | "infinity" => some (1.0 / 0.0)
    | "nan" => some (0.0 / 0.0)
    | _ => none

/-- A number. -/
def read (text : String) : Except FloatError Float :=
  let value? :=
    match text.toList with
    | '-' :: rest => (unsigned? rest).map fun value => -value
    | '+' :: rest => unsigned? rest
    | rest => unsigned? rest
  match value? with
  | some value => .ok value
  | none => .error (if text.isEmpty then .empty else .invalid)

end Decimal

end Transcode
