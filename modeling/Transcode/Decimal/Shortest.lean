/-
**The shortest decimal form of a binary floating-point number.**

* A finite number is `mantissa · 2 ^ exponent` (`Decimal.binary`); the reals that round to it form
  an interval (`Binary.Interval`), whose ends belong to it when the mantissa is even.
* `Binary.shortest` tries the decimal grids with 1, 2, … digits. The first grid with a point in the
  interval wins, of two points the nearer, of two equally near ones the greater.
* `Decimal.text` writes the digits in positional notation, without an exponent.
-/
import Transcode.Text.Number

namespace Transcode

/-- A positive number `mantissa · 2 ^ exponent`. -/
structure Binary where
  mantissa : Nat
  exponent : Int
  /-- Whether the next smaller number is only half as far away as the next greater one. -/
  opensBinade : Bool

namespace Binary

/-- A positive fraction. -/
structure Ratio where
  numerator : Nat
  denominator : Nat

/-- A numerator and a denominator scaled by a power of the base. -/
def scale (base : Nat) (exponent : Int) (ratio : Ratio) : Ratio :=
  if 0 ≤ exponent then { ratio with numerator := ratio.numerator * base.pow exponent.toNat }
  else { ratio with denominator := ratio.denominator * base.pow (-exponent).toNat }

/-- The reals that round to a number, with all numerators over one denominator. -/
structure Interval where
  lower : Nat
  centre : Nat
  upper : Nat
  denominator : Nat
  /-- Whether the ends round to the number too. -/
  closed : Bool

/-- The interval in units of `10 ^ place`. -/
def interval (binary : Binary) (place : Int) : Interval :=
  let unit := scale 10 (-place) (scale 2 (binary.exponent - 2) ⟨1, 1⟩)
  { lower := (4 * binary.mantissa - (if binary.opensBinade then 1 else 2)) * unit.numerator
    centre := 4 * binary.mantissa * unit.numerator
    upper := (4 * binary.mantissa + 2) * unit.numerator
    denominator := unit.denominator
    closed := binary.mantissa % 2 = 0 }

/-- Whether the whole number lies in the interval. -/
def Interval.contains (interval : Interval) (point : Nat) : Bool :=
  let scaled := point * interval.denominator
  if interval.closed then interval.lower ≤ scaled && scaled ≤ interval.upper
  else interval.lower < scaled && scaled < interval.upper

/-- The whole number in the interval that is nearest to the centre, the greater of two. -/
def Interval.nearest? (interval : Interval) : Option Nat :=
  let below := interval.centre / interval.denominator
  let above := below + 1
  match interval.contains below, interval.contains above with
  | false, false => none
  | true, false => some below
  | false, true => some above
  | true, true =>
    let middle := (below + above) * interval.denominator
    some (if 2 * interval.centre < middle then below else above)

/-- The least `power` with the number below `10 ^ power`, from a first guess that is at most as
great. -/
def magnitude (binary : Binary) (guess : Int) : (fuel : Nat) → Int
  | 0 => guess
  | fuel + 1 =>
    let value := scale 10 (-guess) (scale 2 binary.exponent ⟨binary.mantissa, 1⟩)
    if value.numerator < value.denominator then guess
    else magnitude binary (guess + 1) fuel

/-- The first of the grids, each finer by one digit than the one before, that has a point in the
interval: the point and the place of its last digit. -/
def search (binary : Binary) (place : Int) : (fuel : Nat) → Nat × Int
  | 0 => ((binary.interval place).centre / (binary.interval place).denominator, place)
  | fuel + 1 =>
    match (binary.interval place).nearest? with
    | some digits => (digits, place)
    | none => search binary (place - 1) fuel

/-- Whole digits and the power of ten they count, the shortest that read back. The first grid is so
coarse that only its unit can lie in the interval, and seventeen digits always suffice. -/
def shortest (binary : Binary) : Nat × Int :=
  let bits : Int := Nat.log2 binary.mantissa + binary.exponent
  let guess := bits * 30103 / 100000 - 1
  search binary (binary.magnitude guess 8) 18

end Binary

namespace Decimal

/-- The mantissa field of a number. -/
def fraction (value : Float) : Nat :=
  value.toBits.toNat % Nat.pow 2 52

/-- The exponent field of a number. -/
def field (value : Float) : Nat :=
  value.toBits.toNat / Nat.pow 2 52 % Nat.pow 2 11

/-- Whether the number has a minus sign; zero may have one. -/
def isNegative (value : Float) : Bool :=
  value.toBits.toNat / Nat.pow 2 63 = 1

/-- The magnitude of a finite number other than zero. -/
def binary (value : Float) : Binary :=
  if field value = 0 then ⟨fraction value, -1074, false⟩
  else
    ⟨fraction value + Nat.pow 2 52, (field value : Int) - 1075,
      fraction value = 0 ∧ 1 < field value⟩

/-- `digits · 10 ^ place` without an exponent. -/
def positional (digits : List Char) (place : Int) : List Char :=
  if 0 ≤ place then digits ++ List.replicate place.toNat '0'
  else
    let places := (-place).toNat
    let whole := digits.length - places
    if whole = 0 then '0' :: '.' :: digits.leftpad places '0'
    else digits.take whole ++ '.' :: digits.drop whole

/-- The magnitude of a number. -/
def magnitudeText (value : Float) : List Char :=
  if field value = 2047 then
    if fraction value = 0 then ['i', 'n', 'f'] else ['N', 'a', 'N']
  else if field value = 0 ∧ fraction value = 0 then ['0']
  else
    let (digits, place) := (binary value).shortest
    positional (Number.digits digits) place

/-- The shortest text that reads back as the number. -/
def text (value : Float) : String :=
  let unsigned := magnitudeText value
  String.ofList (if isNegative value && !value.isNaN then '-' :: unsigned else unsigned)

end Decimal

end Transcode
