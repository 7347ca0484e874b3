/-
**JSON values.** Numbers keep how they were written, so that whole numbers of any size stay exact;
the fields of an object keep their order and their repetitions.
-/
import Transcode.Decimal.Reader

namespace Transcode

/-- A number as written: `mantissa · 10 ^ exponent`, possibly negative. -/
structure JsonNumber where
  negative : Bool
  mantissa : Nat
  exponent : Int
  /-- Whether it was written without fraction and exponent. -/
  whole : Bool
  deriving DecidableEq, Repr

namespace JsonNumber

/-- A natural number. -/
def ofNat (n : Nat) : JsonNumber :=
  ⟨false, n, 0, true⟩

/-- The natural number that was written, if it was one. -/
def nat? (number : JsonNumber) : Option Nat :=
  if number.whole && !number.negative then some number.mantissa else none

/-- The nearest binary floating-point number. -/
def toFloat (number : JsonNumber) : Float :=
  let magnitude := Decimal.nearest number.mantissa number.exponent
  if number.negative then -magnitude else magnitude

end JsonNumber

/-- A JSON value. -/
inductive Json where
  | null
  | bool (value : Bool)
  | number (value : JsonNumber)
  | string (value : String)
  | array (items : List Json)
  | object (fields : List (String × Json))
  deriving Repr

namespace Json

/-- A natural number. -/
def nat (n : Nat) : Json :=
  number (.ofNat n)

/-- The value, or `null`. -/
def ofOption {α : Type} (encode : α → Json) : Option α → Json
  | some value => encode value
  | none => null

/-- The first field of that name. -/
def field? (name : String) : Json → Option Json
  | object fields => fields.lookup name
  | _ => none

/-- The text of a string. -/
def string? : Json → Option String
  | string text => some text
  | _ => none

/-- The natural number. -/
def nat? : Json → Option Nat
  | number value => value.nat?
  | _ => none

/-- The truth value. -/
def bool? : Json → Option Bool
  | bool value => some value
  | _ => none

/-- The items of an array. -/
def array? : Json → Option (List Json)
  | array items => some items
  | _ => none

/-- The fields of an object. -/
def object? : Json → Option (List (String × Json))
  | object fields => some fields
  | _ => none

end Json

end Transcode
