/-
**Records in JSON.** A record is an object with the named fields, each exactly once and in any
order, or an array of their values in the order of the names. Numbers have 64 bits unless a smaller
bound is given.
-/
import Transcode.Json.Basic
import Transcode.Text.Number

namespace Transcode.Json

/-- The value of a field that is given exactly once. -/
def fieldOnce? (fields : List (String × Json)) (name : String) : Option Json :=
  match fields.filter fun field => field.1 = name with
  | [(_, value)] => some value
  | _ => none

/-- The values of the named fields. Other fields are ignored. -/
def record? (names : List String) : Json → Option (List Json)
  | object fields => names.mapM (fieldOnce? fields)
  | array items => if items.length = names.length then some items else none
  | _ => none

/-- The values of the named fields. Other fields are refused. -/
def closedRecord? (names : List String) (value : Json) : Option (List Json) :=
  match value with
  | object fields =>
    if fields.all fun field => names.contains field.1 then record? names value else none
  | _ => record? names value

/-- A natural number up to a bound. -/
def boundedNat? (bound : Nat) (value : Json) : Option Nat := do
  let number ← value.nat?
  if number ≤ bound then some number else none

/-- A natural number of 64 bits. -/
def word? (value : Json) : Option Nat :=
  value.boundedNat? Number.maxWord

/-- A name on its own, as a string or as the only field of an object, without a value. -/
def identifier? : Json → Option String
  | string name => some name
  | object [(name, null)] => some name
  | _ => none

end Transcode.Json
