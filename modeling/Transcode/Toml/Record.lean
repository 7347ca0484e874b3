/-
**Records in TOML.** A record is a table with the named fields, or an array of their values in the
order of the names; fields may be missing, and what has no name is ignored. A choice is a string, or
a table whose key is the word and whose value is empty.
-/
import Transcode.Decimal.Reader
import Transcode.Text.Number
import Transcode.Toml.Basic

namespace Transcode.Toml

/-- The values of the named fields, as far as they are given. A date or time has none of them. -/
def record? (names : List String) : Toml → Option (List (Option Toml))
  | table _ entries => some (names.map fun name => entries.lookup name)
  | array items => some (positional items)
  | tables items => some (positional (items.reverse.map (table .header)))
  | moment => some (names.map fun _ => none)
  | _ => none
where
  /-- The items in the places of the names. -/
  positional (items : List Toml) : List (Option Toml) :=
    (List.range names.length).map fun place => items[place]?

/-- Whether the value is an empty container. -/
def isEmptyContainer : Toml → Bool
  | array [] | table _ [] => true
  | _ => false

/-- The word of a choice. A table with a header is asked for its first key only, one in braces must
have no other. -/
def word? : Toml → Option String
  | string text => some text
  | table form ((word, value) :: others) =>
    if isEmptyContainer value && (others.isEmpty || !form.isInline) then some word else none
  | _ => none

/-- The text of a string. -/
def text? : Toml → Option String
  | string text => some text
  | _ => none

/-- A natural number. -/
def count? : Toml → Option Nat
  | integer value => if 0 ≤ value then some value.toNat else none
  | _ => none

/-- A floating-point number, or the one nearest to a whole number. -/
def number? : Toml → Option Float
  | float value => some value
  | integer value =>
    let magnitude := Decimal.nearest value.natAbs 0
    some (if value < 0 then -magnitude else magnitude)
  | _ => none

/-- A list of strings. -/
def texts? : Toml → Option (List String)
  | array items => items.mapM text?
  | _ => none

/-- The value of a field: the fallback if it is not given, and nothing if it is given and cannot be
read. -/
def fieldOr {α : Type} (fallback : α) (read : Toml → Option α) : Option Toml → Option α
  | none => some fallback
  | some value => read value

end Transcode.Toml
