/-
**Reading UTF-8.** `Utf8.units` takes bytes apart into characters and marks for bytes that are none:
each mark stands for as many bytes as could have begun a character.

* `Utf8.decode?` reads bytes that are all characters.
* `Utf8.lossy` puts the replacement character in the place of each mark.
-/
import Transcode.Bytes

namespace Transcode.Utf8

/-- The six low bits of a byte that continues a character. -/
def continuation? (octet : UInt8) : Option Nat :=
  if 0x80 ≤ octet ∧ octet < 0xc0 then some (octet.toNat - 0x80) else none

/-- The bits that the first byte contributes, and the range of the second byte, for a character of
the given length. -/
def second? (first second : UInt8) : Option Nat :=
  let allowed :=
    if first = 0xe0 then 0xa0 ≤ second
    else if first = 0xed then second < 0xa0
    else if first = 0xf0 then 0x90 ≤ second
    else if first = 0xf4 then second < 0x90
    else true
  if allowed then continuation? second else none

/-- The number of bytes of a character with this first byte, if there is one. -/
def width? (first : UInt8) : Option Nat :=
  if first < 0x80 then some 1
  else if first < 0xc2 then none
  else if first < 0xe0 then some 2
  else if first < 0xf0 then some 3
  else if first < 0xf5 then some 4
  else none

/-- Reads further bytes of a character. The value and how many of them were read; no value when a
byte does not belong. -/
def continue? (value : Nat) : (count : Nat) → Bytes → Option Nat × Nat
  | 0, _ => (some value, 0)
  | _ + 1, [] => (none, 0)
  | count + 1, octet :: rest =>
    match continuation? octet with
    | none => (none, 0)
    | some bits =>
      let (result, read) := continue? (64 * value + bits) count rest
      (result, read + 1)

/-- The character at the front, and the number of bytes read after the first. -/
def front (first : UInt8) (rest : Bytes) : Option Char × Nat :=
  match width? first with
  | none => (none, 0)
  | some 1 => (some (Char.ofNat first.toNat), 0)
  | some width =>
    match rest with
    | [] => (none, 0)
    | octet :: more =>
      match second? first octet with
      | none => (none, 0)
      | some bits =>
        let start := first.toNat % Nat.pow 2 (7 - width)
        let (value, read) := continue? (64 * start + bits) (width - 2) more
        (value.map Char.ofNat, read + 1)

/-- Characters, and a mark for each sequence of bytes that is none. -/
def units : Bytes → List (Option Char)
  | [] => []
  | first :: rest =>
    let (unit, read) := front first rest
    unit :: units (rest.drop read)
  termination_by bytes => bytes.length
  decreasing_by simp only [List.length_drop, List.length_cons]; omega

/-- The text that the bytes encode, if they do. -/
def decode? (bytes : Bytes) : Option String :=
  ((units bytes).mapM id).map String.ofList

/-- The text, with the replacement character for what is no text. -/
def lossy (bytes : Bytes) : String :=
  String.ofList ((units bytes).map fun unit => unit.getD '\ufffd')

end Transcode.Utf8
