/-
**Hexadecimal digits**, and the digest by which byte strings are told apart at a glance.
-/
import Transcode.Bytes

namespace Transcode

namespace Hex

/-- The value of a hexadecimal digit. -/
def digit? (c : Char) : Option Nat :=
  if c.isDigit then some (c.toNat - '0'.toNat)
  else if 'a' ≤ c ∧ c ≤ 'f' then some (c.toNat - 'a'.toNat + 10)
  else if 'A' ≤ c ∧ c ≤ 'F' then some (c.toNat - 'A'.toNat + 10)
  else none

/-- The value of hexadecimal digits, the most significant first. -/
def value? (digits : List Char) : Option Nat :=
  digits.foldlM (fun value c => (digit? c).map (16 * value + ·)) 0

/-- The lowercase digits of a number, filled with zeros up to the width. -/
def padded (width n : Nat) : List Char :=
  (Nat.toDigits 16 n).leftpad width '0'

/-- Two lowercase digits for each octet. -/
def ofBytes (bytes : List UInt8) : String :=
  String.ofList (bytes.flatMap fun octet => padded 2 octet.toNat)

/-- The octets that pairs of digits stand for. -/
def toBytes? : List Char → Option (List UInt8)
  | [] => some []
  | [_] => none
  | high :: low :: rest => do
    let octet ← value? [high, low]
    let octets ← toBytes? rest
    some (.ofNat octet :: octets)

end Hex

/-- The length and the hash of a byte string. -/
def Bytes.digest (bytes : Bytes) : String :=
  toString bytes.length ++ ":" ++ String.ofList (Hex.padded 8 bytes.fnv1a.toNat)

end Transcode
