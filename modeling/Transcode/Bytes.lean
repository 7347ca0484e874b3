/-
**Byte strings and fixed-width words.**

* `Bytes.le32` / `Bytes.le64` write a word with its least significant byte first;
  `Bytes.takeWord32?` / `Bytes.takeWord64?` read it back and leave the rest.
* `Bytes.splitExact?` cuts a byte string after a given number of bytes, or refuses when there are
  too few: the only way the wire formats move forward, so no reader runs past the end.
* `Bytes.fnv1a` is the 32-bit hash by which decoder states are recognised.
-/

namespace Transcode

/-- A finite string of octets. -/
abbrev Bytes := List UInt8

namespace Bytes

/-- The octets of the text under UTF-8. -/
def ofString (text : String) : Bytes :=
  text.toUTF8.toList

/-! ### Words, least significant byte first -/

/-- The four octets of a 32-bit word, least significant first. -/
def le32 (word : UInt32) : Bytes :=
  [word.toUInt8, (word >>> 8).toUInt8, (word >>> 16).toUInt8, (word >>> 24).toUInt8]

/-- The eight octets of a 64-bit word, least significant first. -/
def le64 (word : UInt64) : Bytes :=
  [word.toUInt8, (word >>> 8).toUInt8, (word >>> 16).toUInt8, (word >>> 24).toUInt8,
    (word >>> 32).toUInt8, (word >>> 40).toUInt8, (word >>> 48).toUInt8, (word >>> 56).toUInt8]

/-- The natural number that octets stand for, least significant first. -/
def value : Bytes → Nat
  | [] => 0
  | octet :: rest => octet.toNat + 256 * value rest

/-- Reads a 32-bit word from the front. -/
def takeWord32? : Bytes → Option (UInt32 × Bytes)
  | a :: b :: c :: d :: rest => some (UInt32.ofNat (value [a, b, c, d]), rest)
  | _ => none

/-- Reads a 64-bit word from the front. -/
def takeWord64? : Bytes → Option (UInt64 × Bytes)
  | a :: b :: c :: d :: e :: f :: g :: h :: rest =>
    some (UInt64.ofNat (value [a, b, c, d, e, f, g, h]), rest)
  | _ => none

/-! ### Cutting -/

/-- The first `count` octets and what follows them, if there are that many. -/
def splitExact? : Nat → Bytes → Option (Bytes × Bytes)
  | 0, rest => some ([], rest)
  | _ + 1, [] => none
  | count + 1, octet :: rest =>
    (splitExact? count rest).map fun (taken, left) => (octet :: taken, left)

theorem splitExact?_append (taken rest : Bytes) :
    splitExact? taken.length (taken ++ rest) = some (taken, rest) := by
  induction taken with
  | nil => rfl
  | cons octet taken ih => simp [splitExact?, ih]

theorem eq_append_of_splitExact? {count : Nat} {bytes taken rest : Bytes}
    (cut : splitExact? count bytes = some (taken, rest)) :
    bytes = taken ++ rest ∧ taken.length = count := by
  induction count generalizing bytes taken with
  | zero => simp_all [splitExact?]
  | succ count ih =>
    cases bytes with
    | nil => simp [splitExact?] at cut
    | cons octet bytes =>
      simp only [splitExact?, Option.map_eq_some_iff, Prod.exists, Prod.mk.injEq] at cut
      obtain ⟨taken', rest', cut, rfl, rfl⟩ := cut
      obtain ⟨rfl, rfl⟩ := ih cut
      simp

/-- Cuts into consecutive pieces of `size + 1` octets; only the last piece may be shorter. -/
def pieces (size : Nat) : Bytes → List Bytes
  | [] => []
  | octet :: rest =>
    (octet :: rest).take (size + 1) :: pieces size (rest.drop size)
  termination_by bytes => bytes.length
  decreasing_by simp only [List.length_drop, List.length_cons]; omega

/-- The pieces in a row are what was cut. -/
theorem flatten_pieces (size : Nat) (bytes : Bytes) : (pieces size bytes).flatten = bytes := by
  fun_induction pieces size bytes with
  | case1 => rfl
  | case2 octet rest ih => simp [ih]

/-- The position of the first difference, as far as both byte strings go. -/
def firstDifference? (bytes other : Bytes) : Option Nat :=
  (bytes.zip other).findIdx? fun (octet, octet') => octet ≠ octet'

/-! ### Hashing and mixing -/

/-- The 32-bit FNV-1a hash. -/
def fnv1a (bytes : Bytes) : UInt32 :=
  bytes.foldl (fun hash octet => (hash ^^^ octet.toUInt32) * 0x01000193) 0x811c9dc5

/-- Each octet combined by exclusive or with the reference octet at its place; a reference that
is too short counts as continued by zeros. -/
def mix : Bytes → Bytes → Bytes
  | [], _ => []
  | octet :: rest, [] => octet :: rest
  | octet :: rest, reference :: more => (octet ^^^ reference) :: mix rest more

theorem length_mix (bytes reference : Bytes) : (mix bytes reference).length = bytes.length := by
  induction bytes generalizing reference with
  | nil => rfl
  | cons octet rest ih => cases reference <;> simp [mix, ih]

/-- Mixing twice with the same reference restores the octets. -/
theorem mix_mix (bytes reference : Bytes) : mix (mix bytes reference) reference = bytes := by
  induction bytes generalizing reference with
  | nil => rfl
  | cons octet rest ih =>
    cases reference with
    | nil => simp [mix]
    | cons other more => simp only [mix, ih, UInt8.xor_assoc, UInt8.xor_self, UInt8.xor_zero]

end Bytes

end Transcode
