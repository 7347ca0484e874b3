/-
**Words and pieces.**

* A word that was written is read back, whatever follows it (`Bytes.takeWord32?_le32`,
  `Bytes.takeWord64?_le64`), and a word that is read stands in front as it would be written
  (`Bytes.takeWord32?_eq_some`, `Bytes.takeWord64?_eq_some`).
* Pieces are non-empty and no longer than asked for; cutting after whole pieces changes nothing
  (`Bytes.pieces_append`).
-/
import Transcode.Bytes

namespace Transcode.Bytes

/-! ### Words -/

theorem length_le32 (word : UInt32) : (le32 word).length = 4 :=
  rfl

theorem length_le64 (word : UInt64) : (le64 word).length = 8 :=
  rfl

theorem value_le32 (word : UInt32) : value (le32 word) = word.toNat := by
  have bound := word.toNat_lt
  simp only [le32, value, UInt32.toNat_toUInt8, UInt32.toNat_shiftRight, UInt32.toNat_ofNat,
    Nat.shiftRight_eq_div_pow]
  simp only [Nat.reduceMod, Nat.reducePow] at *
  omega

theorem value_le64 (word : UInt64) : value (le64 word) = word.toNat := by
  have bound := word.toNat_lt
  simp only [le64, value, UInt64.toNat_toUInt8, UInt64.toNat_shiftRight, UInt64.toNat_ofNat,
    Nat.shiftRight_eq_div_pow]
  simp only [Nat.reduceMod, Nat.reducePow] at *
  omega

theorem takeWord32?_le32 (word : UInt32) (rest : Bytes) :
    takeWord32? (le32 word ++ rest) = some (word, rest) := by
  have read : takeWord32? (le32 word ++ rest) =
      some (UInt32.ofNat (value (le32 word)), rest) := rfl
  rw [read, value_le32, UInt32.ofNat_toNat]

theorem takeWord64?_le64 (word : UInt64) (rest : Bytes) :
    takeWord64? (le64 word ++ rest) = some (word, rest) := by
  have read : takeWord64? (le64 word ++ rest) =
      some (UInt64.ofNat (value (le64 word)), rest) := rfl
  rw [read, value_le64, UInt64.ofNat_toNat]

/-- With one more octet in front, the bound is 256 times as large. -/
theorem value_cons_lt (octet : UInt8) {rest : Bytes} {bound : Nat} (below : value rest < bound) :
    value (octet :: rest) < 256 * bound := by
  have small : octet.toNat < 256 := octet.toNat_lt
  rw [value]
  omega

/-- Octets are told apart by the number that they stand for. -/
theorem value_injective {bytes other : Bytes} (long : bytes.length = other.length)
    (same : value bytes = value other) : bytes = other := by
  induction bytes generalizing other with
  | nil => exact (List.eq_nil_of_length_eq_zero long.symm).symm
  | cons octet rest ih =>
    obtain ⟨octet', rest', rfl⟩ := List.exists_cons_of_length_eq_add_one long.symm
    have small : octet.toNat < 256 := octet.toNat_lt
    have small' : octet'.toNat < 256 := octet'.toNat_lt
    simp only [value] at same
    have first : octet = octet' := UInt8.toNat_inj.mp (by omega)
    rw [first, ih (Nat.succ.inj long) (by omega)]

/-- **A word that is read** stands in front as it would be written. -/
theorem takeWord32?_eq_some {bytes rest : Bytes} {word : UInt32} :
    takeWord32? bytes = some (word, rest) ↔ bytes = le32 word ++ rest := by
  constructor
  · intro read
    unfold takeWord32? at read
    split at read
    · next a b c d left =>
      obtain ⟨rfl, rfl⟩ := Prod.mk.inj (Option.some.inj read)
      have small : value [a, b, c, d] < 256 * (256 * (256 * (256 * 1))) :=
        value_cons_lt a (value_cons_lt b (value_cons_lt c (value_cons_lt d Nat.one_pos)))
      have front : [a, b, c, d] = le32 (UInt32.ofNat (value [a, b, c, d])) := by
        refine value_injective (length_le32 _).symm ?_
        rw [value_le32, UInt32.toNat_ofNat_of_lt' small]
      exact congrArg (· ++ left) front
    · cases read
  · rintro rfl
    exact takeWord32?_le32 word rest

theorem takeWord64?_eq_some {bytes rest : Bytes} {word : UInt64} :
    takeWord64? bytes = some (word, rest) ↔ bytes = le64 word ++ rest := by
  constructor
  · intro read
    unfold takeWord64? at read
    split at read
    · next a b c d e f g h left =>
      obtain ⟨rfl, rfl⟩ := Prod.mk.inj (Option.some.inj read)
      have small : value [a, b, c, d, e, f, g, h] <
          256 * (256 * (256 * (256 * (256 * (256 * (256 * (256 * 1))))))) :=
        value_cons_lt a (value_cons_lt b (value_cons_lt c (value_cons_lt d
          (value_cons_lt e (value_cons_lt f (value_cons_lt g (value_cons_lt h Nat.one_pos)))))))
      have front : [a, b, c, d, e, f, g, h] =
          le64 (UInt64.ofNat (value [a, b, c, d, e, f, g, h])) := by
        refine value_injective (length_le64 _).symm ?_
        rw [value_le64, UInt64.toNat_ofNat_of_lt' small]
      exact congrArg (· ++ left) front
    · cases read
  · rintro rfl
    exact takeWord64?_le64 word rest

/-- Four octets are a word, whatever they are. -/
theorem exists_eq_le32_append {bytes : Bytes} {more : Nat} (long : more + 4 ≤ bytes.length) :
    ∃ word rest, bytes = le32 word ++ rest ∧ more ≤ rest.length := by
  match bytes, long with
  | a :: b :: c :: d :: rest, long =>
    exact ⟨_, rest, takeWord32?_eq_some.mp rfl, Nat.le_of_add_le_add_right long⟩

/-- Eight octets are a word, whatever they are. -/
theorem exists_eq_le64_append {bytes : Bytes} {more : Nat} (long : more + 8 ≤ bytes.length) :
    ∃ word rest, bytes = le64 word ++ rest ∧ more ≤ rest.length := by
  match bytes, long with
  | a :: b :: c :: d :: e :: f :: g :: h :: rest, long =>
    exact ⟨_, rest, takeWord64?_eq_some.mp rfl, Nat.le_of_add_le_add_right long⟩

theorem takeWord32?_of_short {bytes : Bytes} (short : bytes.length < 4) :
    takeWord32? bytes = none := by
  unfold takeWord32?
  split
  · simp only [List.length_cons] at short
    omega
  · rfl

/-! ### Cutting -/

theorem splitExact?_of_short {count : Nat} {bytes : Bytes} (short : bytes.length < count) :
    splitExact? count bytes = none := by
  refine Option.eq_none_iff_forall_ne_some.mpr fun taken cut => ?_
  obtain ⟨rfl, rfl⟩ := eq_append_of_splitExact? cut
  rw [List.length_append] at short
  omega

theorem splitExact?_eq_some {count : Nat} {bytes taken rest : Bytes} :
    splitExact? count bytes = some (taken, rest) ↔ bytes = taken ++ rest ∧ taken.length = count := by
  refine ⟨eq_append_of_splitExact?, ?_⟩
  rintro ⟨rfl, rfl⟩
  exact splitExact?_append taken rest

/-! ### Pieces -/

theorem pieces_eq_nil_iff {size : Nat} {bytes : Bytes} : pieces size bytes = [] ↔ bytes = [] := by
  cases bytes <;> simp [pieces]

/-- No piece is longer than asked for. -/
theorem length_le_of_mem_pieces {size : Nat} {bytes piece : Bytes}
    (member : piece ∈ pieces size bytes) : piece.length ≤ size + 1 := by
  fun_induction pieces size bytes with
  | case1 => cases member
  | case2 octet rest ih =>
    rcases List.mem_cons.mp member with rfl | later
    · exact List.length_take_le _ _
    · exact ih later

/-- **Cutting after whole pieces** is cutting what stands before and what stands after. -/
theorem pieces_append {size : Nat} {bytes : Bytes} (whole : size + 1 ∣ bytes.length)
    (rest : Bytes) : pieces size (bytes ++ rest) = pieces size bytes ++ pieces size rest := by
  fun_induction pieces size bytes with
  | case1 => rfl
  | case2 octet left ih =>
    have long : size + 1 ≤ (octet :: left).length := Nat.le_of_dvd (Nat.succ_pos _) whole
    have enough : size ≤ left.length := by simpa using long
    have less : size + 1 ∣ (left.drop size).length := by
      have shorter := Nat.dvd_sub whole (Nat.dvd_refl (size + 1))
      rwa [List.length_cons, Nat.add_sub_add_right, ← List.length_drop] at shorter
    have front : (octet :: (left ++ rest)).take (size + 1) = (octet :: left).take (size + 1) :=
      List.take_append_of_le_length long
    rw [List.cons_append, pieces, List.drop_append_of_le_length enough, ih less, front,
      List.cons_append]

/-- Pieces of byte strings in a row, all but the last of which are whole. -/
theorem pieces_flatten {size : Nat} {parts : List Bytes}
    (whole : ∀ part ∈ parts.dropLast, size + 1 ∣ part.length) :
    pieces size parts.flatten = parts.flatMap (pieces size) := by
  induction parts with
  | nil => simp [pieces]
  | cons part rest ih =>
    cases rest with
    | nil => simp
    | cons next more =>
      rw [List.dropLast_cons_cons] at whole
      rw [List.flatten_cons, pieces_append (whole part List.mem_cons_self), List.flatMap_cons,
        ih fun other member => whole other (List.mem_cons_of_mem _ member)]

end Transcode.Bytes
