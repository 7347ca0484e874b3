/-
**Whole numbers in text.**

* `Number.padded width n` is the decimal form of `n`, filled with zeros on the left up to `width`.
* `Number.ofDigits?` reads a non-empty run of ASCII digits; `Number.word?` also refuses what does
  not fit 64 bits and says why (`NumberError`), and accepts one leading plus sign.
-/

namespace Transcode

/-- The largest number of a 64-bit word. -/
def Number.maxWord : Nat := UInt64.size - 1

/-- Why a text is not a 64-bit number. -/
inductive NumberError where
  | empty
  | invalidDigit
  | tooLarge
  deriving DecidableEq, Repr

/-- The wording of a number error. -/
def NumberError.message : NumberError → String
  | .empty => "cannot parse integer from empty string"
  | .invalidDigit => "invalid digit found in string"
  | .tooLarge => "number too large to fit in target type"

namespace Number

/-- The decimal digits of a number, without leading zeros. -/
def digits (n : Nat) : List Char :=
  Nat.toDigits 10 n

/-- The decimal digits of a number with zeros in front up to the given width. -/
def paddedDigits (width n : Nat) : List Char :=
  (digits n).leftpad width '0'

/-- The decimal form with zeros in front up to the given width. -/
def padded (width n : Nat) : String :=
  String.ofList (paddedDigits width n)

/-- The value of a non-empty run of ASCII digits, leading zeros allowed. -/
def ofDigits? (text : List Char) : Option Nat :=
  if text ≠ [] ∧ text.all Char.isDigit then some (Nat.ofDigitChars 10 text 0) else none

theorem ofDigits?_eq_some {text : List Char} {n : Nat} :
    ofDigits? text = some n ↔
      text ≠ [] ∧ text.all Char.isDigit ∧ Nat.ofDigitChars 10 text 0 = n := by
  simp [ofDigits?, and_assoc]

/-- Zeros in front change nothing. -/
theorem ofDigits?_paddedDigits (width n : Nat) : ofDigits? (paddedDigits width n) = some n := by
  rw [ofDigits?_eq_some]
  refine ⟨?_, ?_, ?_⟩
  · simp [paddedDigits, digits, List.leftpad]
  · simp only [paddedDigits, digits, List.leftpad, List.all_append, Bool.and_eq_true,
      List.all_eq_true, List.mem_replicate]
    refine ⟨fun c hc => ?_, fun c hc => ?_⟩
    · rw [hc.2]; rfl
    · exact Nat.isDigit_of_mem_toDigits (by decide) (by decide) hc
  · simp [paddedDigits, digits, List.leftpad, Nat.ofDigitChars_append,
      Nat.ofDigitChars_replicate_zero, Nat.ofDigitChars_ten_toDigits]

/-- Reads a 64-bit number: digits, optionally after one plus sign. -/
def word? (text : List Char) : Except NumberError Nat :=
  match text with
  | [] => .error .empty
  | [sign] => if sign = '+' ∨ sign = '-' then .error .invalidDigit else unsigned [sign]
  | '+' :: rest => unsigned rest
  | text => unsigned text
where
  /-- Digits are checked one by one: the first fault from the left is the one reported. -/
  unsigned (text : List Char) : Except NumberError Nat :=
    text.foldlM (fun value c =>
      if c.isDigit then
        let next := value * 10 + (c.toNat - '0'.toNat)
        if next ≤ maxWord then .ok next else .error .tooLarge
      else .error .invalidDigit) 0

end Number

end Transcode
