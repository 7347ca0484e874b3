/-
**Association lists**: what is found under a key after one key was removed
(`Association.lookup_filter_ne`) or bound anew (`Association.lookup_rebind`).
-/

namespace Transcode.Association

variable {α β : Type} [BEq α] [LawfulBEq α] [DecidableEq α]

/-- A removed key is bound to nothing, and every other key is bound as before. -/
theorem lookup_filter_ne (entries : List (α × β)) (key other : α) :
    (entries.filter fun entry => entry.1 ≠ key).lookup other =
      if other = key then none else entries.lookup other := by
  induction entries with
  | nil => simp
  | cons entry rest ih =>
    obtain ⟨first, value⟩ := entry
    rw [List.filter_cons, List.lookup_cons]
    by_cases removed : first = key
    · rw [if_neg (by simpa using removed), ih]
      by_cases same : other = key
      · simp [same]
      · rw [if_neg same, if_neg same, beq_false_of_ne (removed ▸ same)]
    · rw [if_pos (by simpa using removed), List.lookup_cons, ih]
      by_cases same : other = first
      · simp [same, removed]
      · simp [beq_false_of_ne same]

/-- A key that was bound anew is bound to its new value, and every other key as before. -/
theorem lookup_rebind (entries : List (α × β)) (key other : α) (value : β) :
    ((key, value) :: entries.filter fun entry => entry.1 ≠ key).lookup other =
      if other = key then some value else entries.lookup other := by
  rw [List.lookup_cons, lookup_filter_ne]
  by_cases same : other = key
  · simp [same]
  · rw [beq_false_of_ne same, if_neg same, if_neg same]

end Transcode.Association
