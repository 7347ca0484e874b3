/-
**Replacing text**, one pattern after another and all of them in one go.

* `Replace.Opens` — an occurrence of a pattern begins in a text, or would if more text followed.
  Where none does, the text keeps out of what is replaced behind it (`Replace.all_append`); where
  one does, more text makes it whole (`Replace.Opens.exists_infix`).
* `Replace.length_lt_all` — a replacement that is longer than an occurrence makes the text longer.
* `Replace.together` replaces several patterns in one go. What has been put in is not looked at
  again, and the order of the patterns makes no difference (`Replace.together_perm`), provided that
  no two of them occur at one place (`Replace.Distinct`).
-/
import Mathlib.Data.List.Infix
import Mathlib.Data.List.Perm.Basic
import Transcode.Codec.Template

namespace Transcode.Replace

variable {pattern replacement front back text : List Char}

/-! ### One pattern -/

theorem after_eq_all_drop (pattern replacement : List Char) (skip : Nat) (text : List Char) :
    after pattern replacement skip text = all pattern replacement (text.drop skip) := by
  induction skip generalizing text with
  | zero => rfl
  | succ skip ih =>
    cases text with
    | nil => rfl
    | cons c rest => exact ih rest

theorem all_cons {c : Char} (absent : ¬ pattern <+: c :: text) :
    all pattern replacement (c :: text) = c :: all pattern replacement text := by
  rw [all, after, if_neg (mt List.isPrefixOf_iff_prefix.mp absent)]
  rfl

/-- An occurrence at the front is replaced. -/
theorem all_pattern_append (nonempty : pattern ≠ []) (text : List Char) :
    all pattern replacement (pattern ++ text) = replacement ++ all pattern replacement text := by
  obtain ⟨c, rest, rfl⟩ := List.exists_cons_of_ne_nil nonempty
  have occurs : c :: rest <+: c :: (rest ++ text) := List.prefix_append (c :: rest) text
  rw [List.cons_append, all, after, if_pos (List.isPrefixOf_iff_prefix.mpr occurs),
    after_eq_all_drop, List.length_cons, Nat.add_sub_cancel, List.drop_left]

/-- Text without an occurrence stays as it is. -/
theorem all_of_not_infix (absent : ¬ pattern <:+: text) : all pattern replacement text = text := by
  induction text with
  | nil => rfl
  | cons c rest ih =>
    rw [List.infix_cons_iff, not_or] at absent
    rw [all_cons absent.1, ih absent.2]

/-- A character of the pattern that the text lacks. -/
theorem all_of_notMem {c : Char} (inside : c ∈ pattern) (absent : c ∉ text) :
    all pattern replacement text = text :=
  all_of_not_infix fun occurs => absent (occurs.subset inside)

/-! ### Where an occurrence begins -/

/-- An occurrence of the pattern begins in the text, or would if more text followed. -/
def Opens (pattern : List Char) : List Char → Prop
  | [] => False
  | c :: rest => pattern <+: c :: rest ∨ c :: rest <+: pattern ∨ Opens pattern rest

instance decidableOpens (pattern : List Char) : (text : List Char) → Decidable (Opens pattern text)
  | [] => inferInstanceAs (Decidable False)
  | c :: rest =>
    have := decidableOpens pattern rest
    inferInstanceAs (Decidable (pattern <+: c :: rest ∨ c :: rest <+: pattern ∨ Opens pattern rest))

/-- Two patterns that occur at one place. -/
theorem opens_of_prefix {other : List Char} (nonempty : other ≠ []) (occurs : pattern <+: text)
    (also : other <+: text) : Opens pattern other := by
  obtain ⟨c, rest, rfl⟩ := List.exists_cons_of_ne_nil nonempty
  rcases List.prefix_or_prefix_of_prefix occurs also with whole | part
  · exact .inl whole
  · exact .inr (.inl part)

/-- **Text in which no occurrence begins** stays as it is, whatever follows. -/
theorem all_append (closed : ¬ Opens pattern front) (back : List Char) :
    all pattern replacement (front ++ back) = front ++ all pattern replacement back := by
  induction front with
  | nil => rfl
  | cons c rest ih =>
    rw [Opens, not_or, not_or] at closed
    obtain ⟨whole, part, closed⟩ := closed
    have absent : ¬ pattern <+: c :: (rest ++ back) := by
      intro occurs
      rcases List.prefix_or_prefix_of_prefix occurs (List.prefix_append (c :: rest) back) with
        shorter | longer
      · exact whole shorter
      · exact part longer
    rw [List.cons_append, all_cons absent, ih closed, List.cons_append]

/-- No occurrence begins where its first character is missing. -/
theorem not_opens_of_notMem {c : Char} {rest : List Char} (absent : c ∉ text) :
    ¬ Opens (c :: rest) text := by
  induction text with
  | nil => exact id
  | cons d others ih =>
    rw [List.mem_cons, not_or] at absent
    obtain ⟨apart, absent⟩ := absent
    rintro (whole | part | later)
    · exact apart (List.cons_prefix_cons.mp whole).1
    · exact apart (List.cons_prefix_cons.mp part).1.symm
    · exact ih absent later

/-- **An occurrence that begins** is made whole by the end of the pattern. -/
theorem Opens.exists_infix (opens : Opens pattern text) :
    ∃ rest, rest <:+ pattern.tail ∧ pattern <:+: text ++ rest := by
  induction text with
  | nil => exact opens.elim
  | cons c others ih =>
    rcases opens with whole | part | later
    · refine ⟨[], List.nil_suffix, ?_⟩
      rw [List.append_nil]
      exact whole.isInfix
    · obtain ⟨rest, rfl⟩ := part
      exact ⟨rest, List.suffix_append others rest, List.infix_refl _⟩
    · obtain ⟨rest, ends, occurs⟩ := ih later
      exact ⟨rest, ends, occurs.trans (List.suffix_cons c _).isInfix⟩

/-! ### Lengths -/

/-- Replacements that are no shorter than the pattern do not make the text shorter. -/
theorem length_le_all (nonempty : pattern ≠ []) (grows : pattern.length ≤ replacement.length)
    (text : List Char) : text.length ≤ (all pattern replacement text).length := by
  have some := List.length_pos_of_ne_nil nonempty
  suffices ∀ skip, text.length ≤ skip + (after pattern replacement skip text).length by
    simpa only [all, Nat.zero_add] using this 0
  intro skip
  fun_induction after pattern replacement skip text with
  | case1 => simp
  | case2 skip c rest ih => simp only [List.length_cons]; omega
  | case3 c rest occurs ih => simp only [List.length_cons, List.length_append]; omega
  | case4 c rest absent ih => simp only [List.length_cons]; omega

/-- **A replacement that is longer than an occurrence** makes the text longer. -/
theorem length_lt_all (nonempty : pattern ≠ []) (grows : pattern.length < replacement.length)
    (occurs : pattern <:+: text) : text.length < (all pattern replacement text).length := by
  induction text with
  | nil => exact absurd (List.infix_nil.mp occurs) nonempty
  | cons c rest ih =>
    by_cases front : pattern <+: c :: rest
    · obtain ⟨back, same⟩ := front
      have kept := length_le_all nonempty grows.le back
      rw [← same, all_pattern_append nonempty, List.length_append, List.length_append]
      omega
    · have later := (List.infix_cons_iff.mp occurs).resolve_left front
      rw [all_cons front, List.length_cons, List.length_cons]
      exact Nat.succ_lt_succ (ih later)

/-! ### Several patterns -/

/-- Replaces the occurrences of several patterns in one go, after the next `skip` characters, which
are dropped. -/
def together (pairs : List (List Char × List Char)) : (skip : Nat) → List Char → List Char
  | _, [] => []
  | skip + 1, _ :: rest => together pairs skip rest
  | 0, c :: rest =>
    match pairs.find? fun pair => pair.1.isPrefixOf (c :: rest) with
    | some (pattern, replacement) => replacement ++ together pairs (pattern.length - 1) rest
    | none => c :: together pairs 0 rest

variable {pairs other : List (List Char × List Char)}

theorem together_eq_drop (pairs : List (List Char × List Char)) (skip : Nat) (text : List Char) :
    together pairs skip text = together pairs 0 (text.drop skip) := by
  induction skip generalizing text with
  | zero => rfl
  | succ skip ih =>
    cases text with
    | nil => rfl
    | cons c rest => exact ih rest

/-- No two patterns of the list occur at one place. -/
def Distinct (pairs : List (List Char × List Char)) : Prop :=
  ∀ pair ∈ pairs, ∀ another ∈ pairs, ∀ text, pair.1 <+: text → another.1 <+: text → pair = another

/-- What is found is the pair whose pattern occurs. -/
theorem Distinct.find?_eq_some (distinct : Distinct pairs) {pair : List Char × List Char}
    (member : pair ∈ pairs) (occurs : pair.1 <+: text) :
    (pairs.find? fun pair => pair.1.isPrefixOf text) = some pair := by
  cases found : pairs.find? fun pair => pair.1.isPrefixOf text with
  | none =>
    have absent := List.find?_eq_none.mp found pair member
    exact absurd (List.isPrefixOf_iff_prefix.mpr occurs) absent
  | some another =>
    have starts := List.find?_some found
    rw [distinct pair member another (List.mem_of_find?_eq_some found) text occurs
      (List.isPrefixOf_iff_prefix.mp starts)]

theorem together_cons {c : Char} (absent : ∀ pair ∈ pairs, ¬ pair.1 <+: c :: text) :
    together pairs 0 (c :: text) = c :: together pairs 0 text := by
  have none : (pairs.find? fun pair => pair.1.isPrefixOf (c :: text)) = none :=
    List.find?_eq_none.mpr fun pair member =>
      mt List.isPrefixOf_iff_prefix.mp (absent pair member)
  rw [together, none]

/-- An occurrence at the front is replaced. -/
theorem together_pattern_append (distinct : Distinct pairs) (nonempty : pattern ≠ [])
    (member : (pattern, replacement) ∈ pairs) (text : List Char) :
    together pairs 0 (pattern ++ text) = replacement ++ together pairs 0 text := by
  obtain ⟨c, rest, rfl⟩ := List.exists_cons_of_ne_nil nonempty
  have found := distinct.find?_eq_some member (List.prefix_append (c :: rest) text)
  rw [List.cons_append] at found ⊢
  rw [together, found]
  show replacement ++ together pairs rest.length (rest ++ text) = _
  rw [together_eq_drop, List.drop_left]

/-- Text in which no pattern can begin stays as it is. -/
theorem together_append {c : Char} (starts : ∀ pair ∈ pairs, ∃ rest, pair.1 = c :: rest)
    (absent : c ∉ front) (back : List Char) :
    together pairs 0 (front ++ back) = front ++ together pairs 0 back := by
  induction front with
  | nil => rfl
  | cons d others ih =>
    rw [List.mem_cons, not_or] at absent
    have other : ∀ pair ∈ pairs, ¬ pair.1 <+: d :: (others ++ back) := by
      intro pair member occurs
      obtain ⟨rest, same⟩ := starts pair member
      rw [same] at occurs
      exact absent.1 (List.cons_prefix_cons.mp occurs).1
    rw [List.cons_append, together_cons other, ih absent.2, List.cons_append]

/-- A character of every pattern that the text lacks. -/
theorem together_of_notMem {c : Char} (inside : ∀ pair ∈ pairs, c ∈ pair.1) (absent : c ∉ text) :
    together pairs 0 text = text := by
  induction text with
  | nil => rfl
  | cons d rest ih =>
    have other : ∀ pair ∈ pairs, ¬ pair.1 <+: d :: rest := fun pair member occurs =>
      absent (occurs.subset (inside pair member))
    rw [together_cons other, ih fun member => absent (List.mem_cons_of_mem d member)]

theorem together_nil (text : List Char) : together [] 0 text = text := by
  induction text with
  | nil => rfl
  | cons c rest ih => exact congrArg (c :: ·) ih

/-- **The order makes no difference.** -/
theorem together_perm (distinct : Distinct pairs) (order : other.Perm pairs) (skip : Nat)
    (text : List Char) : together other skip text = together pairs skip text := by
  have also : Distinct other := fun pair member another present =>
    distinct pair (order.mem_iff.mp member) another (order.mem_iff.mp present)
  fun_induction together pairs skip text with
  | case1 skip => cases skip <;> rfl
  | case2 skip c rest ih => exact ih
  | case3 c rest pattern replacement found ih =>
    have member := order.mem_iff.mpr (List.mem_of_find?_eq_some found)
    have occurs := List.find?_some found
    rw [together, also.find?_eq_some member (List.isPrefixOf_iff_prefix.mp occurs)]
    exact congrArg (replacement ++ ·) ih
  | case4 c rest none ih =>
    have absent : ∀ pair ∈ other, ¬ pair.1 <+: c :: rest := fun pair member occurs =>
      List.find?_eq_none.mp none pair (order.mem_iff.mp member)
        (List.isPrefixOf_iff_prefix.mpr occurs)
    rw [together_cons absent, ih]

end Transcode.Replace
