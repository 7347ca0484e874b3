/-
**The names that a segmenter gives to chunks.** The tool is handed one pattern for all chunks, and
puts the number of a chunk in the place that the pattern leaves for it.

* `Segmenter.Expands` says what a pattern stands for: a percent sign that is written twice for
  itself, and `%d`, or `%0Nd` with the width `N`, for the number.
* `Segmenter.Expands.unique` — a pattern stands for at most one name.
* `Segmenter.Expands.count_percent` — each percent sign of the name takes two of the pattern.
* `Segmenter.names_chunks_iff` — for which workspace, source and extension the names are those under
  which the chunks are looked for.
-/
import Transcode.CommandLine.Startup
import Transcode.Proofs.Source.Folder
import Transcode.Source.Segmenter

namespace Transcode.Segmenter

variable {number places : Nat} {pattern name : List Char}

/-! ### Patterns -/

/-- What a pattern stands for where the number is the given one, and how many places it leaves for
the number. A percent sign before anything else stands for nothing. -/
inductive Expands (number : Nat) :
    (pattern : List Char) → (places : Nat) → (name : List Char) → Prop
  | nil : Expands number [] 0 []
  | letter {c : Char} {pattern name : List Char} {places : Nat} (plain : c ≠ '%')
      (rest : Expands number pattern places name) :
      Expands number (c :: pattern) places (c :: name)
  /-- `%%` -/
  | percent {pattern name : List Char} {places : Nat} (rest : Expands number pattern places name) :
      Expands number ('%' :: '%' :: pattern) places ('%' :: name)
  /-- `%d` -/
  | number {pattern name : List Char} {places : Nat} (rest : Expands number pattern places name) :
      Expands number ('%' :: 'd' :: pattern) (places + 1) (Number.digits number ++ name)
  /-- `%0Nd` -/
  | padded {pattern name digits : List Char} {width places : Nat}
      (read : Number.ofDigits? digits = some width) (rest : Expands number pattern places name) :
      Expands number ('%' :: '0' :: (digits ++ 'd' :: pattern)) (places + 1)
        (Number.paddedDigits width number ++ name)

/-- Digits end where no digit follows. -/
theorem digits_unique {digits figures rest others : List Char} {width size : Nat}
    (read : Number.ofDigits? digits = some width) (also : Number.ofDigits? figures = some size)
    (same : digits ++ 'd' :: rest = figures ++ 'd' :: others) :
    width = size ∧ rest = others := by
  have ends (text after : List Char) (all : text.all Char.isDigit = true) :
      (text ++ 'd' :: after).takeWhile Char.isDigit = text := by
    rw [List.takeWhile_append_of_pos (List.all_eq_true.mp all),
      List.takeWhile_cons_of_neg (by decide), List.append_nil]
  have decimal := (Number.ofDigits?_eq_some.mp read).2.1
  have numeral := (Number.ofDigits?_eq_some.mp also).2.1
  obtain rfl : digits = figures := by rw [← ends digits rest decimal, same, ends _ _ numeral]
  refine ⟨Option.some.inj (read.symm.trans also), ?_⟩
  simpa using same

namespace Expands

/-- **A pattern stands for at most one name.** -/
theorem unique {other : List Char} {spots : Nat} (first : Expands number pattern places name)
    (second : Expands number pattern spots other) : places = spots ∧ name = other := by
  induction first generalizing spots other with
  | nil =>
    cases second
    exact ⟨rfl, rfl⟩
  | letter plain rest ih =>
    cases second with
    | letter _ second => exact (ih second).imp_right fun same => by rw [same]
    | percent | number | padded => exact absurd rfl plain
  | percent rest ih =>
    cases second with
    | letter plain => exact absurd rfl plain
    | percent second => exact (ih second).imp_right fun same => by rw [same]
  | number rest ih =>
    cases second with
    | letter plain => exact absurd rfl plain
    | number second => exact (ih second).imp (congrArg _) fun same => by rw [same]
  | padded read rest ih =>
    generalize shape : '%' :: '0' :: _ = text at second
    cases second with
    | nil => cases shape
    | letter plain =>
      injection shape with percent
      exact absurd percent.symm plain
    | percent | number => simp at shape
    | padded also second =>
      obtain ⟨rfl, rfl⟩ := digits_unique read also (by simpa using shape)
      exact (ih second).imp (congrArg _) fun same => by rw [same]

/-- Text without a percent sign stands for itself. -/
theorem plain {text : List Char} (free : '%' ∉ text) (rest : Expands number pattern places name) :
    Expands number (text ++ pattern) places (text ++ name) := by
  induction text with
  | nil => exact rest
  | cons c text ih =>
    rw [List.mem_cons, not_or] at free
    exact .letter (Ne.symm free.1) (ih free.2)

theorem count_percent_digits (width n : Nat) : (Number.paddedDigits width n).count '%' = 0 :=
  List.count_eq_zero.mpr (FileName.notMem_of_all
    (Number.ofDigits?_eq_some.mp (Number.ofDigits?_paddedDigits width n)).2.1 (by decide))

/-- **Each percent sign of the name takes two of the pattern**, and each place for the number one
more. -/
theorem count_percent (expands : Expands number pattern places name) :
    pattern.count '%' = 2 * name.count '%' + places := by
  induction expands with
  | nil => rfl
  | letter plain rest ih => rwa [List.count_cons_of_ne plain, List.count_cons_of_ne plain]
  | percent rest ih =>
    simp only [List.count_cons_self]
    omega
  | @number pattern name places rest ih =>
    have digits : (Number.digits number).count '%' = 0 := by
      have padded := count_percent_digits 0 number
      simpa [Number.paddedDigits, List.leftpad] using padded
    rw [List.count_cons_self, List.count_cons_of_ne (by decide), List.count_append, digits]
    omega
  | @padded pattern name digits width places read rest ih =>
    have figures : digits.count '%' = 0 := List.count_eq_zero.mpr
      (FileName.notMem_of_all (Number.ofDigits?_eq_some.mp read).2.1 (by decide))
    rw [List.count_cons_self, List.count_cons_of_ne (by decide), List.count_append, figures,
      List.count_cons_of_ne (by decide), List.count_append, count_percent_digits]
    omega

end Expands

/-! ### The pattern of a source -/

theorem exists_toList_pattern (segmenter : Segmenter) (source : String) : ∃ front : List Char,
    (segmenter.pattern source).toList =
        front ++ ('%' :: '0' :: (['2'] ++ 'd' :: ('.' :: segmenter.folder.extension.toList))) ∧
      ∀ chunk, (segmenter.folder.path source chunk).toList =
        front ++ (Number.paddedDigits 2 chunk ++ '.' :: segmenter.folder.extension.toList) := by
  obtain ⟨front, -, joined⟩ := ChunkFolder.exists_toList_join segmenter.folder source
  have named : segmenter.pattern source = Path.join segmenter.folder.workspace
      (source ++ "_" ++ ("%02d." ++ segmenter.folder.extension)) := by
    have cut : "_%02d." = "_" ++ "%02d." := rfl
    rw [pattern, cut]
    simp only [String.append_assoc]
  refine ⟨front, ?_, fun chunk => ?_⟩
  · rw [named, joined]
    simp
  · rw [ChunkFolder.path_eq, joined, ChunkFolder.toList_label_append]

/-- **Which chunks are named as they are looked for.** The last argument of the tool is the pattern
of the source. With its one place for the number it stands for the path of the chunk and for nothing
else, whatever the number, if and only if there is no percent sign in the path: none in the name of
the workspace, in the source or in the extension, which are put into the pattern as they are. -/
theorem names_chunks_iff (segmenter : Segmenter) (source : String) (index : ChunkIndex) :
    (segmenter.arguments source).getLast? = some (segmenter.pattern source) ∧
      ((∀ name, Expands index (segmenter.pattern source).toList 1 name ↔
          name = (segmenter.folder.path source index).toList) ↔
        '%' ∉ (segmenter.folder.path source index).toList) := by
  refine ⟨rfl, ?_⟩
  obtain ⟨front, shape, paths⟩ := exists_toList_pattern segmenter source
  rw [shape, paths]
  constructor
  · intro names
    -- A name with percent signs would take twice as many in the pattern, which has one more only.
    have counted := ((names _).mpr rfl).count_percent
    have directive (rest : List Char) :
        ('%' :: '0' :: (['2'] ++ 'd' :: rest)).count '%' = rest.count '%' + 1 := by simp
    rw [← List.count_eq_zero]
    simp only [List.count_append, directive, Expands.count_percent_digits] at counted ⊢
    omega
  · intro free
    simp only [List.mem_append, not_or] at free
    obtain ⟨before, -, after⟩ := free
    have two : Number.ofDigits? ['2'] = some 2 := by decide
    have expands : Expands index _ 1 _ := .plain before (.padded two (.plain after .nil))
    simp only [List.append_nil] at expands
    exact fun name => ⟨fun other => (other.unique expands).2, fun same => same ▸ expands⟩

/-- The tool as the settings have it that are not changed. -/
def standard : Segmenter :=
  ⟨({} : Settings).split.segmenter, ({} : Settings).split.segmentTime, "in.y4m",
    ({} : Settings).chunkFolder⟩

/-- The names agree beyond two digits. -/
theorem names_chunks_iff_thirdDigit :
    '%' ∉ (standard.folder.path "clip" 100).toList ∧
      ∀ name, Expands 100 (standard.pattern "clip").toList 1 name ↔
        name = "workspace/clip_100.y4m".toList :=
  have free : '%' ∉ (standard.folder.path "clip" 100).toList := by decide
  ⟨free, (names_chunks_iff standard "clip" 100).2.mpr free⟩

/-- **A source is accepted whose chunks are named otherwise**: of its two percent signs the tool
takes one for the other. -/
theorem names_chunks_not :
    Settings.check {} = .ok () ∧ (Order.create "50%%" 1 .resume).isOk = true ∧
      Expands 0 (standard.pattern "50%%").toList 1 "workspace/50%_00.y4m".toList ∧
      ¬ Expands 0 (standard.pattern "50%%").toList 1 (standard.folder.path "50%%" 0).toList := by
  have shape : (standard.pattern "50%%").toList = "workspace/50".toList ++ '%' :: '%' ::
      ("_".toList ++ '%' :: '0' :: (['2'] ++ 'd' :: (".y4m".toList ++ []))) := by decide
  have expands : Expands 0 (standard.pattern "50%%").toList 1 "workspace/50%_00.y4m".toList := by
    have two : Number.ofDigits? ['2'] = some 2 := by decide
    have ending : Expands 0 (".y4m".toList ++ []) 0 (".y4m".toList ++ []) := .plain (by decide) .nil
    have middle : Expands 0 ("_".toList ++ _) 1 ("_".toList ++ _) :=
      .plain (by decide) (.padded two ending)
    rw [shape]
    exact Expands.plain (by decide) (.percent middle)
  refine ⟨by decide, by decide, expands, fun same => ?_⟩
  exact absurd (expands.unique same).2 (by decide)

end Transcode.Segmenter
