/-
**Paths with a given directory as their parent.** Put behind a directory, a relative path keeps the
directory as its parent just if one of its names, and no more, stands for anything: all others are
empty or a dot.

* `Path.Inside`: the directory is the parent of the path.
* `Path.inside_join`: a single name behind a directory is inside.
* `Path.inside_join_iff` — which relative paths behind a directory are, and
  `Path.inside_join_iff_idle`: the same where one of the names is known.
-/
import Transcode.Proofs.Disk.Path

namespace Transcode.Path

variable {directory name : String} {text rest : List Char}

/-- The directory is the parent of the path; slashes and dots at the end of a directory make no
difference. -/
def Inside (directory path : String) : Prop :=
  parent? path = some (trimmed directory)

instance (directory path : String) : Decidable (Inside directory path) :=
  inferInstanceAs (Decidable (_ = _))

theorem inside_join (directory : String) (proper : IsStep name) :
    Inside directory (join directory name) :=
  parent?_join directory proper

/-! ### Names that stand for nothing -/

/-- The piece stands for more than the folder that has been reached. -/
def IsSolid (piece : List Char) : Prop :=
  piece ≠ [] ∧ piece ≠ ['.']

instance (piece : List Char) : Decidable (IsSolid piece) :=
  inferInstanceAs (Decidable (_ ∧ _))

/-- How many pieces of a text that was reversed stand for anything. -/
def solid (text : List Char) : Nat :=
  (pieces text.reverse).countP (IsSolid ·)

theorem solid_slash (text rest : List Char) :
    solid (text ++ '/' :: rest) = solid rest + solid text := by
  rw [solid, List.reverse_append, List.reverse_cons, List.append_assoc, List.singleton_append,
    pieces_append_slash, List.countP_append]
  rfl

theorem solid_of_notMem (plain : '/' ∉ text) :
    solid text = if IsSolid text.reverse then 1 else 0 := by
  rw [solid, pieces_of_notMem (by simpa using plain)]
  simp [List.countP_cons]

theorem solid_dropTrailing (text : List Char) : solid (dropTrailing text) = solid text := by
  fun_induction dropTrailing text with
  | case1 rest ih => exact ih.trans (solid_slash [] rest).symm
  | case2 rest ih => exact ih.trans (solid_slash ['.'] rest).symm
  | case3 text => rfl

/-! ### The end of a path -/

/-- Text without slashes and dots at its end that stand for nothing. -/
structure Trim (text : List Char) : Prop where
  slash : ∀ rest, text ≠ '/' :: rest
  dot : ∀ rest, text ≠ '.' :: '/' :: rest

theorem Trim.dropTrailing (trim : Trim text) : Path.dropTrailing text = text := by
  rw [Path.dropTrailing]
  · exact trim.slash
  · exact trim.dot

theorem trim_dropTrailing (text : List Char) : Trim (dropTrailing text) := by
  fun_induction Path.dropTrailing text with
  | case1 rest ih => exact ih
  | case2 rest ih => exact ih
  | case3 text slash dot => exact ⟨slash, dot⟩

/-- Trimmed text ends in a name that stands for something, or has nothing of the kind. -/
theorem Trim.cases (trim : Trim text) : text = [] ∨ text = ['.'] ∨
    ∃ last, '/' ∉ last ∧ IsSolid last.reverse ∧
      (text = last ∨ ∃ rest, text = last ++ '/' :: rest) := by
  by_cases slash : '/' ∈ text
  · obtain ⟨last, rest, rfl, plain⟩ := List.eq_append_cons_of_mem slash
    refine .inr (.inr ⟨last, plain, ⟨?_, ?_⟩, .inr ⟨rest, rfl⟩⟩)
    · intro empty
      rw [List.reverse_eq_nil_iff.mp empty] at trim
      exact trim.slash rest rfl
    · intro single
      have dot : last = ['.'] := by simpa using congrArg List.reverse single
      rw [dot] at trim
      exact trim.dot rest rfl
  · by_cases empty : text = []
    · exact .inl empty
    · by_cases single : text = ['.']
      · exact .inr (.inl single)
      · refine .inr (.inr ⟨text, slash, ⟨by simpa using empty, ?_⟩, .inl rfl⟩)
        intro dot
        exact single (by simpa using congrArg List.reverse dot)

theorem Trim.append (trim : Trim text) (filled : text ≠ []) (single : text ≠ ['.'])
    (rest : List Char) : Trim (text ++ rest) where
  slash more shape := by
    cases text with
    | nil => exact filled rfl
    | cons c text =>
      injection shape with first _
      exact trim.slash text (by rw [first])
  dot more shape := by
    match text with
    | [] => exact filled rfl
    | [c] =>
      injection shape with first _
      exact single (by rw [first])
    | c :: d :: text =>
      injection shape with first shape
      injection shape with second _
      exact trim.dot text (by rw [first, second])

/-- What stands behind a slash is dropped together with it, or stays. -/
theorem dropTrailing_append_slash (text rest : List Char) :
    dropTrailing (text ++ '/' :: rest) =
      if solid text = 0 then dropTrailing rest else dropTrailing text ++ '/' :: rest := by
  fun_induction dropTrailing text with
  | case1 text ih =>
    have same : solid ('/' :: text) = solid text := solid_slash [] text
    rw [List.cons_append, dropTrailing_slash, ih, same]
  | case2 text ih =>
    have same : solid ('.' :: '/' :: text) = solid text := solid_slash ['.'] text
    rw [List.cons_append, List.cons_append, dropTrailing, ih, same]
  | case3 text slash dot =>
    have trim : Trim text := ⟨slash, dot⟩
    rcases trim.cases with rfl | rfl | ⟨last, plain, filled, shape⟩
    · exact dropTrailing_slash rest
    · show dropTrailing ('.' :: '/' :: rest) = _
      rw [dropTrailing]
      rfl
    · have counted : solid text ≠ 0 := by
        have one : solid last = 1 := by rw [solid_of_notMem plain, if_pos filled]
        rcases shape with rfl | ⟨more, rfl⟩
        · rw [one]
          exact Nat.one_ne_zero
        · rw [solid_slash, one]
          exact Nat.succ_ne_zero _
      have whole : Trim (text ++ '/' :: rest) := by
        refine trim.append ?_ ?_ _
        · rintro rfl
          exact counted rfl
        · rintro rfl
          exact counted (by decide)
      rw [if_neg counted, whole.dropTrailing]

/-! ### Parents -/

/-- The folder that trimmed text stands for. -/
def folderOf (root : String) : List Char → String
  | [] => root
  | text => String.ofList text.reverse

/-- The root of a path. -/
def rootOf (path : String) : String :=
  if isAbsolute path then "/" else ""

theorem parent?_of_nil {path : String} (rest : dropTrailing path.toList.reverse = []) :
    parent? path = none := by
  rw [parent?, rest]

theorem parent?_of_ne_nil {path : String} (rest : dropTrailing path.toList.reverse = text)
    (filled : text ≠ []) : parent? path =
      some (folderOf (rootOf path) (dropTrailing (text.dropWhile (· ≠ '/')))) := by
  obtain ⟨c, more, rfl⟩ := List.exists_cons_of_ne_nil filled
  rw [parent?, rest]
  simp only
  cases dropTrailing ((c :: more).dropWhile (· ≠ '/')) <;> rfl

theorem trimmed_eq (directory : String) : trimmed directory =
    folderOf (rootOf directory) (dropTrailing directory.toList.reverse) := by
  rw [trimmed]
  cases dropTrailing directory.toList.reverse <;> rfl

/-- Folders are told apart by their text. -/
theorem folderOf_inj {path : String} {other : List Char} (trim : Trim text) (tidy : Trim other) :
    folderOf (rootOf path) text = folderOf (rootOf path) other ↔ text = other := by
  have apart {text : List Char} (trim : Trim text) (filled : text ≠ []) :
      String.ofList text.reverse ≠ rootOf path := by
    intro same
    have texts := congrArg String.toList same
    rw [String.toList_ofList, rootOf] at texts
    split_ifs at texts
    · exact trim.slash [] (by simpa using congrArg List.reverse texts)
    · exact filled (by simpa using texts)
  refine ⟨fun same => ?_, fun same => same ▸ rfl⟩
  match text, other with
  | [], [] => rfl
  | [], d :: other => exact absurd same.symm (apart tidy (List.cons_ne_nil d other))
  | c :: text, [] => exact absurd same (apart trim (List.cons_ne_nil c text))
  | c :: text, d :: other =>
    exact List.reverse_inj.mp (String.ofList_injective same)

theorem dropWhile_append_slash (plain : '/' ∉ text) (rest : List Char) :
    (text ++ '/' :: rest).dropWhile (· ≠ '/') = '/' :: rest := by
  rw [dropWhile_of_notMem plain, List.dropWhile_cons_of_neg (by simp)]

/-- A folder is not its own parent. -/
theorem dropTrailing_dropWhile_ne (trim : Trim text) (filled : text ≠ []) :
    dropTrailing (text.dropWhile (· ≠ '/')) ≠ text := by
  intro same
  obtain ⟨c, more, rfl⟩ := List.exists_cons_of_ne_nil filled
  have other : c ≠ '/' := by
    rintro rfl
    exact trim.slash more rfl
  rw [List.dropWhile_cons_of_pos (by simpa using other)] at same
  have short := (dropTrailing_suffix (more.dropWhile (· ≠ '/'))).length_le
  have shorter := (@List.dropWhile_suffix _ more (· ≠ '/')).length_le
  rw [same, List.length_cons] at short
  omega

/-- **Which relative paths have the directory as their parent**: those with one name that stands
for anything. -/
theorem inside_join_iff (given : directory ≠ "") (relative : isAbsolute name = false) :
    Inside directory (join directory name) ↔
      (names name).countP (fun piece => piece ≠ "" ∧ piece ≠ ".") = 1 := by
  have counted : (names name).countP (fun piece => piece ≠ "" ∧ piece ≠ ".") =
      solid name.toList.reverse := by
    rw [solid, List.reverse_reverse, names, List.countP_map]
    refine List.countP_congr fun piece _ => ?_
    have dot : String.ofList piece = "." ↔ piece = ['.'] := by
      rw [← String.toList_inj, String.toList_ofList]
      rfl
    have same : (String.ofList piece ≠ "" ∧ String.ofList piece ≠ ".") ↔ IsSolid piece := by
      simp [IsSolid, dot]
    simpa only [Function.comp_apply, decide_eq_true_eq] using same
  obtain ⟨stem, ends, joined⟩ := exists_toList_join given
  have kept : dropTrailing directory.toList.reverse = dropTrailing stem.reverse := by
    rcases ends with ends | ends
    · rw [ends]
    · rw [ends, List.reverse_append]
      exact dropTrailing_slash _
  have root : rootOf (join directory name) = rootOf directory := by
    rw [rootOf, rootOf, isAbsolute_join directory relative]
  have cut : dropTrailing (join directory name).toList.reverse =
      if solid name.toList.reverse = 0 then dropTrailing stem.reverse
      else dropTrailing name.toList.reverse ++ '/' :: stem.reverse := by
    rw [joined relative, List.reverse_append, List.reverse_cons, List.append_assoc,
      List.singleton_append, dropTrailing_append_slash]
  rw [counted, Inside, trimmed_eq, kept]
  by_cases none : solid name.toList.reverse = 0
  · -- The path stands for the directory itself.
    rw [if_pos none] at cut
    refine ⟨fun inside => ?_, fun one => absurd one (by omega)⟩
    have trim := trim_dropTrailing stem.reverse
    by_cases empty : dropTrailing stem.reverse = []
    · rw [parent?_of_nil (cut.trans empty)] at inside
      cases inside
    · rw [parent?_of_ne_nil cut empty, root, Option.some.injEq,
        folderOf_inj (trim_dropTrailing _) trim] at inside
      exact absurd inside (dropTrailing_dropWhile_ne trim empty)
  · rw [if_neg none] at cut
    rw [parent?_of_ne_nil cut (by simp), root, Option.some.injEq,
      folderOf_inj (trim_dropTrailing _) (trim_dropTrailing _)]
    rw [← solid_dropTrailing] at none ⊢
    rcases (trim_dropTrailing name.toList.reverse).cases with empty | dot |
      ⟨last, plain, filled, shape⟩
    · exact absurd (by rw [empty]; rfl) none
    · exact absurd (by rw [dot]; decide) none
    · have one : solid last = 1 := by rw [solid_of_notMem plain, if_pos filled]
      rcases shape with shape | ⟨rest, shape⟩
      · rw [shape, dropWhile_append_slash plain, dropTrailing_slash]
        exact ⟨fun _ => one, fun _ => rfl⟩
      · rw [shape, solid_slash, one, List.append_assoc, List.cons_append,
          dropWhile_append_slash plain, dropTrailing_slash, dropTrailing_append_slash]
        by_cases idle : solid rest = 0
        · rw [if_pos idle, idle]
          exact ⟨fun _ => rfl, fun _ => rfl⟩
        · rw [if_neg idle]
          refine ⟨fun same => ?_, fun single => absurd single (by omega)⟩
          have lengths := congrArg List.length same
          have short := (dropTrailing_suffix stem.reverse).length_le
          rw [List.length_append, List.length_cons] at lengths
          omega

/-! ### Around a name that is known -/

/-- All the names stand for nothing. -/
def Idle (names : List String) : Prop :=
  ∀ name ∈ names, name = "" ∨ name = "."

instance (names : List String) : Decidable (Idle names) :=
  inferInstanceAs (Decidable (∀ name ∈ names, _))

theorem idle_iff {names : List String} :
    Idle names ↔ names.countP (fun piece => piece ≠ "" ∧ piece ≠ ".") = 0 := by
  rw [List.countP_eq_zero]
  refine forall₂_congr fun name _ => ?_
  rw [decide_eq_true_eq, not_and_or, not_not, not_not]

/-- Text without a slash stands in one name, which goes on from the last name in front of it to the
first one behind. -/
theorem names_around (front back : String) {middle : String} (plain : '/' ∉ middle.toList) :
    ∃ stem ending, names (front ++ middle ++ back) =
      (names front).dropLast ++ (stem ++ middle ++ ending) :: (names back).tail := by
  obtain ⟨above, stem, before⟩ : ∃ above stem, pieces front.toList = above ++ [stem] :=
    ⟨_, _, (List.dropLast_append_getLast (pieces_ne_nil _)).symm⟩
  obtain ⟨ending, below, after⟩ := List.exists_cons_of_ne_nil (pieces_ne_nil back.toList)
  have cut : pieces (middle.toList ++ back.toList) = (middle.toList ++ ending) :: below :=
    pieces_append (pieces_of_notMem plain |>.trans (List.nil_append _).symm) after
  refine ⟨String.ofList stem, String.ofList ending, ?_⟩
  rw [names, names, names, String.toList_append, String.toList_append, List.append_assoc,
    pieces_append before cut, before, after]
  simp [String.append_assoc]

/-- **Which relative paths have the directory as their parent**, where a name with a mark in it
stands between texts that may have slashes. -/
theorem inside_join_iff_idle {front middle back : String} (given : directory ≠ "")
    (relative : isAbsolute front = false) (plain : '/' ∉ middle.toList)
    (marked : '_' ∈ middle.toList) :
    Inside directory (join directory (front ++ middle ++ back)) ↔
      Idle (names front).dropLast ∧ Idle (names back).tail := by
  have whole : isAbsolute (front ++ middle ++ back) = false := by
    obtain ⟨c, rest, shape⟩ := List.exists_cons_of_ne_nil (List.ne_nil_of_mem marked)
    have other : c ≠ '/' := by
      rintro rfl
      exact plain (shape ▸ List.mem_cons_self)
    cases text : front.toList with
    | nil => simp [isAbsolute, text, shape, other]
    | cons d front => simpa [isAbsolute, text] using relative
  obtain ⟨stem, ending, walked⟩ := names_around front back plain
  have solid : stem ++ middle ++ ending ≠ "" ∧ stem ++ middle ++ ending ≠ "." := by
    have present : '_' ∈ (stem ++ middle ++ ending).toList := by simp [marked]
    constructor <;> intro same <;> simp [same] at present
  rw [inside_join_iff given whole, walked, List.countP_append, List.countP_cons, if_pos
    (decide_eq_true solid), idle_iff, idle_iff]
  omega

end Transcode.Path
