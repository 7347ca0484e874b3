/-
**Paths of things in a directory.** A name without a slash, put behind a directory, is the last name
of the path, and what stands before it is the directory up to slashes and dots that stand for
nothing.

* `Path.pieces_append_slash`: the names before a slash, then the names after it;
  `Path.exists_pieces_around`: text without a slash stands in one name.
* `Path.names_join`: the name is the last one to walk through.
* `Path.parent?_join`: the parent of the path is the directory without what stands for nothing at
  its end (`Path.dropTrailing`).
-/
import Mathlib.Data.List.Infix
import Transcode.Disk.Path

namespace Transcode.Path

variable {directory name : String} {text : List Char}

/-! ### Cutting at slashes -/

theorem pieces_ne_nil (text : List Char) : pieces text ≠ [] := by
  fun_induction pieces text <;> simp_all

theorem pieces_append_slash (front back : List Char) :
    pieces (front ++ '/' :: back) = pieces front ++ pieces back := by
  fun_induction pieces front with
  | case1 => simp [pieces]
  | case2 rest ih => simp [pieces, ih]
  | case3 c rest _ none _ => exact absurd none (pieces_ne_nil rest)
  | case4 c rest _ first others some ih => simp [pieces, ih, some]

theorem pieces_of_notMem (plain : '/' ∉ text) : pieces text = [text] := by
  fun_induction pieces text with
  | case1 => rfl
  | case2 rest ih => simp at plain
  | case3 c rest _ none ih => simp_all
  | case4 c rest _ first others some ih => simp_all

/-- A character that is no slash stands at the front of the first piece. -/
theorem pieces_cons {c : Char} {rest first : List Char} {others : List (List Char)}
    (other : c ≠ '/') (cut : pieces rest = first :: others) :
    pieces (c :: rest) = (c :: first) :: others := by
  rw [pieces, cut]
  exact other

/-- Where two texts meet, the last piece of the first one goes on with the first piece of the
second. -/
theorem pieces_append {front back stem ending : List Char} {above below : List (List Char)}
    (before : pieces front = above ++ [stem]) (after : pieces back = ending :: below) :
    pieces (front ++ back) = above ++ (stem ++ ending) :: below := by
  induction front generalizing above stem with
  | nil =>
    obtain ⟨rfl, rfl⟩ : above = [] ∧ stem = [] := by
      cases above <;> simp_all [pieces]
    exact after
  | cons c rest ih =>
    obtain ⟨others, last, cut⟩ : ∃ others last, pieces rest = others ++ [last] :=
      ⟨_, _, (List.dropLast_append_getLast (pieces_ne_nil rest)).symm⟩
    have joined := ih cut
    rw [List.cons_append]
    by_cases slash : c = '/'
    · rw [slash, pieces, cut, ← List.cons_append] at before
      obtain ⟨rfl, rfl⟩ := List.append_singleton_inj.mp before
      rw [slash, pieces, joined, List.cons_append]
    · cases others with
      | nil =>
        rw [pieces_cons slash cut] at before
        obtain ⟨rfl, rfl⟩ := List.append_singleton_inj.mp (List.nil_append _ |>.trans before)
        exact pieces_cons slash joined
      | cons first others =>
        rw [List.cons_append] at cut
        rw [pieces_cons slash cut, ← List.cons_append] at before
        obtain ⟨rfl, rfl⟩ := List.append_singleton_inj.mp before
        exact pieces_cons slash joined

/-- Text without a slash stands in one piece, and the pieces around it are always the same. -/
theorem exists_pieces_around (front back : List Char) : ∃ above stem ending below,
    ∀ middle : List Char, '/' ∉ middle →
      pieces (front ++ (middle ++ back)) = above ++ (stem ++ (middle ++ ending)) :: below := by
  obtain ⟨above, stem, before⟩ : ∃ above stem, pieces front = above ++ [stem] :=
    ⟨_, _, (List.dropLast_append_getLast (pieces_ne_nil front)).symm⟩
  obtain ⟨ending, below, after⟩ := List.exists_cons_of_ne_nil (pieces_ne_nil back)
  refine ⟨above, stem, ending, below, fun middle plain => pieces_append before ?_⟩
  exact pieces_append ((pieces_of_notMem plain).trans (List.nil_append _).symm) after

/-! ### Names -/

/-- A name that leads from a folder to something inside it. -/
structure IsStep (name : String) : Prop where
  filled : name ≠ ""
  slash : '/' ∉ name.toList
  here : name ≠ "."
  above : name ≠ ".."

/-- A name that a folder can have an entry under. -/
structure IsName (name : String) : Prop extends IsStep name where
  nul : '\x00' ∉ name.toList

theorem IsStep.isAbsolute (proper : IsStep name) : isAbsolute name = false := by
  have other : name.toList.head? ≠ some '/' := fun first =>
    proper.slash (List.mem_of_mem_head? first)
  simpa [Path.isAbsolute] using other

theorem IsStep.pieces (proper : IsStep name) : pieces name.toList = [name.toList] :=
  pieces_of_notMem proper.slash

/-- A relative path is put behind one slash. -/
theorem exists_toList_join (given : directory ≠ "") :
    ∃ stem : List Char, (directory.toList = stem ∨ directory.toList = stem ++ ['/']) ∧
      ∀ {name : String}, isAbsolute name = false →
        (join directory name).toList = stem ++ '/' :: name.toList := by
  by_cases slashed : directory.toList.getLast? = some '/'
  · obtain ⟨stem, ends⟩ := List.getLast?_eq_some_iff.mp slashed
    exact ⟨stem, .inr ends, fun relative => by simp [join, relative, given, ends]⟩
  · exact ⟨_, .inl rfl, fun relative => by simp [join, relative, given, slashed]⟩

theorem join_empty (name : String) : join "" name = name := by
  simp [join]

theorem isAbsolute_join (directory : String) (relative : isAbsolute name = false) :
    isAbsolute (join directory name) = isAbsolute directory := by
  by_cases given : directory = ""
  · rw [given, join_empty, relative]
    rfl
  · have filled : directory.toList ≠ [] := by simpa using given
    obtain ⟨stem, ends, joined⟩ := exists_toList_join given
    rcases ends with ends | ends
    all_goals
      rw [ends] at filled
      rw [isAbsolute, isAbsolute, joined relative, ends]
      cases stem <;> simp_all

/-- The names to walk through to what is put behind the directory. -/
def above (directory : String) : List String :=
  if directory = "" then []
  else if directory.toList.getLast? = some '/' then (names directory).dropLast
  else names directory

theorem names_slash {stem text : List Char} (shape : directory.toList = stem ++ '/' :: text) :
    names directory = (pieces stem).map String.ofList ++ (pieces text).map String.ofList := by
  rw [names, shape, pieces_append_slash, List.map_append]

/-- A slash at the end of a directory adds an empty name. -/
theorem names_eq (given : directory ≠ "") :
    names directory = above directory ∨ names directory = above directory ++ [""] := by
  by_cases slashed : directory.toList.getLast? = some '/'
  · obtain ⟨stem, ends⟩ := List.getLast?_eq_some_iff.mp slashed
    right
    simp [above, given, slashed, names_slash ends, pieces]
  · exact .inl (by rw [above, if_neg given, if_neg slashed])

/-- A name is the last one to walk through. -/
theorem names_join (directory : String) (proper : IsStep name) :
    names (join directory name) = above directory ++ [name] := by
  by_cases given : directory = ""
  · rw [given, join_empty, names, proper.pieces, List.map_singleton, String.ofList_toList]
    rfl
  · by_cases slashed : directory.toList.getLast? = some '/'
    · obtain ⟨stem, ends⟩ := List.getLast?_eq_some_iff.mp slashed
      have joined : (join directory name).toList = stem ++ '/' :: name.toList := by
        simp [join, proper.isAbsolute, given, ends]
      simp [above, given, slashed, names_slash ends, names_slash joined, proper.pieces, pieces]
    · have joined : (join directory name).toList = directory.toList ++ '/' :: name.toList := by
        simp [join, proper.isAbsolute, given, slashed]
      rw [names_slash joined, proper.pieces, above, if_neg given, if_neg slashed, names,
        List.map_singleton, String.ofList_toList]

theorem isDotted_join (directory : String) (proper : IsStep name) :
    isDotted (join directory name) = false := by
  simp [isDotted, names_join directory proper, proper.here, proper.above]

/-- What a path is put behind depends only on how it begins. -/
theorem exists_toList_join_append (directory : String) {stem : String} (filled : stem ≠ "") :
    ∃ lead : List Char, ∀ rest : String,
      (join directory (stem ++ rest)).toList = lead ++ (stem.toList ++ rest.toList) := by
  have head (rest : String) : isAbsolute (stem ++ rest) = isAbsolute stem := by
    obtain ⟨c, others, shape⟩ := List.exists_cons_of_ne_nil (mt String.toList_eq_nil_iff.mp filled)
    simp [isAbsolute, shape]
  simp only [join, head]
  split_ifs
  · exact ⟨[], fun rest => by simp⟩
  · exact ⟨directory.toList, fun rest => by simp⟩
  · exact ⟨directory.toList ++ ['/'], fun rest => by simp⟩

/-! ### The directory of a path -/

/-- A name has nothing to drop at its end, whatever stands before it. -/
theorem dropTrailing_name (proper : IsStep name) (rest : List Char) :
    dropTrailing (name.toList.reverse ++ rest) = name.toList.reverse ++ rest := by
  have slash : '/' ∉ name.toList.reverse := by simpa using proper.slash
  have filled : name.toList.reverse ≠ [] := by simpa using proper.filled
  have here : name.toList.reverse ≠ ['.'] := by
    intro single
    have dot : name.toList = ['.'] := by simpa using congrArg List.reverse single
    exact proper.here (String.toList_inj.mp dot)
  generalize name.toList.reverse = last at slash filled here
  rw [dropTrailing]
  case x_1 =>
    rintro others shape
    cases last <;> simp_all
  case x_2 =>
    rintro others shape
    match last with
    | [] => exact filled rfl
    | [c] =>
      injection shape with first _
      exact here (by rw [first])
    | c :: d :: more =>
      injection shape with _ follows
      injection follows with second _
      simp [second] at slash

/-- A name is dropped as a whole. -/
theorem dropWhile_of_notMem (plain : '/' ∉ text) (rest : List Char) :
    (text ++ rest).dropWhile (· ≠ '/') = rest.dropWhile (· ≠ '/') := by
  refine List.dropWhile_append_of_pos fun c member => ?_
  have differs : c ≠ '/' := by
    rintro rfl
    exact plain member
  simpa using differs

theorem dropTrailing_slash (rest : List Char) : dropTrailing ('/' :: rest) = dropTrailing rest := by
  rw [dropTrailing]

/-- What is dropped stands at the end. -/
theorem dropTrailing_suffix (text : List Char) : dropTrailing text <:+ text := by
  fun_induction dropTrailing text with
  | case1 rest ih => exact ih.trans (List.suffix_cons ..)
  | case2 rest ih => exact ih.trans ((List.suffix_cons ..).trans (List.suffix_cons ..))
  | case3 text => exact List.suffix_refl _

/-- What is left of a directory without slashes and dots at its end. -/
def trimmed (directory : String) : String :=
  match dropTrailing directory.toList.reverse with
  | [] => if isAbsolute directory then "/" else ""
  | text => String.ofList text.reverse

theorem parent?_of_isStep (proper : IsStep name) : parent? name = some "" := by
  have kept : dropTrailing name.toList.reverse = name.toList.reverse := by
    simpa using dropTrailing_name proper []
  have gone : name.toList.reverse.dropWhile (· ≠ '/') = [] := by
    have slash : '/' ∉ name.toList.reverse := by simpa using proper.slash
    simpa using dropWhile_of_notMem slash []
  obtain ⟨c, others, shape⟩ : ∃ c others, name.toList.reverse = c :: others :=
    List.exists_cons_of_ne_nil (by simpa using proper.filled)
  rw [parent?, kept, proper.isAbsolute, shape]
  simp only
  rw [← shape, gone]
  rfl

theorem parent?_join (directory : String) (proper : IsStep name) :
    parent? (join directory name) = some (trimmed directory) := by
  by_cases given : directory = ""
  · rw [given, join_empty, parent?_of_isStep proper]
    rfl
  · obtain ⟨stem, ends, joined⟩ := exists_toList_join given
    have behind : (join directory name).toList.reverse =
        name.toList.reverse ++ '/' :: stem.reverse := by simp [joined proper.isAbsolute]
    have kept : dropTrailing directory.toList.reverse = dropTrailing stem.reverse := by
      rcases ends with ends | ends
      · rw [ends]
      · rw [ends, List.reverse_append]
        exact dropTrailing_slash _
    obtain ⟨c, others, shape⟩ : ∃ c others, name.toList.reverse ++ '/' :: stem.reverse =
        c :: others := List.exists_cons_of_ne_nil (by simp)
    rw [parent?, behind, dropTrailing_name proper, isAbsolute_join directory proper.isAbsolute,
      shape]
    simp only
    rw [← shape, dropWhile_of_notMem (by simpa using proper.slash),
      List.dropWhile_cons_of_neg (by simp), dropTrailing_slash, trimmed, kept]
    cases dropTrailing stem.reverse <;> rfl

/-! ### Lengths -/

theorem length_le_join (directory name : String) :
    name.toList.length ≤ (join directory name).toList.length := by
  have behind (front : String) : name.toList.length ≤ (front ++ name).toList.length := by
    rw [String.toList_append, List.length_append]
    exact Nat.le_add_left ..
  rw [join]
  split_ifs
  · exact le_refl _
  · exact behind directory
  · exact behind (directory ++ "/")

theorem length_le_join_left (directory : String) (relative : isAbsolute name = false) :
    directory.toList.length ≤ (join directory name).toList.length := by
  have before (back : String) : directory.toList.length ≤ (directory ++ back).toList.length := by
    rw [String.toList_append, List.length_append]
    exact Nat.le_add_right ..
  rw [join, relative, Bool.false_or]
  split_ifs with missing
  · rw [String.isEmpty_iff.mp missing]
    exact Nat.zero_le _
  · exact before name
  · rw [String.append_assoc]
    exact before ("/" ++ name)

end Transcode.Path
