/-
**Filling templates.** Paths are put into a template one after another, and each is looked for
placeholders that come later; what is meant is to put all of them in at once.

* `Template.fill` — all paths in the places of their placeholders, in one go.
* `Template.Tidy` — what the check makes sure of (`Template.check_eq_ok`): every opening brace
  begins a placeholder, but for one that is never closed.
* `Template.render_eq_fill` — a command that passes the check is rendered as it is filled, if no
  path can be taken for a placeholder whose turn comes later (`Template.InTurn`).
* `Template.render_iff`, `Template.render_perm_iff` — and only then, whatever the template: which
  paths can be put into every template that passes the check, in the given order and in any.
-/
import Mathlib.Data.List.Nodup
import Transcode.Codec.Template
import Transcode.Proofs.Codec.Stream
import Transcode.Proofs.Text.Replace

namespace Transcode

open Replace (Opens together)

/-! ### Placeholders -/

namespace Placeholder

variable {placeholder other : Placeholder}

theorem close_notMem_name (placeholder : Placeholder) : '\x7d' ∉ placeholder.name.toList := by
  cases placeholder <;> decide

theorem open_mem_mark (placeholder : Placeholder) : '\x7b' ∈ placeholder.mark :=
  List.mem_cons_self

theorem open_notMem_tail (placeholder : Placeholder) : '\x7b' ∉ placeholder.mark.tail := by
  cases placeholder <;> decide

theorem mark_ne_nil (placeholder : Placeholder) : placeholder.mark ≠ [] :=
  List.cons_ne_nil _ _

theorem close_mem_mark (placeholder : Placeholder) : '\x7d' ∈ placeholder.mark :=
  List.mem_append_right _ (List.mem_singleton_self _)

/-- The marks of two placeholders keep out of each other's way. -/
theorem eq_of_opens (opens : Opens placeholder.mark other.mark) : placeholder = other := by
  cases placeholder <;> cases other <;> first | rfl | exact absurd opens (by decide)

/-- Part of the path, or its end with what may follow it, can be taken for the placeholder. -/
def MistakenIn (placeholder : Placeholder) (path : String) : Prop :=
  Opens placeholder.mark path.toList

instance decidableMistakenIn (placeholder : Placeholder) (path : String) :
    Decidable (placeholder.MistakenIn path) :=
  inferInstanceAs (Decidable (Opens placeholder.mark path.toList))

end Placeholder

namespace Template

open Codec (Operation)

variable {operation : Operation} {template : Template} {bindings : List (Placeholder × String)}
  {text rest : List Char}

/-! ### Filling in one go -/

/-- Marks and what is put in their places. -/
def pairs (bindings : List (Placeholder × String)) : List (List Char × List Char) :=
  bindings.map fun binding => (binding.1.mark, binding.2.toList)

/-- An argument with the paths in the places of the placeholders, all in one go. -/
def fillArgument (bindings : List (Placeholder × String)) (argument : String) : String :=
  String.ofList (together (pairs bindings) 0 argument.toList)

/-- The command with all paths in their places. -/
def fill (template : Template) (bindings : List (Placeholder × String)) : List String :=
  template.map (fillArgument bindings)

theorem mem_pairs {pair : List Char × List Char} (member : pair ∈ pairs bindings) :
    ∃ binding ∈ bindings, pair = (binding.1.mark, binding.2.toList) := by
  obtain ⟨binding, present, same⟩ := List.mem_map.mp member
  exact ⟨binding, present, same.symm⟩

theorem starts_of_mem_pairs {pair : List Char × List Char} (member : pair ∈ pairs bindings) :
    ∃ rest, pair.1 = '\x7b' :: rest := by
  obtain ⟨binding, -, rfl⟩ := mem_pairs member
  exact ⟨_, rfl⟩

theorem close_mem_of_mem_pairs (pair : List Char × List Char) (member : pair ∈ pairs bindings) :
    '\x7d' ∈ pair.1 := by
  obtain ⟨binding, -, rfl⟩ := mem_pairs member
  exact binding.1.close_mem_mark

theorem distinct_pairs (distinct : (bindings.map Prod.fst).Nodup) :
    Replace.Distinct (pairs bindings) := by
  intro pair member another also text occurs starts
  obtain ⟨binding, present, rfl⟩ := mem_pairs member
  obtain ⟨other, listed, rfl⟩ := mem_pairs also
  have same := Placeholder.eq_of_opens
    (Replace.opens_of_prefix (Placeholder.mark_ne_nil _) occurs starts)
  rw [List.inj_on_of_nodup_map distinct present listed same]

/-- The order of the files makes no difference to what is filled in. -/
theorem fill_perm {order : List (Placeholder × String)} (distinct : (bindings.map Prod.fst).Nodup)
    (perm : order.Perm bindings) (template : Template) :
    template.fill order = template.fill bindings := by
  have same : fillArgument order = fillArgument bindings := by
    funext argument
    exact congrArg String.ofList
      (Replace.together_perm (distinct_pairs distinct) (perm.map _) 0 argument.toList)
  rw [fill, fill, same]

/-- Text between the placeholders is kept. -/
theorem together_plain (plain : '\x7b' ∉ text) (rest : List Char) :
    together (pairs bindings) 0 (text ++ rest) = text ++ together (pairs bindings) 0 rest :=
  Replace.together_append (fun _ => starts_of_mem_pairs) plain rest

/-- A placeholder that has a file. -/
theorem together_bound (distinct : (bindings.map Prod.fst).Nodup) {placeholder : Placeholder}
    {path : String} (bound : (placeholder, path) ∈ bindings) (rest : List Char) :
    together (pairs bindings) 0 (placeholder.mark ++ rest) =
      path.toList ++ together (pairs bindings) 0 rest :=
  Replace.together_pattern_append (distinct_pairs distinct) placeholder.mark_ne_nil
    (List.mem_map_of_mem bound) rest

/-- A placeholder that has none. -/
theorem together_free {placeholder : Placeholder} (free : placeholder ∉ bindings.map Prod.fst)
    (rest : List Char) :
    together (pairs bindings) 0 (placeholder.mark ++ rest) =
      placeholder.mark ++ together (pairs bindings) 0 rest := by
  have absent : ∀ pair ∈ pairs bindings,
      ¬ pair.1 <+: '\x7b' :: (placeholder.mark.tail ++ rest) := by
    intro pair member occurs
    obtain ⟨binding, present, rfl⟩ := mem_pairs member
    have same := Placeholder.eq_of_opens (Replace.opens_of_prefix (Placeholder.mark_ne_nil _)
      occurs (List.prefix_append placeholder.mark rest))
    exact free (same ▸ List.mem_map_of_mem present)
  show together (pairs bindings) 0 ('\x7b' :: (placeholder.mark.tail ++ rest)) =
    '\x7b' :: placeholder.mark.tail ++ _
  rw [Replace.together_cons absent, together_plain placeholder.open_notMem_tail, List.cons_append]

/-! ### What the check makes sure of -/

/-- Every opening brace begins one of the placeholders, but for one that is never closed. -/
inductive Tidy (offered : List Placeholder) : List Char → Prop
  | nil : Tidy offered []
  | plain {c : Char} {rest : List Char} : c ≠ '\x7b' → Tidy offered rest → Tidy offered (c :: rest)
  | slot {placeholder : Placeholder} {rest : List Char} :
      placeholder ∈ offered → Tidy offered rest → Tidy offered (placeholder.mark ++ rest)
  | loose {rest : List Char} : '\x7d' ∉ rest → Tidy offered ('\x7b' :: rest)

/-- What the reader of names has in its hands. -/
def held : Option (List Char) → List Char
  | none => []
  | some name => '\x7b' :: name.reverse

/-- **Names that are all offered** are placeholders, and nothing else is in braces. -/
theorem tidy_of_names {offered : List Placeholder} {reader : Option (List Char)}
    (inside : '\x7d' ∉ held reader)
    (known : ∀ name ∈ names reader text, name ∈ offered.map Placeholder.name) :
    Tidy offered (held reader ++ text) := by
  fun_induction names reader text with
  | case1 reader =>
    cases reader with
    | none => exact .nil
    | some name =>
      rw [List.append_nil]
      exact .loose fun member => inside (List.mem_cons_of_mem _ member)
  | case2 rest ih => exact ih (by decide) known
  | case3 c rest other ih => exact .plain other (ih inside known)
  | case4 name rest ih =>
    obtain ⟨placeholder, present, same⟩ := List.mem_map.mp (known _ List.mem_cons_self)
    have later := ih List.not_mem_nil fun name member => known name (List.mem_cons_of_mem _ member)
    have marked : held (some name) ++ '\x7d' :: rest = placeholder.mark ++ rest := by
      rw [Placeholder.mark, same, String.toList_ofList, held]
      simp only [List.cons_append, List.append_assoc, List.nil_append]
    rw [marked]
    exact .slot present later
  | case5 name c rest other ih =>
    have grown : held (some (c :: name)) = held (some name) ++ [c] := by
      rw [held, held, List.reverse_cons, List.cons_append]
    rw [grown, List.append_assoc] at ih
    refine ih (fun member => ?_) known
    rcases List.mem_append.mp member with member | member
    · exact inside member
    · exact other (List.mem_singleton.mp member).symm

theorem names_none_cons {c : Char} (other : c ≠ '\x7b') (rest : List Char) :
    names none (c :: rest) = names none rest := by
  rw [names, if_neg other]

theorem names_some_of_notMem {name : List Char} (absent : '\x7d' ∉ text) :
    names (some name) text = [] := by
  induction text generalizing name with
  | nil => rfl
  | cons c rest ih =>
    rw [List.mem_cons, not_or] at absent
    rw [names, if_neg (Ne.symm absent.1), ih absent.2]

theorem names_some_append {name : List Char} (absent : '\x7d' ∉ text) (rest : List Char) :
    names (some name) (text ++ '\x7d' :: rest) =
      String.ofList (name.reverse ++ text) :: names none rest := by
  induction text generalizing name with
  | nil =>
    rw [List.nil_append, names, if_pos rfl, List.append_nil]
  | cons c others ih =>
    rw [List.mem_cons, not_or] at absent
    rw [List.cons_append, names, if_neg (Ne.symm absent.1), ih absent.2, List.reverse_cons,
      List.append_assoc]
    rfl

/-- A placeholder names itself. -/
theorem names_mark (placeholder : Placeholder) (rest : List Char) :
    names none (placeholder.mark ++ rest) = placeholder.name :: names none rest := by
  have shape : placeholder.mark ++ rest =
      '\x7b' :: (placeholder.name.toList ++ '\x7d' :: rest) := by
    rw [Placeholder.mark]
    simp only [List.cons_append, List.append_assoc, List.nil_append]
  rw [shape, names, if_pos rfl, names_some_append placeholder.close_notMem_name, List.reverse_nil,
    List.nil_append, String.ofList_toList]

theorem Tidy.names_subset {offered : List Placeholder} (tidy : Tidy offered text) :
    ∀ name ∈ names none text, name ∈ offered.map Placeholder.name := by
  intro name member
  induction tidy with
  | nil => cases member
  | plain other _ ih =>
    rw [names_none_cons other] at member
    exact ih member
  | slot present _ ih =>
    rw [names_mark] at member
    rcases List.mem_cons.mp member with rfl | member
    · exact List.mem_map_of_mem present
    · exact ih member
  | loose never =>
    rw [names, if_pos rfl, names_some_of_notMem never] at member
    cases member

theorem tidy_of_notMem {offered : List Placeholder} (plain : '\x7b' ∉ text) :
    Tidy offered text := by
  induction text with
  | nil => exact .nil
  | cons c rest ih =>
    rw [List.mem_cons, not_or] at plain
    exact .plain (Ne.symm plain.1) (ih plain.2)

theorem forall_tidy_iff {offered : List Placeholder} :
    (∀ argument ∈ template, Tidy offered argument.toList) ↔
      ∀ name ∈ template.placeholders, name ∈ offered.map Placeholder.name := by
  constructor
  · intro tidy name member
    obtain ⟨argument, present, named⟩ := List.mem_flatMap.mp member
    exact (tidy argument present).names_subset name named
  · intro known argument present
    have named : ∀ name ∈ names none argument.toList, name ∈ template.placeholders :=
      fun name member => List.mem_flatMap.mpr ⟨argument, present, member⟩
    exact tidy_of_names List.not_mem_nil fun name member => known name (named name member)

/-- **The check** accepts commands of tidy arguments in which all that is needed is named. -/
theorem check_eq_ok :
    template.check operation = .ok () ↔
      template ≠ [] ∧ (∀ argument ∈ template, Tidy operation.offered argument.toList) ∧
        ∀ placeholder ∈ operation.needed, placeholder.name ∈ template.placeholders := by
  rw [forall_tidy_iff, check]
  by_cases empty : template = []
  · rw [empty]
    exact iff_of_false nofun fun all => all.1 rfl
  rw [List.isEmpty_eq_false_iff.mpr empty, if_neg Bool.false_ne_true]
  cases unknown : template.placeholders.find? fun name =>
      !(operation.offered.map Placeholder.name).contains name with
  | some name =>
    have absent : name ∉ operation.offered.map Placeholder.name := by
      simpa using List.find?_some unknown
    exact iff_of_false nofun fun all => absent (all.2.1 name (List.mem_of_find?_eq_some unknown))
  | none =>
    have known : ∀ name ∈ template.placeholders, name ∈ operation.offered.map Placeholder.name := by
      intro name member
      simpa using List.find?_eq_none.mp unknown name member
    cases missing : operation.needed.find? fun placeholder =>
        !template.placeholders.contains placeholder.name with
    | some placeholder =>
      have absent : placeholder.name ∉ template.placeholders := by
        simpa using List.find?_some missing
      exact iff_of_false nofun fun all =>
        absent (all.2.2 placeholder (List.mem_of_find?_eq_some missing))
    | none =>
      refine iff_of_true rfl ⟨empty, known, fun placeholder wanted => ?_⟩
      simpa using List.find?_eq_none.mp missing placeholder wanted

/-! ### One placeholder after another -/

/-- No file can be taken for a placeholder whose turn comes later. -/
def InTurn (bindings : List (Placeholder × String)) : Prop :=
  bindings.Pairwise fun file later => ¬ later.1.MistakenIn file.2

instance decidableInTurn (bindings : List (Placeholder × String)) : Decidable (InTurn bindings) :=
  inferInstanceAs (Decidable (bindings.Pairwise _))

/-- The text in which one file has been put in its places. -/
def put (text : List Char) (file : Placeholder × String) : List Char :=
  Replace.all file.1.mark file.2.toList text

/-- **One more file**, after those that are in their places. -/
theorem put_together {offered : List Placeholder} {file : Placeholder × String}
    (distinct : ((bindings ++ [file]).map Prod.fst).Nodup)
    (apart : ∀ earlier ∈ bindings, ¬ file.1.MistakenIn earlier.2) (tidy : Tidy offered text) :
    put (together (pairs bindings) 0 text) file = together (pairs (bindings ++ [file])) 0 text := by
  rw [put]
  have already : (bindings.map Prod.fst).Nodup := by
    rw [List.map_append] at distinct
    exact distinct.of_append_left
  have fresh : file.1 ∉ bindings.map Prod.fst := by
    rw [List.map_append] at distinct
    exact fun member => List.disjoint_of_nodup_append distinct member (List.mem_singleton_self _)
  induction tidy with
  | nil => rfl
  | @plain c rest other _ ih =>
    have alone : '\x7b' ∉ [c] := fun member => other (List.mem_singleton.mp member).symm
    have opened : ¬ Opens file.1.mark [c] := Replace.not_opens_of_notMem alone
    rw [← List.singleton_append, together_plain alone, together_plain alone,
      Replace.all_append opened, ih]
  | @slot placeholder rest present _ ih =>
    -- the file of the placeholder is in its place, or its turn is now, or it is still to come
    by_cases bound : placeholder ∈ bindings.map Prod.fst
    · obtain ⟨⟨_, path⟩, member, rfl⟩ := List.mem_map.mp bound
      rw [together_bound already member, together_bound distinct (List.mem_append_left _ member),
        Replace.all_append (apart _ member), ih]
    rw [together_free bound]
    by_cases same : placeholder = file.1
    · rw [same, Replace.all_pattern_append file.1.mark_ne_nil, ih,
        together_bound distinct (List.mem_append_right _ (List.mem_singleton_self _))]
    · have still : placeholder ∉ (bindings ++ [file]).map Prod.fst := by
        rw [List.map_append, List.mem_append, not_or]
        exact ⟨bound, fun member => same (List.mem_singleton.mp member)⟩
      have opened : ¬ Opens file.1.mark placeholder.mark :=
        fun opens => same (Placeholder.eq_of_opens opens).symm
      rw [together_free still, Replace.all_append opened, ih]
  | @loose rest never =>
    have absent : '\x7d' ∉ '\x7b' :: rest := by
      rw [List.mem_cons, not_or]
      exact ⟨by decide, never⟩
    rw [Replace.together_of_notMem close_mem_of_mem_pairs absent,
      Replace.together_of_notMem close_mem_of_mem_pairs absent,
      Replace.all_of_notMem file.1.close_mem_mark absent]

/-- **All files, one after another.** -/
theorem foldl_put {offered : List Placeholder} (distinct : (bindings.map Prod.fst).Nodup)
    (turn : InTurn bindings) (tidy : Tidy offered text) :
    bindings.foldl put text = together (pairs bindings) 0 text := by
  induction bindings using List.reverseRecOn with
  | nil => exact (Replace.together_nil text).symm
  | append_singleton files file ih =>
    obtain ⟨earlier, -, apart⟩ := List.pairwise_append.mp turn
    have kept : (files.map Prod.fst).Nodup := by
      rw [List.map_append] at distinct
      exact distinct.of_append_left
    rw [List.foldl_append, ih kept earlier]
    have alone : ∀ first ∈ files, ¬ file.1.MistakenIn first.2 :=
      fun first member => apart first member file List.mem_cons_self
    exact put_together distinct alone tidy

/-- A tidy argument is rendered as it is filled. -/
theorem renderArgument_eq_fillArgument {offered : List Placeholder} {argument : String}
    (distinct : (bindings.map Prod.fst).Nodup) (turn : InTurn bindings)
    (tidy : Tidy offered argument.toList) :
    renderArgument bindings argument = fillArgument bindings argument :=
  congrArg String.ofList (foldl_put distinct turn tidy)

/-- **A command that passes the check** is rendered as it is filled. -/
theorem render_eq_fill (checked : template.check operation = .ok ())
    (distinct : (bindings.map Prod.fst).Nodup) (turn : InTurn bindings) :
    template.render bindings = template.fill bindings := by
  obtain ⟨-, tidy, -⟩ := check_eq_ok.mp checked
  exact List.map_congr_left fun argument member =>
    renderArgument_eq_fillArgument distinct turn (tidy argument member)

theorem inTurn_of_apart (distinct : (bindings.map Prod.fst).Nodup)
    (apart : ∀ file ∈ bindings, ∀ other ∈ bindings, other.1 ≠ file.1 →
      ¬ other.1.MistakenIn file.2) : InTurn bindings := by
  refine (distinct.of_map Prod.fst).pairwise_of_forall_ne fun file member other also differ => ?_
  refine apart file member other also fun same => differ ?_
  exact (List.inj_on_of_nodup_map distinct also member same).symm

/-! ### Templates that show a mistake -/

theorem length_le_foldl_put
    (longer : ∀ file ∈ bindings, file.1.mark.length < file.2.toList.length) (text : List Char) :
    text.length ≤ (bindings.foldl put text).length := by
  induction bindings generalizing text with
  | nil => exact le_refl _
  | cons file files ih =>
    obtain ⟨here, later⟩ := List.forall_mem_cons.mp longer
    exact (Replace.length_le_all file.1.mark_ne_nil here.le text).trans (ih later _)

/-- A placeholder in the text makes it longer in the end. -/
theorem length_lt_foldl_put
    (longer : ∀ file ∈ bindings, file.1.mark.length < file.2.toList.length)
    {file : Placeholder × String} (member : file ∈ bindings) (occurs : file.1.mark <:+: text) :
    text.length < (bindings.foldl put text).length := by
  induction bindings with
  | nil => cases member
  | cons first files ih =>
    obtain ⟨here, later⟩ := List.forall_mem_cons.mp longer
    rw [List.foldl_cons]
    by_cases also : first.1.mark <:+: text
    · exact (Replace.length_lt_all first.1.mark_ne_nil here also).trans_le
        (length_le_foldl_put later _)
    · have other : file ≠ first := fun same => also (same ▸ occurs)
      rw [put, Replace.all_of_not_infix also]
      exact ih later (List.mem_of_ne_of_mem other member)

/-- Files whose placeholders the text does not have leave it as it is. -/
theorem foldl_put_of_free {placeholder : Placeholder} (free : placeholder ∉ bindings.map Prod.fst)
    (plain : '\x7b' ∉ rest) :
    bindings.foldl put (placeholder.mark ++ rest) = placeholder.mark ++ rest := by
  induction bindings with
  | nil => rfl
  | cons file files ih =>
    rw [List.map_cons, List.mem_cons, not_or] at free
    obtain ⟨other, later⟩ := free
    have opened : ¬ Opens file.1.mark placeholder.mark :=
      fun opens => other (Placeholder.eq_of_opens opens).symm
    rw [List.foldl_cons, put, Replace.all_append opened,
      Replace.all_of_notMem file.1.open_mem_mark plain, ih later]

/-- A placeholder alone waits for its file; then the later ones are looked for in the path. -/
theorem foldl_put_mark {before after : List (Placeholder × String)} {placeholder : Placeholder}
    {path : String} (free : placeholder ∉ before.map Prod.fst) (plain : '\x7b' ∉ rest) :
    (before ++ (placeholder, path) :: after).foldl put (placeholder.mark ++ rest) =
      after.foldl put (path.toList ++ rest) := by
  rw [List.foldl_append, foldl_put_of_free free plain, List.foldl_cons, put,
    Replace.all_pattern_append placeholder.mark_ne_nil,
    Replace.all_of_notMem placeholder.open_mem_mark plain]

/-- A file, and one whose turn comes later, for whose placeholder it can be taken. -/
theorem exists_mistaken (mistaken : ¬ InTurn bindings) :
    ∃ before file after later, bindings = before ++ file :: after ∧ later ∈ after ∧
      later.1.MistakenIn file.2 := by
  induction bindings with
  | nil => exact absurd .nil mistaken
  | cons first files ih =>
    by_cases turn : InTurn files
    · have here : ¬ ∀ later ∈ files, ¬ later.1.MistakenIn first.2 :=
        fun apart => mistaken (List.pairwise_cons.mpr ⟨apart, turn⟩)
      push Not at here
      obtain ⟨later, member, taken⟩ := here
      exact ⟨[], first, files, later, rfl, member, taken⟩
    · obtain ⟨before, file, after, later, rfl, member, taken⟩ := ih turn
      exact ⟨first :: before, file, after, later, rfl, member, taken⟩

/-- **Where a file is mistaken**, an argument shows it that has nothing but its placeholder and some
text in which no brace opens. -/
theorem exists_renderArgument_ne (distinct : (bindings.map Prod.fst).Nodup)
    (longer : ∀ file ∈ bindings, file.1.mark.length < file.2.toList.length)
    (mistaken : ¬ InTurn bindings) :
    ∃ placeholder ∈ bindings.map Prod.fst, ∃ rest : List Char, '\x7b' ∉ rest ∧
      renderArgument bindings (String.ofList (placeholder.mark ++ rest)) ≠
        fillArgument bindings (String.ofList (placeholder.mark ++ rest)) := by
  obtain ⟨before, ⟨placeholder, path⟩, after, later, rfl, member, taken⟩ := exists_mistaken mistaken
  obtain ⟨rest, ends, occurs⟩ := taken.exists_infix
  have plain : '\x7b' ∉ rest := fun inside => later.1.open_notMem_tail (ends.subset inside)
  have bound : (placeholder, path) ∈ before ++ (placeholder, path) :: after :=
    List.mem_append_right _ List.mem_cons_self
  refine ⟨placeholder, List.mem_map_of_mem bound, rest, plain, ?_⟩
  have free : placeholder ∉ before.map Prod.fst := by
    rw [List.map_append] at distinct
    exact fun inside => List.disjoint_of_nodup_append distinct inside List.mem_cons_self
  have filled : together (pairs (before ++ (placeholder, path) :: after)) 0
      (placeholder.mark ++ rest) = path.toList ++ rest := by
    rw [together_bound distinct bound, ← List.append_nil rest, together_plain plain]
    rfl
  intro same
  rw [renderArgument, fillArgument, String.toList_ofList, String.ofList_inj] at same
  have grown := length_lt_foldl_put (fun file inside => longer file
    (List.mem_append_right _ (List.mem_cons_of_mem _ inside))) member occurs
  rw [← foldl_put_mark free plain, ← filled] at grown
  exact absurd (congrArg List.length same) grown.ne'

/-- All files of the operation as they are, and one more argument. -/
def probe (operation : Operation) (placeholder : Placeholder) (rest : List Char) : Template :=
  operation.offered.map Commands.file ++ [String.ofList (placeholder.mark ++ rest)]

theorem needed_subset {placeholder : Placeholder} (needed : placeholder ∈ operation.needed) :
    placeholder ∈ operation.offered := by
  revert needed
  cases operation <;> cases placeholder <;> decide

theorem check_probe {placeholder : Placeholder} (offered : placeholder ∈ operation.offered)
    (plain : '\x7b' ∉ rest) : (probe operation placeholder rest).check operation = .ok () := by
  rw [check_eq_ok]
  refine ⟨List.append_ne_nil_of_right_ne_nil _ (List.cons_ne_nil _ _), ?_, ?_⟩
  · intro argument member
    rcases List.mem_append.mp member with member | member
    · obtain ⟨file, present, rfl⟩ := List.mem_map.mp member
      rw [Commands.file, String.toList_ofList, ← List.append_nil file.mark]
      exact .slot present .nil
    · rw [List.mem_singleton.mp member, String.toList_ofList]
      exact .slot offered (tidy_of_notMem plain)
  · intro file needed
    refine List.mem_flatMap.mpr ⟨Commands.file file, List.mem_append_left _
      (List.mem_map_of_mem (needed_subset needed)), ?_⟩
    rw [Commands.file, String.toList_ofList, ← List.append_nil file.mark, names_mark]
    exact List.mem_cons_self

end Template

namespace Commands

open Codec (Operation)

variable {commands : Commands} {operation : Operation} {bindings : List (Placeholder × String)}

/-- **The check of all commands** is that of each. -/
theorem check_eq_ok :
    commands.check = .ok () ↔
      ∀ operation, (commands.template operation).check operation = .ok () := by
  rw [check, forM_eq_ok]
  refine forall_congr' fun operation => ⟨fun checked => checked ?_, fun checked _ => checked⟩
  cases operation <;> decide

theorem template_set (commands : Commands) (operation : Operation) (template : Template) :
    (commands.set operation template).template operation = template := by
  cases operation <;> rfl

theorem template_set_of_ne {other : Operation} (apart : other ≠ operation) (template : Template) :
    (commands.set operation template).template other = commands.template other := by
  cases operation <;> cases other <;> first | rfl | exact absurd rfl apart

theorem check_set {template : Template} (checked : commands.check = .ok ())
    (passes : template.check operation = .ok ()) :
    (commands.set operation template).check = .ok () := by
  rw [check_eq_ok] at checked ⊢
  intro other
  by_cases same : other = operation
  · rw [same, template_set]
    exact passes
  · rw [template_set_of_ne same]
    exact checked other

theorem check_standard : standard.check = .ok () := by
  decide +kernel

end Commands

namespace Template

variable {operation : Codec.Operation} {bindings order : List (Placeholder × String)}

theorem nodup_offered (operation : Codec.Operation) : operation.offered.Nodup := by
  cases operation <;> decide

/-- **Which files can be put one after another** into every command that passes the check. -/
theorem render_iff (named : (bindings.map Prod.fst).Perm operation.offered)
    (longer : ∀ file ∈ bindings, file.1.mark.length < file.2.toList.length) :
    (∀ commands : Commands, commands.check = .ok () →
      (commands.template operation).render bindings = (commands.template operation).fill bindings) ↔
      InTurn bindings := by
  have distinct : (bindings.map Prod.fst).Nodup := named.nodup_iff.mpr (nodup_offered operation)
  constructor
  · intro same
    by_contra mistaken
    obtain ⟨placeholder, bound, rest, plain, differ⟩ :=
      exists_renderArgument_ne distinct longer mistaken
    have passes := check_probe (named.mem_iff.mp bound) plain
    have whole := same _ (Commands.check_set Commands.check_standard passes)
    rw [Commands.template_set] at whole
    have last := List.mem_append_right (operation.offered.map Commands.file)
      (List.mem_singleton_self (String.ofList (placeholder.mark ++ rest)))
    exact differ (List.map_inj_left.mp whole _ last)
  · intro turn commands checked
    exact render_eq_fill (Commands.check_eq_ok.mp checked operation) distinct turn

/-- **And which in any order.** -/
theorem render_perm_iff (named : (bindings.map Prod.fst).Perm operation.offered)
    (longer : ∀ file ∈ bindings, file.1.mark.length < file.2.toList.length) :
    (∀ order : List (Placeholder × String), order.Perm bindings →
      ∀ commands : Commands, commands.check = .ok () →
        (commands.template operation).render order =
          (commands.template operation).fill bindings) ↔
      ∀ file ∈ bindings, ∀ other ∈ bindings, other.1 ≠ file.1 → ¬ other.1.MistakenIn file.2 := by
  have distinct : (bindings.map Prod.fst).Nodup := named.nodup_iff.mpr (nodup_offered operation)
  have each : ∀ order : List (Placeholder × String), order.Perm bindings →
      ((∀ commands : Commands, commands.check = .ok () →
        (commands.template operation).render order =
          (commands.template operation).fill bindings) ↔ InTurn order) := by
    intro order perm
    have also := (perm.map Prod.fst).trans named
    rw [← render_iff also fun file member => longer file (perm.mem_iff.mp member)]
    simp only [fill_perm distinct perm]
  constructor
  · intro same file member other also differ
    have apart : other ≠ file := fun equal => differ (congrArg Prod.fst equal)
    have front : (file :: other :: (bindings.erase file).erase other).Perm bindings :=
      ((List.perm_cons_erase ((List.mem_erase_of_ne apart).mpr also)).symm.cons file).trans
        (List.perm_cons_erase member).symm
    have turn := (each _ front).mp (same _ front)
    exact (List.pairwise_cons.mp turn).1 other List.mem_cons_self
  · intro apart order perm
    refine (each order perm).mpr (inTurn_of_apart ((perm.map _).nodup_iff.mpr distinct) ?_)
    intro file member other also
    exact apart file (perm.mem_iff.mp member) other (perm.mem_iff.mp also)

end Template

end Transcode
