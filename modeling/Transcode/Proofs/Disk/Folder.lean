/-
**Putting files into a folder that exists.** A path that leads to a folder also leads there without
the slashes and dots at its end, so nothing has to be made above a file in it, and only names and
paths that are too long are refused.

* `Disk.FolderAt.locate_join`: where a name in the folder leads.
* `Disk.makeFolders_of_folderAt`: making a folder that exists changes nothing.
* `Disk.FolderAt.persist_join`, `Disk.FolderAt.persist_cases`: a complete file is put in the folder
  and nothing else changes, or nothing changes at all.
* `Disk.FolderAt.set`, `Disk.FolderAt.persist`: the folder stays where it is.
-/
import Transcode.Proofs.Disk.Path
import Transcode.Proofs.Disk.View

namespace Transcode.Disk

variable {disk : Disk} {path directory name : String} {location start : Location}
  {text : List Char}

/-- The path leads to a folder at the location. -/
structure FolderAt (disk : Disk) (path : String) (location : Location) : Prop where
  located : disk.locate path = .ok location
  folder : disk.node? location = some .folder

theorem isFolder_iff : disk.isFolder path = true ↔ ∃ location, disk.FolderAt path location := by
  constructor
  · intro found
    simp only [isFolder, stat?, bind, Except.bind] at found
    split at found
    · next present =>
      split at present
      · cases present
      · next location located =>
        split at present <;> cases present
        exact ⟨location, located, ‹_›⟩
    · cases found
  · rintro ⟨location, located, folder⟩
    simp [isFolder, stat?, located, folder, bind, Except.bind]

/-! ### Locating -/

/-- Where following a path starts. -/
def origin (disk : Disk) (path : String) : Location :=
  if Path.isAbsolute path then [] else disk.home

theorem locate_eq_ok : disk.locate path = .ok location ↔
    '\x00' ∉ path.toList ∧ path ≠ "" ∧ path.utf8ByteSize ≤ maxPath ∧
      disk.follow (disk.origin path) (Path.names path) = .ok location := by
  unfold locate origin
  split_ifs <;> simp_all [Nat.not_le.mpr]

/-- A name and its path are within the limits. -/
def Addressable (directory name : String) : Prop :=
  name.utf8ByteSize ≤ maxName ∧ (Path.join directory name).utf8ByteSize ≤ maxPath

instance (directory name : String) : Decidable (Addressable directory name) :=
  inferInstanceAs (Decidable (_ ∧ _))

/-- A folder's entry is looked up by one more name. -/
theorem follow_name (folder : disk.node? location = some .folder) (proper : Path.IsStep name) :
    disk.follow location [name] =
      if name.utf8ByteSize ≤ maxName then .ok (location ++ [name]) else .error .nameTooLong := by
  rw [follow, folder]
  simp only [proper.filled, proper.here, proper.above, or_self, if_false, follow]
  split_ifs <;> first | rfl | omega

/-- Where a name in the folder leads. -/
theorem FolderAt.locate_join (here : disk.FolderAt directory location) (proper : Path.IsName name) :
    disk.locate (Path.join directory name) =
      if Addressable directory name then .ok (location ++ [name]) else .error .nameTooLong := by
  obtain ⟨clear, given, -, followed⟩ := locate_eq_ok.mp here.located
  have reached : disk.follow (disk.origin directory) (Path.above directory) = .ok location := by
    rcases Path.names_eq given with ends | ends
    · rwa [ends] at followed
    · exact follow_of_follow_idle (.inl rfl) (ends ▸ followed)
  have follows : disk.follow (disk.origin directory) (Path.names (Path.join directory name)) =
      if name.utf8ByteSize ≤ maxName then .ok (location ++ [name]) else .error .nameTooLong := by
    rw [Path.names_join directory proper.toIsStep, follow_append, reached, Except.bind,
      follow_name here.folder proper.toIsStep]
  obtain ⟨unmarked, filled⟩ : '\x00' ∉ (Path.join directory name).toList ∧
      Path.join directory name ≠ "" := by
    obtain ⟨stem, ends, joins⟩ := Path.exists_toList_join given
    have joined := joins proper.isAbsolute
    constructor
    · rw [joined]
      rcases ends with ends | ends <;> simp_all [proper.nul]
    · intro empty
      simp [empty] at joined
  rw [origin, ← Path.isAbsolute_join directory proper.isAbsolute] at follows
  rw [locate, if_neg (by simpa using unmarked), if_neg (by simpa using filled), follows]
  by_cases wide : (Path.join directory name).utf8ByteSize > maxPath
  · rw [if_pos wide, if_neg fun fit => Nat.not_le.mpr wide fit.2]
  · by_cases long : name.utf8ByteSize ≤ maxName
    · rw [if_neg wide, if_pos long, if_pos ⟨long, Nat.not_lt.mp wide⟩]
    · rw [if_neg wide, if_neg long, if_neg fun fit => long fit.1]

/-- A name with a NUL in it leads nowhere. -/
theorem FolderAt.locate_join_of_nul (here : disk.FolderAt directory location)
    (step : Path.IsStep name) (nul : '\x00' ∈ name.toList) :
    disk.locate (Path.join directory name) = .error .containsNul := by
  obtain ⟨-, given, -, -⟩ := locate_eq_ok.mp here.located
  obtain ⟨stem, -, joined⟩ := Path.exists_toList_join given
  rw [locate, if_pos (by simp [joined step.isAbsolute, nul])]

theorem stat?_eq_ok {node : Node} : disk.stat? path = .ok node ↔
    ∃ location, disk.locate path = .ok location ∧ disk.node? location = some node := by
  unfold stat?
  cases disk.locate path with
  | error error => simp [bind, Except.bind]
  | ok location => cases found : disk.node? location <;> simp [bind, Except.bind, found]

/-- On the way to what is found, each name but those that stand for a folder reached already leads
to an entry. -/
theorem exists_entry_of_stat? {node : Node} {above below : List String}
    (found : disk.stat? path = .ok node) (walked : Path.names path = above ++ name :: below)
    (filled : name ≠ "") (here : name ≠ ".") (up : name ≠ "..") :
    ∃ base, disk.follow (disk.origin path) above = .ok base ∧
      base ++ [name] ∈ disk.entries.map Prod.fst := by
  obtain ⟨location, located, present⟩ := stat?_eq_ok.mp found
  obtain ⟨-, -, -, followed⟩ := locate_eq_ok.mp located
  rw [walked, follow_append] at followed
  match reached : disk.follow (disk.origin path) above with
  | .error error => simp [reached, Except.bind] at followed
  | .ok base =>
    refine ⟨base, rfl, ?_⟩
    simp only [reached, Except.bind, follow, filled, here, up, or_self, if_false] at followed
    have entered : (disk.node? (base ++ [name])).isSome := by
      split at followed
      · cases followed
      · cases followed
      · split_ifs at followed
        exact isSome_of_follow followed (by rw [present]; rfl)
    rw [node?_of_ne_nil (by simp), List.lookup_isSome_iff] at entered
    obtain ⟨entry, member, same⟩ := entered
    exact List.mem_map.mpr ⟨entry, member, (beq_iff_eq.mp same).symm⟩

/-! ### What stands for nothing at the end of a path -/

/-- Text that was reversed leads from one location to another. -/
def Leads (disk : Disk) (start : Location) (text : List Char) (location : Location) : Prop :=
  disk.follow start ((Path.pieces text.reverse).map String.ofList) = .ok location

theorem Leads.of_slash (leads : disk.Leads start ('/' :: text) location) :
    disk.Leads start text location := by
  rw [Leads, List.reverse_cons, Path.pieces_append_slash, List.map_append] at leads
  exact follow_of_follow_idle (.inl rfl) leads

theorem Leads.of_dot (leads : disk.Leads start ('.' :: '/' :: text) location) :
    disk.Leads start text location := by
  rw [Leads, List.reverse_cons, List.reverse_cons, List.append_assoc, List.singleton_append,
    Path.pieces_append_slash, List.map_append] at leads
  exact follow_of_follow_idle (.inr rfl) leads

theorem Leads.dropTrailing (leads : disk.Leads start text location) :
    disk.Leads start (Path.dropTrailing text) location := by
  fun_induction Path.dropTrailing text with
  | case1 rest ih => exact ih leads.of_slash
  | case2 rest ih => exact ih leads.of_dot
  | case3 text => exact leads

theorem Leads.dropWhile (leads : disk.Leads start text location) :
    disk.Leads start (text.dropWhile (· = '/')) location := by
  induction text with
  | nil => exact leads
  | cons c rest ih =>
    by_cases slash : c = '/'
    · subst slash
      exact ih leads.of_slash
    · rwa [List.dropWhile_cons_of_neg (by simpa using slash)]

/-- A path without its end leads to the folder if its names do. -/
theorem FolderAt.of_suffix (here : disk.FolderAt path location)
    (tail : text <:+ path.toList.reverse) (filled : text ≠ [])
    (leads : disk.Leads (disk.origin path) text location) :
    disk.FolderAt (String.ofList text.reverse) location := by
  obtain ⟨clear, -, short, -⟩ := locate_eq_ok.mp here.located
  obtain ⟨gone, whole⟩ := tail
  have split : path = String.ofList text.reverse ++ String.ofList gone.reverse := by
    rw [← String.ofList_append, ← List.reverse_append, whole, List.reverse_reverse,
      String.ofList_toList]
  have start : disk.origin (String.ofList text.reverse) = disk.origin path := by
    obtain ⟨c, rest, shape⟩ := List.exists_cons_of_ne_nil (List.reverse_ne_nil_iff.mpr filled)
    simp [origin, Path.isAbsolute, split, shape]
  refine ⟨locate_eq_ok.mpr ⟨?_, ?_, ?_, ?_⟩, here.folder⟩
  · intro member
    exact clear (by rw [split]; simp_all)
  · simpa using filled
  · rw [split, String.utf8ByteSize_append] at short
    omega
  · rw [start, Path.names, String.toList_ofList]
    exact leads

theorem FolderAt.leads (here : disk.FolderAt path location) :
    disk.Leads (disk.origin path) path.toList.reverse location := by
  rw [Leads, List.reverse_reverse]
  exact (locate_eq_ok.mp here.located).2.2.2

theorem FolderAt.withoutTrailingSlash (here : disk.FolderAt path location) :
    disk.FolderAt (Disk.withoutTrailingSlash path) location := by
  have leads := here.leads.dropWhile
  have tail := List.dropWhile_suffix (l := path.toList.reverse) (· = '/')
  unfold Disk.withoutTrailingSlash
  cases left : path.toList.reverse.dropWhile (· = '/') with
  | nil => exact here
  | cons c text =>
    rw [left] at leads tail
    exact here.of_suffix tail (List.cons_ne_nil c text) leads

theorem folderAt_root (disk : Disk) : disk.FolderAt "/" [] :=
  ⟨locate_eq_ok.mpr ⟨by decide, by decide, by decide, rfl⟩, rfl⟩

/-- What is left of a path without slashes and dots at its end leads to the same folder, unless it
is the working directory. -/
theorem FolderAt.trimmed (here : disk.FolderAt path location) :
    Path.trimmed path = "" ∨ disk.FolderAt (Path.trimmed path) location := by
  have leads := here.leads.dropTrailing
  have tail := Path.dropTrailing_suffix path.toList.reverse
  unfold Path.trimmed
  cases left : Path.dropTrailing path.toList.reverse with
  | nil =>
    by_cases absolute : Path.isAbsolute path = true
    · have root : location = [] := by
        simpa [left, Leads, origin, absolute, Path.pieces, follow, node?] using leads.symm
      simp only [absolute, if_true]
      exact .inr (root ▸ disk.folderAt_root)
    · exact .inl (by simp [absolute])
  | cons c text =>
    rw [left] at leads tail
    exact .inr (here.of_suffix tail (List.cons_ne_nil c text) leads)

/-! ### Making folders -/

theorem makeFolder_of_folderAt (here : disk.FolderAt path location) :
    disk.makeFolder path = .error .alreadyExists := by
  simp [makeFolder, here.withoutTrailingSlash.located, here.folder, bind, Except.bind]

/-- Making a folder that exists changes nothing. -/
theorem makeFolders_of_folderAt (here : disk.FolderAt path location) :
    disk.makeFolders path = (.ok (), disk) := by
  have given : path.isEmpty = false := by simpa using (locate_eq_ok.mp here.located).2.1
  have found : disk.isFolder path = true := isFolder_iff.mpr ⟨location, here⟩
  rw [makeFolders, makeFoldersUpTo, given, makeFolder_of_folderAt here]
  simp [ensureFolder, makeFolder_of_folderAt here, found]

/-- Nothing has to be made above a name in the folder. -/
theorem FolderAt.makeFolders_parent (here : disk.FolderAt directory location)
    (proper : Path.IsStep name) :
    disk.makeFolders ((Path.parent? (Path.join directory name)).getD ".") = (.ok (), disk) := by
  rw [Path.parent?_join directory proper, Option.getD_some]
  rcases here.trimmed with empty | there
  · rw [empty]
    rfl
  · exact makeFolders_of_folderAt there

/-! ### Looking -/

/-- What lies under a name in the folder. -/
theorem FolderAt.stat?_join (here : disk.FolderAt directory location) (proper : Path.IsName name) :
    disk.stat? (Path.join directory name) =
      if Addressable directory name then
        match disk.node? (location ++ [name]) with
        | some node => .ok node
        | none => .error .notFound
      else .error .nameTooLong := by
  rw [stat?, here.locate_join proper]
  by_cases fit : Addressable directory name
  · rw [if_pos fit, if_pos fit]
    rfl
  · rw [if_neg fit, if_neg fit]
    rfl

theorem FolderAt.stat?_join_of_nul (here : disk.FolderAt directory location)
    (step : Path.IsStep name) (nul : '\x00' ∈ name.toList) :
    disk.stat? (Path.join directory name) = .error .containsNul := by
  rw [stat?, here.locate_join_of_nul step nul]
  rfl

theorem FolderAt.list (here : disk.FolderAt directory location) :
    disk.list directory = .ok (disk.childNames location) := by
  simp [Disk.list, here.located, here.folder, bind, Except.bind]

theorem isFile_iff : disk.isFile path = true ↔
    ∃ data executable, disk.stat? path = .ok (.file data executable) := by
  unfold isFile
  cases disk.stat? path with
  | error error => simp
  | ok node => cases node <;> simp

/-- A file can be read, and nothing else. -/
theorem isFile_iff_read : disk.isFile path = true ↔ ∃ data, disk.read path = .ok data := by
  rw [isFile_iff, read]
  cases disk.stat? path with
  | error error => simp [bind, Except.bind]
  | ok node => cases node <;> simp [bind, Except.bind]

theorem read_of_folder (folder : disk.stat? path = .ok .folder) :
    disk.read path = .error .isADirectory := by
  simp [read, folder, bind, Except.bind]

theorem read_of_error {error : IoError} (failed : disk.stat? path = .error error) :
    disk.read path = .error error := by
  simp [read, failed, bind, Except.bind]

/-! ### Putting a file in place -/

theorem endsInSlash_join (directory : String) (proper : Path.IsStep name) :
    endsInSlash (Path.join directory name) = false := by
  obtain ⟨front, joined⟩ : ∃ front, (Path.join directory name).toList = front ++ name.toList := by
    by_cases given : directory = ""
    · exact ⟨[], by rw [given, Path.join_empty, List.nil_append]⟩
    · obtain ⟨stem, -, joined⟩ := Path.exists_toList_join given
      exact ⟨stem ++ ['/'], by
        rw [joined proper.isAbsolute, List.append_assoc, List.singleton_append]⟩
  obtain ⟨c, last⟩ := Option.isSome_iff_exists.mp
    (List.getLast?_isSome.mpr (show name.toList ≠ [] by simpa using proper.filled))
  have other : c ≠ '/' := fun slash => proper.slash (slash ▸ List.mem_of_getLast? last)
  simp [endsInSlash, joined, List.getLast?_append, last, other]

theorem FolderAt.installAt_join (here : disk.FolderAt directory location)
    (proper : Path.IsName name) (data : Bytes) (clobber : Bool) :
    disk.installAt (Path.join directory name) data clobber =
      if Addressable directory name then disk.install (location ++ [name]) data clobber
      else .error .nameTooLong := by
  rw [installAt, endsInSlash_join directory proper.toIsStep, if_neg Bool.false_ne_true,
    here.locate_join proper, Path.isDotted_join directory proper.toIsStep]
  by_cases fit : Addressable directory name
  · rw [if_pos fit, if_pos fit]
    rfl
  · rw [if_neg fit, if_neg fit]
    rfl

/-- A complete file is put in the folder, and nothing else changes. -/
theorem FolderAt.persist_join (here : disk.FolderAt directory location) (proper : Path.IsName name)
    (data : Bytes) (clobber : Bool) :
    disk.persist (Path.join directory name) data clobber =
      if Addressable directory name then
        disk.commit (disk.install (location ++ [name]) data clobber)
      else (.error .nameTooLong, disk) := by
  simp only [persist, here.makeFolders_parent proper.toIsStep, here.installAt_join proper]
  split_ifs <;> rfl

/-- No file is put under a name with a NUL in it. -/
theorem FolderAt.persist_join_of_nul (here : disk.FolderAt directory location)
    (step : Path.IsStep name) (nul : '\x00' ∈ name.toList) (data : Bytes) (clobber : Bool) :
    disk.persist (Path.join directory name) data clobber = (.error .containsNul, disk) := by
  simp only [persist, here.makeFolders_parent step, installAt, endsInSlash_join directory step,
    here.locate_join_of_nul step nul]
  rfl

/-- The folder stays where it is when a file in it is put in place. -/
theorem FolderAt.set (here : disk.FolderAt directory location) {place : Location}
    (placed : place ≠ []) (free : disk.node? place ≠ some .folder) (node : Node) :
    (disk.set place node).FolderAt directory location := by
  have folders : ∀ other, disk.node? other = some .folder →
      (disk.set place node).node? other = some .folder := by
    intro other folder
    rw [node?_set disk placed, if_neg, folder]
    rintro rfl
    exact free folder
  obtain ⟨clear, given, short, followed⟩ := locate_eq_ok.mp here.located
  exact ⟨locate_eq_ok.mpr ⟨clear, given, short, follow_of_folders folders followed⟩,
    folders location here.folder⟩

/-- A complete file is put under a name and nothing else changes, or nothing changes at all. -/
theorem FolderAt.persist_cases (here : disk.FolderAt directory location)
    (step : Path.IsStep name) (data : Bytes) (clobber : Bool) :
    (disk.persist (Path.join directory name) data clobber).2 = disk ∨
      (disk.persist (Path.join directory name) data clobber).1 = .ok () ∧
        disk.node? (location ++ [name]) ≠ some .folder ∧
        (disk.persist (Path.join directory name) data clobber).2 =
          disk.set (location ++ [name]) (.file data false) := by
  by_cases nul : '\x00' ∈ name.toList
  · exact .inl (by rw [here.persist_join_of_nul step nul])
  · rw [here.persist_join ⟨step, nul⟩]
    split_ifs with short
    · cases installed : disk.install (location ++ [name]) data clobber with
      | error error => exact .inl rfl
      | ok later =>
        obtain ⟨free, rfl⟩ := eq_of_install installed
        exact .inr ⟨rfl, free, rfl⟩
    · exact .inl rfl

/-- The folder stays where it is, whether or not the file can be put there. -/
theorem FolderAt.persist (here : disk.FolderAt directory location) (step : Path.IsStep name)
    (data : Bytes) (clobber : Bool) :
    (disk.persist (Path.join directory name) data clobber).2.FolderAt directory location := by
  rcases here.persist_cases step data clobber with same | ⟨-, free, changed⟩
  · rwa [same]
  · rw [changed]
    exact here.set (by simp) free _

end Transcode.Disk
