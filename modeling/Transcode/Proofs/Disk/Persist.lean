/-
**Putting files into a directory that may have to be made.** Once one file has been put there, the
directory stays, so what happens to further files depends on their names alone, and none of them
touches another.

* `Disk.Outlet`: files can be put in the directory, and it lies at a location.
* `Disk.exists_outlet_of_persist`: a file that has been put in place leaves such a directory.
* `Disk.Outlet.persist_eq_ok`: which files can be put there.
* `Disk.accepts_iff_of_persist`: putting one file in place does not decide about another.
* `Disk.Keeps.persist`: a file stays as it is while others are put in place, or cannot be.
* `Disk.file_of_persist`: whether it succeeds or not, no other file is made or changed.
-/
import Transcode.Proofs.Disk.Folder

namespace Transcode.Disk

variable {disk made later : Disk} {directory name other path : String}
  {location place base : Location} {data bytes : Bytes}

/-! ### Making folders -/

theorem makeFolder_eq_ok : disk.makeFolder path = .ok later ↔
    ∃ location, disk.locate (Disk.withoutTrailingSlash path) = .ok location ∧
      disk.node? location = none ∧ later = disk.set location .folder := by
  unfold makeFolder
  cases disk.locate (Disk.withoutTrailingSlash path) with
  | error error => simp [bind, Except.bind]
  | ok location => cases found : disk.node? location <;> simp [bind, Except.bind, found, eq_comm]

/-- The tree with more folders, and nothing else changed. -/
def Furnished (disk later : Disk) : Prop :=
  later.home = disk.home ∧ ∀ place, later.node? place = disk.node? place ∨
    (disk.node? place = none ∧ later.node? place = some .folder)

namespace Furnished

theorem refl (disk : Disk) : Furnished disk disk :=
  ⟨rfl, fun _ => .inl rfl⟩

theorem trans (first : Furnished disk made) (second : Furnished made later) :
    Furnished disk later := by
  refine ⟨second.1.trans first.1, fun place => ?_⟩
  rcases first.2 place with same | ⟨free, folder⟩
  · rw [← same]
    exact second.2 place
  · rcases second.2 place with same | ⟨free, -⟩
    · exact .inr ⟨free, same.trans folder⟩
    · rw [folder] at free
      cases free

theorem folder (furnished : Furnished disk later) (folder : disk.node? place = some .folder) :
    later.node? place = some .folder := by
  rcases furnished.2 place with same | ⟨free, -⟩
  · exact same.trans folder
  · rw [folder] at free
    cases free

theorem file {executable : Bool} (furnished : Furnished disk later)
    (file : later.node? place = some (.file data executable)) :
    disk.node? place = some (.file data executable) := by
  rcases furnished.2 place with same | ⟨-, folder⟩
  · exact same ▸ file
  · rw [folder] at file
    cases file

theorem ofMakeFolder (making : disk.makeFolder path = .ok later) : Furnished disk later := by
  obtain ⟨location, -, free, rfl⟩ := makeFolder_eq_ok.mp making
  have placed : location ≠ [] := by
    rintro rfl
    cases free
  refine ⟨rfl, fun place => ?_⟩
  rw [node?_set disk placed]
  split_ifs with here
  · exact .inr ⟨here ▸ free, rfl⟩
  · exact .inl rfl

theorem ensureFolder (disk : Disk) (path : String) :
    Furnished disk (disk.ensureFolder path).2 := by
  unfold Disk.ensureFolder
  split
  · exact ofMakeFolder ‹_›
  · split <;> exact refl disk

theorem makeFoldersUpTo (disk : Disk) (path : String) (fuel : Nat) :
    Furnished disk (disk.makeFoldersUpTo path fuel).2 := by
  fun_induction Disk.makeFoldersUpTo disk path fuel with
  | case1 => exact refl _
  | case2 => exact refl _
  | case3 path fuel given parent lacking above disk ran ih =>
    rw [ran] at ih
    exact ih.trans (ensureFolder disk path)
  | case4 path fuel given parent lacking above error disk ran ih =>
    rwa [ran] at ih
  | case5 path fuel given => exact ensureFolder _ path

theorem makeFolders (disk : Disk) (path : String) : Furnished disk (disk.makeFolders path).2 :=
  makeFoldersUpTo disk path _

end Furnished

/-- A folder that has been made, or was there, is there. -/
theorem exists_folderAt_of_ensureFolder (bare : Disk.withoutTrailingSlash path = path)
    (ensured : disk.ensureFolder path = (.ok (), later)) :
    ∃ location, later.FolderAt path location := by
  unfold Disk.ensureFolder at ensured
  split at ensured
  · next made making =>
    obtain ⟨-, rfl⟩ := Prod.mk.inj ensured
    have furnished := Furnished.ofMakeFolder making
    obtain ⟨location, located, free, rfl⟩ := makeFolder_eq_ok.mp making
    have placed : location ≠ [] := by
      rintro rfl
      cases free
    rw [bare] at located
    obtain ⟨clear, given, short, followed⟩ := locate_eq_ok.mp located
    refine ⟨location, locate_eq_ok.mpr ⟨clear, given, short, ?_⟩, ?_⟩
    · exact follow_of_folders (fun _ => furnished.folder) followed
    · rw [node?_set disk placed, if_pos rfl]
  · split at ensured
    · next found =>
      obtain ⟨-, rfl⟩ := Prod.mk.inj ensured
      exact isFolder_iff.mp found
    · cases ensured

theorem exists_folderAt_of_makeFolders (bare : Disk.withoutTrailingSlash path = path)
    (given : path ≠ "") (ensured : disk.makeFolders path = (.ok (), later)) :
    ∃ location, later.FolderAt path location := by
  rw [makeFolders, makeFoldersUpTo, if_neg (by simpa using given)] at ensured
  split at ensured
  · split at ensured
    · exact exists_folderAt_of_ensureFolder bare ensured
    · cases ensured
  · exact exists_folderAt_of_ensureFolder bare ensured

/-- Making folders a second time changes nothing. -/
theorem makeFolders_again (bare : Disk.withoutTrailingSlash path = path)
    (ensured : disk.makeFolders path = (.ok (), later)) :
    later.makeFolders path = (.ok (), later) := by
  by_cases given : path = ""
  · rw [given]
    rfl
  · obtain ⟨location, there⟩ := exists_folderAt_of_makeFolders bare given ensured
    exact makeFolders_of_folderAt there

theorem withoutTrailingSlash_trimmed (directory : String) :
    Disk.withoutTrailingSlash (Path.trimmed directory) = Path.trimmed directory := by
  have ends (text : List Char) : (Path.dropTrailing text).dropWhile (· = '/') =
      Path.dropTrailing text := by
    fun_induction Path.dropTrailing text with
    | case1 rest ih => exact ih
    | case2 rest ih => exact ih
    | case3 text bare =>
      cases text with
      | nil => rfl
      | cons c rest =>
        have other : c ≠ '/' := by
          rintro rfl
          exact bare rest rfl
        exact List.dropWhile_cons_of_neg (by simpa using other)
  unfold Path.trimmed
  cases left : Path.dropTrailing directory.toList.reverse with
  | nil => split_ifs <;> rfl
  | cons c text =>
    have kept := ends directory.toList.reverse
    rw [left] at kept
    simp only [Disk.withoutTrailingSlash, String.toList_ofList, List.reverse_reverse, kept]

/-! ### Locating -/

/-- The name can be followed in the directory. -/
def Fits (directory name : String) : Prop :=
  '\x00' ∉ (Path.join directory name).toList ∧ Addressable directory name

theorem origin_join (proper : Path.IsStep name) :
    disk.origin (Path.join directory name) = disk.origin directory := by
  rw [origin, origin, Path.isAbsolute_join directory proper.isAbsolute]

theorem locate_join_eq_ok (proper : Path.IsStep name) :
    disk.locate (Path.join directory name) = .ok location ↔ Fits directory name ∧
      ∃ base, disk.follow (disk.origin directory) (Path.above directory) = .ok base ∧
        disk.node? base = some .folder ∧ location = base ++ [name] := by
  have filled : Path.join directory name ≠ "" := by
    intro empty
    have lengths := Path.length_le_join directory name
    rw [empty] at lengths
    exact proper.filled (by simpa using lengths)
  rw [locate_eq_ok, origin_join proper, Path.names_join directory proper, follow_append, Fits,
    Addressable]
  cases disk.follow (disk.origin directory) (Path.above directory) with
  | error error => simp [Except.bind]
  | ok base =>
    simp only [Except.bind, Except.ok.injEq, exists_eq_left', ne_eq, filled, not_false_eq_true,
      true_and]
    by_cases folder : disk.node? base = some .folder
    · rw [follow_name folder proper]
      by_cases short : name.utf8ByteSize ≤ maxName
      · rw [if_pos short, Except.ok.injEq]
        constructor
        · rintro ⟨clear, wide, same⟩
          exact ⟨⟨clear, short, wide⟩, folder, same.symm⟩
        · rintro ⟨⟨clear, -, wide⟩, -, same⟩
          exact ⟨clear, wide, same.symm⟩
      · rw [if_neg short]
        constructor
        · rintro ⟨-, -, lost⟩
          cases lost
        · rintro ⟨⟨-, fit, -⟩, -⟩
          exact absurd fit short
    · have lost : disk.follow base [name] ≠ .ok location := by
        intro followed
        rw [follow] at followed
        split at followed
        · cases followed
        · cases followed
        · exact folder ‹_›
      simp [folder, lost]

/-! ### Putting a file in place -/

/-- A complete file can be put at the path. -/
def Accepts (disk : Disk) (path : String) (data : Bytes) : Prop :=
  (disk.persist path data true).1 = .ok ()

instance (disk : Disk) (path : String) (data : Bytes) : Decidable (disk.Accepts path data) :=
  inferInstanceAs (Decidable ((disk.persist path data true).1 = .ok ()))

theorem accepts_iff :
    disk.Accepts path data ↔ ∃ later, disk.persist path data true = (.ok (), later) :=
  ⟨fun accepts => ⟨_, Prod.ext accepts rfl⟩, fun ⟨_, wrote⟩ => congrArg Prod.fst wrote⟩

theorem commit_eq_ok {change : Except IoError Disk} :
    disk.commit change = (.ok (), later) ↔ change = .ok later := by
  cases change <;> simp [commit]

theorem installAt_eq_ok (proper : Path.IsStep name) :
    disk.installAt (Path.join directory name) data true = .ok later ↔
      ∃ location, disk.locate (Path.join directory name) = .ok location ∧
        disk.node? location ≠ some .folder ∧ later = disk.set location (.file data false) := by
  rw [installAt, endsInSlash_join directory proper, if_neg Bool.false_ne_true,
    Path.isDotted_join directory proper]
  cases disk.locate (Path.join directory name) with
  | error error => simp [bind, Except.bind]
  | ok location =>
    cases found : disk.node? location with
    | none => simp [bind, Except.bind, install, found, eq_comm]
    | some node => cases node <;> simp [bind, Except.bind, install, found, eq_comm]

theorem persist_of_ensured (proper : Path.IsStep name)
    (ensured : disk.makeFolders (Path.trimmed directory) = (.ok (), made)) :
    disk.persist (Path.join directory name) data true =
      made.commit (made.installAt (Path.join directory name) data true) := by
  rw [persist, Path.parent?_join directory proper, Option.getD_some, ensured]

/-- Files can be put in the directory, which lies at the location. -/
structure Outlet (disk : Disk) (directory : String) (base : Location) : Prop where
  ensured : disk.makeFolders (Path.trimmed directory) = (.ok (), disk)
  reached : disk.follow (disk.origin directory) (Path.above directory) = .ok base
  folder : disk.node? base = some .folder

namespace Outlet

theorem locate_eq_ok (outlet : disk.Outlet directory base) (proper : Path.IsStep name) :
    disk.locate (Path.join directory name) = .ok location ↔
      Fits directory name ∧ location = base ++ [name] := by
  rw [locate_join_eq_ok proper, outlet.reached]
  simp [outlet.folder]

theorem persist_eq_ok (outlet : disk.Outlet directory base) (proper : Path.IsStep name) :
    disk.persist (Path.join directory name) data true = (.ok (), later) ↔
      Fits directory name ∧ disk.node? (base ++ [name]) ≠ some .folder ∧
        later = disk.set (base ++ [name]) (.file data false) := by
  rw [persist_of_ensured proper outlet.ensured, commit_eq_ok, installAt_eq_ok proper]
  simp only [outlet.locate_eq_ok proper, and_assoc]
  exact ⟨fun ⟨_, fits, same, free, put⟩ => ⟨fits, same ▸ free, same ▸ put⟩,
    fun ⟨fits, free, put⟩ => ⟨_, fits, rfl, free, put⟩⟩

theorem accepts_iff (outlet : disk.Outlet directory base) (proper : Path.IsStep name) :
    disk.Accepts (Path.join directory name) data ↔
      Fits directory name ∧ disk.node? (base ++ [name]) ≠ some .folder := by
  simp [Disk.accepts_iff, outlet.persist_eq_ok proper]

/-- What cannot be put in the directory changes nothing. -/
theorem persist_snd (outlet : disk.Outlet directory base) (proper : Path.IsStep name)
    (refused : ¬ disk.Accepts (Path.join directory name) data) :
    (disk.persist (Path.join directory name) data true).2 = disk := by
  rw [Accepts, persist_of_ensured proper outlet.ensured] at refused
  rw [persist_of_ensured proper outlet.ensured]
  unfold commit at refused ⊢
  split at refused
  · exact absurd rfl refused
  · rfl

/-- The directory stays where it is when a file is put in place. -/
theorem set (outlet : disk.Outlet directory base) (placed : place ≠ [])
    (free : disk.node? place ≠ some .folder) (executable : Bool) :
    (disk.set place (.file data executable)).Outlet directory base := by
  have folders (other : Location) (folder : disk.node? other = some .folder) :
      (disk.set place (.file data executable)).node? other = some .folder := by
    rw [node?_set disk placed, if_neg, folder]
    rintro rfl
    exact free folder
  refine ⟨?_, follow_of_folders folders outlet.reached, folders base outlet.folder⟩
  by_cases given : Path.trimmed directory = ""
  · rw [given]
    rfl
  · obtain ⟨location, there⟩ := exists_folderAt_of_makeFolders
      (withoutTrailingSlash_trimmed directory) given outlet.ensured
    exact makeFolders_of_folderAt (there.set placed free _)

end Outlet

/-- A file that has been put in place leaves a directory that further files can be put in. -/
theorem exists_outlet_of_persist (proper : Path.IsStep name)
    (wrote : disk.persist (Path.join directory name) data true = (.ok (), later)) :
    ∃ made base, disk.makeFolders (Path.trimmed directory) = (.ok (), made) ∧
      made.Outlet directory base ∧ Fits directory name ∧
      made.node? (base ++ [name]) ≠ some .folder ∧
      later = made.set (base ++ [name]) (.file data false) := by
  match ran : disk.makeFolders (Path.trimmed directory) with
  | (.error error, made) =>
    rw [persist, Path.parent?_join directory proper, Option.getD_some, ran] at wrote
    cases wrote
  | (.ok (), made) =>
    rw [persist_of_ensured proper ran, commit_eq_ok, installAt_eq_ok proper] at wrote
    obtain ⟨location, located, free, rfl⟩ := wrote
    obtain ⟨fits, base, reached, folder, rfl⟩ := (locate_join_eq_ok proper).mp located
    exact ⟨made, base, rfl,
      ⟨makeFolders_again (withoutTrailingSlash_trimmed directory) ran, reached, folder⟩, fits,
      free, rfl⟩

/-- Whether a file can be put in place does not depend on what is in it. -/
theorem Accepts.congr (accepts : disk.Accepts (Path.join directory name) data)
    (proper : Path.IsStep name) (bytes : Bytes) :
    disk.Accepts (Path.join directory name) bytes := by
  obtain ⟨later, wrote⟩ := accepts_iff.mp accepts
  obtain ⟨made, base, ensured, outlet, fits, free, -⟩ := exists_outlet_of_persist proper wrote
  rw [Accepts, persist_of_ensured proper ensured, ← persist_of_ensured proper outlet.ensured]
  exact (outlet.accepts_iff proper).mpr ⟨fits, free⟩

/-- Putting one file in place does not decide about another. -/
theorem accepts_iff_of_persist (proper : Path.IsStep name) (step : Path.IsStep other)
    (wrote : disk.persist (Path.join directory name) data true = (.ok (), later)) :
    later.Accepts (Path.join directory other) bytes ↔
      disk.Accepts (Path.join directory other) bytes := by
  obtain ⟨made, base, ensured, outlet, -, free, rfl⟩ := exists_outlet_of_persist proper wrote
  have before : disk.Accepts (Path.join directory other) bytes ↔
      made.Accepts (Path.join directory other) bytes := by
    rw [Accepts, Accepts, persist_of_ensured step ensured, persist_of_ensured step outlet.ensured]
  have placed : base ++ [name] ≠ [] := by simp
  rw [before, outlet.accepts_iff step, (outlet.set placed free false).accepts_iff step,
    node?_set made placed]
  split_ifs with same
  · rw [same]
    simp [free]
  · rfl

/-! ### What stays -/

/-- The file stands in the directory, ready to be read, and the directory is there to stay. -/
def Keeps (disk : Disk) (directory name : String) (data : Bytes) : Prop :=
  ∃ base, disk.Outlet directory base ∧ Fits directory name ∧
    disk.node? (base ++ [name]) = some (.file data false)

theorem keeps_of_persist (proper : Path.IsStep name)
    (wrote : disk.persist (Path.join directory name) data true = (.ok (), later)) :
    later.Keeps directory name data := by
  obtain ⟨made, base, -, outlet, fits, free, rfl⟩ := exists_outlet_of_persist proper wrote
  have placed : base ++ [name] ≠ [] := by simp
  exact ⟨base, outlet.set placed free false, fits, by rw [node?_set made placed, if_pos rfl]⟩

namespace Keeps

theorem read (keeps : disk.Keeps directory name data) (proper : Path.IsStep name) :
    disk.read (Path.join directory name) = .ok data := by
  obtain ⟨base, outlet, fits, file⟩ := keeps
  have located := (outlet.locate_eq_ok proper).mpr ⟨fits, rfl⟩
  simp [Disk.read, stat?, located, file, bind, Except.bind]

/-- A file stays as it is while others are put in place, or cannot be. -/
theorem persist (keeps : disk.Keeps directory name data) (step : Path.IsStep other)
    (apart : other ≠ name) :
    (disk.persist (Path.join directory other) bytes true).2.Keeps directory name data := by
  by_cases accepts : disk.Accepts (Path.join directory other) bytes
  · obtain ⟨base, outlet, fits, file⟩ := keeps
    obtain ⟨later, wrote⟩ := accepts_iff.mp accepts
    obtain ⟨-, free, rfl⟩ := (outlet.persist_eq_ok step).mp wrote
    have placed : base ++ [other] ≠ [] := by simp
    rw [wrote]
    refine ⟨base, outlet.set placed free false, fits, ?_⟩
    rw [node?_set disk placed, if_neg (by simpa using Ne.symm apart), file]
  · obtain ⟨base, outlet, -⟩ := id keeps
    rwa [outlet.persist_snd step accepts]

end Keeps

/-- Whether it succeeds or not, no other file is made or changed. -/
theorem file_of_persist {executable : Bool} (proper : Path.IsStep name)
    (file : (disk.persist (Path.join directory name) data true).2.node? place =
      some (.file bytes executable)) :
    disk.node? place = some (.file bytes executable) ∨
      disk.Accepts (Path.join directory name) data ∧ place.getLast? = some name := by
  have furnished := Furnished.makeFolders disk (Path.trimmed directory)
  by_cases accepts : disk.Accepts (Path.join directory name) data
  · obtain ⟨later, wrote⟩ := accepts_iff.mp accepts
    obtain ⟨made, base, ensured, -, -, -, rfl⟩ := exists_outlet_of_persist proper wrote
    have placed : base ++ [name] ≠ [] := by simp
    rw [wrote, node?_set made placed] at file
    rw [ensured] at furnished
    split_ifs at file with here
    · exact .inr ⟨accepts, by rw [here, List.getLast?_concat]⟩
    · exact .inl (furnished.file file)
  · left
    rcases ran : disk.makeFolders (Path.trimmed directory) with ⟨error | ⟨⟨⟩⟩, made⟩
    · rw [Disk.persist, Path.parent?_join directory proper, Option.getD_some, ran] at file
      rw [ran] at furnished
      exact furnished.file file
    · rw [Accepts, persist_of_ensured proper ran] at accepts
      rw [persist_of_ensured proper ran] at file
      rw [ran] at furnished
      cases change : made.installAt (Path.join directory name) data true with
      | ok changed =>
        rw [change] at accepts
        exact absurd rfl accepts
      | error error =>
        rw [change] at file
        exact furnished.file file

end Transcode.Disk
