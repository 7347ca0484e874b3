/-
**Raw chunks of a source.** The chunks that are available are those in the files from number zero up
to the first one that is missing, wherever in the tree the workspace, the source and the extension
may lead.

* `ChunkFolder.le_length_entries` — every file of a chunk takes an entry of its own, so counting
  them comes to an end in every tree.
* `ChunkFolder.lt_available_iff`: which chunks are counted.
* `ChunkFolder.split_congr`: splitting depends on what lies under the paths of the chunks alone.
* `ChunkFolder.splits_all_or_none` — splitting yields all chunks that were asked for, or says what
  is there instead of the first one that is missing.
-/
import Mathlib.Data.List.Nodup
import Mathlib.Data.List.Range
import Transcode.Proofs.Disk.Folder
import Transcode.Proofs.FileName.Roles
import Transcode.Source.Folder

namespace Transcode.ChunkFolder

variable {folder : ChunkFolder} {source : String} {disk : Disk} {first index count : Nat}

/-! ### The files of a source -/

/-- The workspace is put before all names of a source alike. -/
theorem exists_toList_join (folder : ChunkFolder) (source : String) :
    ∃ front : List Char, front ≠ [] ∧ ∀ rest : String,
      (Path.join folder.workspace (source ++ "_" ++ rest)).toList = front ++ rest.toList := by
  obtain ⟨lead, joined⟩ := Path.exists_toList_join_append folder.workspace
    (show source ++ "_" ≠ "" by simp)
  exact ⟨lead ++ (source ++ "_").toList, by simp, fun rest => by rw [joined, List.append_assoc]⟩

theorem path_eq (folder : ChunkFolder) (source : String) (chunk : ChunkIndex) :
    folder.path source chunk =
      Path.join folder.workspace (source ++ "_" ++ (chunk.label ++ "." ++ folder.extension)) := by
  simp [path, FileName.rawChunk, String.append_assoc]

theorem toList_label_append (chunk : ChunkIndex) (extension : String) :
    (chunk.label ++ "." ++ extension).toList =
      Number.paddedDigits 2 chunk ++ '.' :: extension.toList := by
  simp [ChunkIndex.label, Number.padded]

/-- The paths of the chunks of a source differ in the number only. -/
theorem exists_toList_path (folder : ChunkFolder) (source : String) :
    ∃ front : List Char, front ≠ [] ∧ ∀ chunk, (folder.path source chunk).toList =
      front ++ (Number.paddedDigits 2 chunk ++ '.' :: folder.extension.toList) := by
  obtain ⟨front, filled, joined⟩ := exists_toList_join folder source
  exact ⟨front, filled, fun chunk => by rw [path_eq, joined, toList_label_append]⟩

/-- They differ in one name, which is neither empty nor made of dots. -/
theorem exists_names_path (folder : ChunkFolder) (source : String) :
    ∃ (above below : List String) (name : ChunkIndex → String), Function.Injective name ∧
      (∀ chunk, name chunk ≠ "" ∧ name chunk ≠ "." ∧ name chunk ≠ "..") ∧
      ∀ chunk, Path.names (folder.path source chunk) = above ++ name chunk :: below := by
  obtain ⟨front, -, paths⟩ := exists_toList_path folder source
  obtain ⟨above, stem, ending, below, cut⟩ :=
    Path.exists_pieces_around front ('.' :: folder.extension.toList)
  let name (chunk : ChunkIndex) : String :=
    String.ofList (stem ++ (Number.paddedDigits 2 chunk ++ ending))
  refine ⟨above.map String.ofList, below.map String.ofList, name, ?_, fun chunk => ?_,
    fun chunk => ?_⟩
  · intro chunk other same
    have texts := congrArg String.toList same
    simp only [name, String.toList_ofList, List.append_cancel_left_eq,
      List.append_cancel_right_eq] at texts
    exact FileName.paddedDigits_inj 2 texts
  · obtain ⟨filled, decimal, -⟩ :=
      Number.ofDigits?_eq_some.mp (Number.ofDigits?_paddedDigits 2 chunk)
    obtain ⟨c, rest, shape⟩ := List.exists_cons_of_ne_nil filled
    have member : c ∈ (name chunk).toList := by simp [name, shape]
    have digit : c.isDigit = true := List.all_eq_true.mp decimal c (by simp [shape])
    have other (word : String) (plain : (word.toList.any Char.isDigit) = false) :
        name chunk ≠ word := by
      rintro rfl
      exact absurd digit (List.any_eq_false.mp plain c member)
    exact ⟨other _ (by decide), other _ (by decide), other _ (by decide)⟩
  · rw [Path.names, paths, cut _ (FileName.slash_notMem_paddedDigits 2 chunk), List.map_append,
      List.map_cons]

theorem origin_path (folder : ChunkFolder) (source : String) (disk : Disk)
    (chunk other : ChunkIndex) :
    disk.origin (folder.path source chunk) = disk.origin (folder.path source other) := by
  obtain ⟨front, filled, paths⟩ := exists_toList_path folder source
  obtain ⟨c, rest, shape⟩ := List.exists_cons_of_ne_nil filled
  simp [Disk.origin, Path.isAbsolute, paths, shape]

/-- **Each chunk has an entry of its own** on the way to its file. So a source has no more chunks in
files than there are entries in the tree, wherever the source and the extension may lead. -/
theorem le_length_entries (files : ∀ chunk < count, disk.isFile (folder.path source chunk) = true) :
    count ≤ disk.entries.length := by
  obtain ⟨above, below, name, apart, proper, walked⟩ := exists_names_path folder source
  have entered (chunk : ChunkIndex) (small : chunk < count) :
      ∃ base, disk.follow (disk.origin (folder.path source 0)) above = .ok base ∧
        base ++ [name chunk] ∈ disk.entries.map Prod.fst := by
    obtain ⟨data, executable, found⟩ := Disk.isFile_iff.mp (files chunk small)
    obtain ⟨filled, here, up⟩ := proper chunk
    rw [origin_path folder source disk 0 chunk]
    exact Disk.exists_entry_of_stat? found (walked chunk) filled here up
  rcases Nat.eq_zero_or_pos count with rfl | some
  · exact Nat.zero_le _
  obtain ⟨base, reached, -⟩ := entered 0 some
  have distinct : ((List.range count).map fun chunk => base ++ [name chunk]).Nodup :=
    List.Nodup.map (fun chunk other same => apart (by simpa using same)) List.nodup_range
  have included : ((List.range count).map fun chunk => base ++ [name chunk]) ⊆
      disk.entries.map Prod.fst := by
    intro place member
    obtain ⟨chunk, small, rfl⟩ := List.mem_map.mp member
    obtain ⟨other, same, found⟩ := entered chunk (List.mem_range.mp small)
    obtain rfl : base = other := Except.ok.inj (reached.symm.trans same)
    exact found
  simpa using distinct.length_le_of_subset included

/-! ### Counting -/

/-- What is counted are files. -/
theorem isFile_of_lt_availableFrom {fuel : Nat}
    (counted : index < folder.availableFrom source disk first fuel) :
    disk.isFile (folder.path source (first + index)) = true := by
  induction fuel generalizing first index with
  | zero => cases counted
  | succ fuel ih =>
    rw [availableFrom] at counted
    split_ifs at counted with file
    · cases index with
      | zero => exact file
      | succ index =>
        have found := ih (Nat.lt_of_succ_lt_succ counted)
        rwa [Nat.add_right_comm] at found
    · cases counted

/-- Counting stops at a file that is missing, unless the fuel has run out. -/
theorem not_isFile_availableFrom {fuel : Nat}
    (left : folder.availableFrom source disk first fuel < fuel) :
    disk.isFile (folder.path source (first + folder.availableFrom source disk first fuel)) =
      false := by
  induction fuel generalizing first with
  | zero => cases left
  | succ fuel ih =>
    rw [availableFrom] at left ⊢
    split_ifs at left ⊢ with file
    · have stopped := ih (Nat.lt_of_succ_lt_succ left)
      rwa [Nat.add_right_comm] at stopped
    · simpa using file

theorem isFile_of_lt_available (counted : index < folder.available source disk) :
    disk.isFile (folder.path source index) = true := by
  have file := isFile_of_lt_availableFrom counted
  rwa [Nat.zero_add] at file

/-- **Counting stops at a file that is missing**: it has gone through all entries before it would
stop for any other reason. -/
theorem not_isFile_available (folder : ChunkFolder) (source : String) (disk : Disk) :
    disk.isFile (folder.path source (folder.available source disk)) = false := by
  have few : folder.available source disk ≤ disk.entries.length :=
    le_length_entries fun _ => isFile_of_lt_available
  have missing := not_isFile_availableFrom (Nat.lt_succ_of_le few)
  rwa [Nat.zero_add] at missing

/-- The chunks that are counted are those with all chunks before them in their files. -/
theorem lt_available_iff : index < folder.available source disk ↔
    ∀ earlier ≤ index, disk.isFile (folder.path source earlier) = true := by
  constructor
  · intro counted earlier small
    exact isFile_of_lt_available (Nat.lt_of_le_of_lt small counted)
  · intro files
    refine Nat.lt_of_not_le fun small => ?_
    have missing := not_isFile_available folder source disk
    rw [files _ small] at missing
    cases missing

theorem exists_read_available (folder : ChunkFolder) (source : String) (disk : Disk) :
    ∃ error, disk.read (folder.path source (folder.available source disk)) = .error error := by
  have missing := not_isFile_available folder source disk
  cases read : disk.read (folder.path source (folder.available source disk)) with
  | error error => exact ⟨error, rfl⟩
  | ok data =>
    rw [Disk.isFile_iff_read.mpr ⟨data, read⟩] at missing
    cases missing

/-! ### Reading -/

theorem chunk_of_read {data : Bytes} (read : disk.read (folder.path source index) = .ok data) :
    folder.chunk source disk count index = .ok ⟨index, folder.path source index, data⟩ := by
  unfold chunk
  rw [read]

theorem chunk_of_error {error : IoError}
    (failed : disk.read (folder.path source index) = .error error) :
    folder.chunk source disk count index =
      .error (folder.failure source disk count index error) := by
  unfold chunk
  rw [failed]

/-- Where all the files are there, all the chunks are read. -/
theorem chunksFrom_of_files (first : Nat) {remaining : Nat}
    (files : ∀ place < remaining, disk.isFile (folder.path source (first + place)) = true) :
    ∃ chunks, folder.chunksFrom source disk count first remaining = .ok chunks ∧
      chunks.length = remaining ∧ ∀ place < remaining, ∃ data,
        disk.read (folder.path source (first + place)) = .ok data ∧
          chunks[place]? = some ⟨first + place, folder.path source (first + place), data⟩ := by
  induction remaining generalizing first with
  | zero => exact ⟨[], rfl, rfl, fun _ none => absurd none (Nat.not_lt_zero _)⟩
  | succ remaining ih =>
    obtain ⟨data, read⟩ := Disk.isFile_iff_read.mp (files 0 (Nat.succ_pos _))
    obtain ⟨chunks, loaded, length, each⟩ := ih (first + 1) fun place small => by
      rw [Nat.add_right_comm]
      exact files (place + 1) (Nat.succ_lt_succ small)
    rw [Nat.add_zero] at read
    refine ⟨⟨first, folder.path source first, data⟩ :: chunks, ?_, by simp [length], ?_⟩
    · rw [chunksFrom, chunk_of_read read, loaded]
      rfl
    · intro place small
      cases place with
      | zero => exact ⟨data, read, rfl⟩
      | succ place =>
        obtain ⟨data, read, here⟩ := each place (Nat.lt_of_succ_lt_succ small)
        rw [Nat.add_right_comm] at read here
        exact ⟨data, read, here⟩

/-- The first file that cannot be read is what stops the reading. -/
theorem chunksFrom_of_gap (first gap : Nat) {remaining : Nat} {error : IoError}
    (files : ∀ place < gap, disk.isFile (folder.path source (first + place)) = true)
    (asked : gap < remaining)
    (failed : disk.read (folder.path source (first + gap)) = .error error) :
    folder.chunksFrom source disk count first remaining =
      .error (folder.failure source disk count (first + gap) error) := by
  induction remaining generalizing first gap with
  | zero => cases asked
  | succ remaining ih =>
    cases gap with
    | zero =>
      rw [Nat.add_zero] at failed ⊢
      rw [chunksFrom, chunk_of_error failed]
      rfl
    | succ gap =>
      obtain ⟨data, read⟩ := Disk.isFile_iff_read.mp (files 0 (Nat.succ_pos _))
      rw [Nat.add_zero] at read
      have onward := ih (first + 1) gap
        (fun place small => by
          rw [Nat.add_right_comm]
          exact files (place + 1) (Nat.succ_lt_succ small))
        (Nat.lt_of_succ_lt_succ asked) (by
          rw [Nat.add_right_comm]
          exact failed)
      have number : first + 1 + gap = first + (gap + 1) := Nat.add_right_comm ..
      rw [number] at onward
      rw [chunksFrom, chunk_of_read read, onward]
      rfl

/-! ### Splitting -/

/-- Where there are too few files, the first one that is missing says why. -/
theorem split_of_few {error : IoError} (asked : folder.available source disk < count)
    (failed : disk.read (folder.path source (folder.available source disk)) = .error error) :
    folder.split source count disk = .error (
      if error = .notFound then .chunkCount source count (folder.available source disk)
      else .io error) := by
  have stopped : folder.chunksFrom source disk count 0 count = .error (folder.failure source disk
      count (0 + folder.available source disk) error) := by
    refine chunksFrom_of_gap 0 _ (fun place small => ?_) asked ?_
    · rw [Nat.zero_add]
      exact isFile_of_lt_available small
    · rwa [Nat.zero_add]
  rw [split, if_neg (Nat.ne_zero_of_lt asked), stopped, failure]
  simp only [if_pos asked]

/-- Where there are enough files, the chunks are what is in the first of them. -/
theorem split_of_enough (some : 1 ≤ count) (enough : count ≤ folder.available source disk) :
    ∃ chunks, folder.split source count disk = .ok chunks ∧ chunks.length = count ∧
      ∀ index < count, ∃ data, disk.read (folder.path source index) = .ok data ∧
        chunks[index]? = .some ⟨index, folder.path source index, data⟩ := by
  have read : ∃ chunks, folder.chunksFrom source disk count 0 count = .ok chunks ∧ _ :=
    chunksFrom_of_files 0 fun place small => by
      rw [Nat.zero_add]
      exact isFile_of_lt_available (Nat.lt_of_lt_of_le small enough)
  rw [split, if_neg (Nat.ne_zero_of_lt some)]
  simpa only [Nat.zero_add] using read

/-! ### What splitting depends on -/

section Congruence

variable {later : Disk} (same : ∀ chunk,
  disk.stat? (folder.path source chunk) = later.stat? (folder.path source chunk))
include same

theorem available_congr : folder.available source disk = folder.available source later := by
  refine eq_of_forall_lt_iff fun index => ?_
  simp only [lt_available_iff, Disk.isFile, same]

theorem chunk_congr (index : ChunkIndex) :
    folder.chunk source disk count index = folder.chunk source later count index := by
  unfold chunk Disk.read failure
  rw [same, available_congr same]

theorem chunksFrom_congr (first remaining : Nat) :
    folder.chunksFrom source disk count first remaining =
      folder.chunksFrom source later count first remaining := by
  induction remaining generalizing first with
  | zero => rfl
  | succ remaining ih => rw [chunksFrom, chunksFrom, chunk_congr same, ih]

/-- Trees that show the same under the paths of the chunks yield the same. -/
theorem split_congr (count : Nat) :
    folder.split source count disk = folder.split source count later := by
  rw [split, split, available_congr same, chunksFrom_congr same]

end Congruence

/-! ### All or none -/

/-- **All the chunks or none.** The number of available chunks is that of the files from chunk zero
up to the first one that is missing. Splitting yields a result just if at least one chunk is asked
for and so many are available; then it is that many chunks, each with its number, its path and what
is in its file. If there are too few, the first file that is missing decides: where there is
nothing, the error counts the chunks that are available, and where there is something else than a
file, it is the error of reading it. That a chunk is missing although enough are available is never
said. -/
theorem splits_all_or_none (folder : ChunkFolder) (source : String) (disk : Disk) (count : Nat) :
    (∀ index, index < folder.available source disk ↔
      ∀ earlier ≤ index, disk.isFile (folder.path source earlier) = true) ∧
    ((∃ chunks, folder.split source count disk = .ok chunks) ↔
      1 ≤ count ∧ count ≤ folder.available source disk) ∧
    (∀ chunks, folder.split source count disk = .ok chunks →
      chunks.length = count ∧ ∀ index < count, ∃ data,
        disk.read (folder.path source index) = .ok data ∧
          chunks[index]? = some ⟨index, folder.path source index, data⟩) ∧
    (1 ≤ count → folder.available source disk < count →
      let missing := folder.path source (folder.available source disk)
      (disk.stat? missing = .error .notFound → folder.split source count disk =
        .error (.chunkCount source count (folder.available source disk))) ∧
      (disk.stat? missing = .ok .folder →
        folder.split source count disk = .error (.io .isADirectory)) ∧
      ∀ error, disk.stat? missing = .error error → error ≠ .notFound →
        folder.split source count disk = .error (.io error)) ∧
    ∀ path, folder.split source count disk ≠ .error (.missingChunk path) := by
  obtain ⟨reason, unread⟩ := exists_read_available folder source disk
  have few (asked : folder.available source disk < count) := split_of_few asked unread
  have yields : (∃ chunks, folder.split source count disk = .ok chunks) ↔
      1 ≤ count ∧ count ≤ folder.available source disk := by
    constructor
    · rintro ⟨chunks, fine⟩
      refine ⟨Nat.one_le_iff_ne_zero.mpr ?_, Nat.le_of_not_lt fun asked => ?_⟩
      · rintro rfl
        cases fine
      · rw [few asked] at fine
        cases fine
    · rintro ⟨some, enough⟩
      obtain ⟨chunks, fine, -⟩ := split_of_enough some enough
      exact ⟨chunks, fine⟩
  refine ⟨fun _ => lt_available_iff, yields, fun chunks fine => ?_, fun _ asked => ?_,
    fun path failed => ?_⟩
  · obtain ⟨some, enough⟩ := yields.mp ⟨chunks, fine⟩
    obtain ⟨others, same, each⟩ := split_of_enough some enough
    obtain rfl : chunks = others := Except.ok.inj (fine.symm.trans same)
    exact each
  · refine ⟨fun absent => ?_, fun folder => ?_, fun error refused other => ?_⟩
    · rw [split_of_few asked (Disk.read_of_error absent), if_pos rfl]
    · rw [split_of_few asked (Disk.read_of_folder folder), if_neg (by decide)]
    · rw [split_of_few asked (Disk.read_of_error refused), if_neg other]
  · rcases Nat.lt_or_ge (folder.available source disk) count with asked | enough
    · rw [few asked] at failed
      split_ifs at failed <;> cases failed
    · rcases Nat.eq_zero_or_pos count with rfl | some
      · cases failed
      · obtain ⟨chunks, fine, -⟩ := split_of_enough some enough
        rw [fine] at failed
        cases failed

/-- A workspace with a gap: where the second chunk should be is a folder. -/
def gap : Disk :=
  ⟨[(["work"], .folder), (["work", "clip_00.y4m"], .file [1] false),
    (["work", "clip_01.y4m"], .folder), (["work", "clip_02.y4m"], .file [3] false)], []⟩

/-- The chunk behind a gap does not count; the folder in the gap is an error of reading, and nothing
at all is a matter of counting. -/
theorem splits_all_or_none_gap :
    (∃ chunks, (ChunkFolder.mk "work" "y4m").split "clip" 1 gap = .ok chunks) ∧
      (ChunkFolder.mk "work" "y4m").split "clip" 3 gap = .error (.io .isADirectory) ∧
      (ChunkFolder.mk "work" "y4m").split "other" 1 gap = .error (.chunkCount "other" 1 0) := by
  obtain ⟨-, yields, -⟩ := splits_all_or_none ⟨"work", "y4m"⟩ "clip" gap 1
  obtain ⟨-, -, -, few, -⟩ := splits_all_or_none ⟨"work", "y4m"⟩ "clip" gap 3
  obtain ⟨-, -, -, none, -⟩ := splits_all_or_none ⟨"work", "y4m"⟩ "other" gap 1
  exact ⟨yields.mpr (by decide), (few (by decide) (by decide)).2.1 (by decide),
    (none (by decide) (by decide)).1 (by decide)⟩

end Transcode.ChunkFolder
