/-
**One folder for files of three sorts.** Raw chunks, artifacts and finished streams of all sources
lie in one workspace, and each sort has a format of its own. An artifact and a finished stream never
share a name. A raw chunk can have the name of either, in two ways only:

* its source continues the source of an artifact by the tag of the slot, and raw chunks have the
  extension of the slot;
* the extension of raw chunks is itself the name of such a file, and the source of the file begins
  as the raw chunk does.

* `FileName.Role` is what a file is to its source, and `FileName.file` its name.
* `FileName.spells_rawChunk` says when the name of a raw chunk is read as a slot.
* `FileName.file_eq_iff` — two files with one name are one file, or one of them is a raw chunk that
  is mistaken for the other (`FileName.Mistaken`).
* `FileName.Mistaken.rare`, `FileName.rare_of_spells` — this takes two sources, and an extension
  that is that of an artifact or has an underscore.
-/
import Transcode.Proofs.FileName

namespace Transcode.FileName

variable {extension source other name : String} {chunk place : ChunkIndex} {key : Key}
  {stem back front text : List Char}

/-- What a file in the workspace is to its source. -/
inductive Role where
  | raw (chunk : ChunkIndex)
  | slot (key : Key)
  | result
  deriving DecidableEq, Repr

/-- The file of a source in a role, where raw chunks have the extension. -/
def file (extension source : String) : Role → String
  | .raw chunk => rawChunk source chunk extension
  | .slot key => artifact source key
  | .result => output source

/-- The name of a raw chunk of one source is that of what another source keeps. -/
inductive Mistaken (extension : String) : String → ChunkIndex → String → Role → Prop
  /-- The source continues the other one by the tag of the slot. -/
  | tagged (other : String) (key : Key) (same : extension = key.kind.payload.extension) :
      Mistaken extension (other ++ "_" ++ key.kind.tag) key.chunk other (.slot key)
  /-- The extension is the end of the name of an artifact. -/
  | slot (source : String) (chunk : ChunkIndex) (rest : String) (key : Key)
      (same : extension = artifact rest key) :
      Mistaken extension source chunk (rawChunk source chunk rest) (.slot key)
  /-- The extension is the end of the name of a finished stream. -/
  | result (source : String) (chunk : ChunkIndex) (rest : String)
      (same : extension = output rest) :
      Mistaken extension source chunk (rawChunk source chunk rest) .result

/-! ### Formats -/

theorem toList_rawChunk (source : String) (chunk : ChunkIndex) (extension : String) :
    (rawChunk source chunk extension).toList =
      (source.toList ++ '_' :: Number.paddedDigits 2 chunk) ++ '.' :: extension.toList := by
  simp [rawChunk, ChunkIndex.label, Number.padded]

theorem toList_output (source : String) :
    (output source).toList = (source.toList ++ '_' :: "output".toList) ++ '.' :: "ivf".toList := by
  simp [output]

/-- Without a slash in the source and the extension, a raw chunk is an entry of a folder. -/
theorem isStep_rawChunk (slash : '/' ∉ source.toList) (plain : '/' ∉ extension.toList)
    (chunk : ChunkIndex) : Path.IsStep (rawChunk source chunk extension) := by
  have layout := toList_rawChunk source chunk extension
  exact isStep_of_underscore (by simp [layout])
    (by simp [layout, slash, plain, slash_notMem_paddedDigits])

theorem isStep_output (slash : '/' ∉ source.toList) : Path.IsStep (output source) := by
  have layout := toList_output source
  exact isStep_of_underscore (by simp [layout]) (by simp [layout, slash])

theorem paddedDigits_inj (width : Nat) {n m : Nat}
    (same : Number.paddedDigits width n = Number.paddedDigits width m) : n = m := by
  have read := Number.ofDigits?_paddedDigits width n
  rw [same, Number.ofDigits?_paddedDigits] at read
  exact (Option.some.inj read).symm

/-- The source and the number of a raw chunk stand in its name. -/
theorem rawChunk_inj : rawChunk source chunk extension = rawChunk other place extension ↔
    source = other ∧ chunk = place := by
  refine ⟨fun same => ?_, fun ⟨sources, chunks⟩ => by rw [sources, chunks]⟩
  have texts := congrArg String.toList same
  rw [toList_rawChunk, toList_rawChunk] at texts
  obtain ⟨sources, numbers⟩ := eq_of_append_cons (underscore_notMem_paddedDigits 2 chunk)
    (underscore_notMem_paddedDigits 2 place) (List.append_cancel_right texts)
  exact ⟨String.toList_inj.mp sources, paddedDigits_inj 2 numbers⟩

theorem output_inj : output source = output other ↔ source = other := by
  refine ⟨fun same => ?_, congrArg output⟩
  have texts := congrArg String.toList same
  rw [toList_output, toList_output] at texts
  exact String.toList_inj.mp (List.append_cancel_right (List.append_cancel_right texts))

/-- No finished stream has the name of a slot: `output` is no number. -/
theorem not_spells_output : ¬ Spells source key (output other) := by
  rintro ⟨digits, spelling, number⟩
  rw [toList_output] at spelling
  obtain ⟨stems, -⟩ :=
    eq_of_append_cons (by decide) (dot_notMem_extension key.kind.payload) spelling
  obtain ⟨-, rfl⟩ := eq_of_append_cons (by decide) (underscore_notMem_of_ofDigits? number) stems
  cases number

theorem artifact_ne_output : artifact source key ≠ output other := fun same =>
  not_spells_output (same ▸ spells_artifact source key)

/-! ### Raw chunks and the other files -/

/-- Text around the only occurrence of a character. -/
theorem eq_of_append_cons_of_notMem {separator : Char} (early : separator ∉ stem)
    (late : separator ∉ back) (same : stem ++ separator :: back = front ++ separator :: text) :
    stem = front ∧ back = text := by
  have once := congrArg (List.count separator) same
  simp only [List.count_append, List.count_cons_self, List.count_eq_zero_of_not_mem early,
    List.count_eq_zero_of_not_mem late] at once
  exact eq_of_append_cons late (List.count_eq_zero.mp (by omega)) same

/-- **Where a raw chunk has a name with one dot behind a source**, the source ends before the
number of the chunk, or it goes on into the extension. -/
theorem rawChunk_eq_iff (early : '.' ∉ stem) (late : '.' ∉ back) :
    (rawChunk source chunk extension).toList = (other.toList ++ '_' :: stem) ++ '.' :: back ↔
      (source.toList ++ '_' :: Number.paddedDigits 2 chunk = other.toList ++ '_' :: stem ∧
        extension.toList = back) ∨
      ∃ rest, other = rawChunk source chunk rest ∧
        extension.toList = (rest.toList ++ '_' :: stem) ++ '.' :: back := by
  rw [toList_rawChunk]
  constructor
  · intro same
    rw [List.append_assoc other.toList] at same
    rcases List.append_eq_append_iff.mp same with ⟨rest, longer, ends⟩ | ⟨rest, shorter, ends⟩
    · right
      cases rest with
      | nil => simp at ends
      | cons c rest =>
        injection ends with dot ends
        subst dot
        refine ⟨String.ofList rest, String.toList_inj.mp ?_, ?_⟩
        · rw [toList_rawChunk, longer, String.toList_ofList]
        · rw [String.toList_ofList, List.append_assoc]
          exact ends
    · left
      obtain ⟨rfl, rfl⟩ := eq_of_append_cons_of_notMem (by simp [early]) late ends
      exact ⟨shorter, rfl⟩
  · rintro (⟨same, ends⟩ | ⟨rest, rfl, ends⟩)
    · rw [same, ends]
    · simp [toList_rawChunk, ends]

/-- **When the name of a raw chunk is read as a slot.** -/
theorem spells_rawChunk : Spells other key (rawChunk source chunk extension) ↔
    (source = other ++ "_" ++ key.kind.tag ∧ chunk = key.chunk ∧
      extension = key.kind.payload.extension) ∨
    ∃ rest, other = rawChunk source chunk rest ∧ Spells rest key extension := by
  -- The tag and the number are one stretch without a dot, as the number of a raw chunk is.
  have regroup (source : String) (digits : List Char) : spelled source key.kind digits =
      (source.toList ++ '_' :: (key.kind.tag.toList ++ '_' :: digits)) ++ '.' ::
        key.kind.payload.extension.toList := by
    simp [spelled]
  have early {digits : List Char} (number : Number.ofDigits? digits = some key.chunk) :
      '.' ∉ key.kind.tag.toList ++ '_' :: digits := by
    have tag := notMem_of_all (c := '.') key.kind.all_isAlphanum_tag (by decide)
    have figures := notMem_of_all (c := '.') (Number.ofDigits?_eq_some.mp number).2.1 (by decide)
    simp [tag, figures]
  have late := dot_notMem_extension key.kind.payload
  constructor
  · rintro ⟨digits, spelling, number⟩
    rw [regroup, rawChunk_eq_iff (early number) late] at spelling
    rcases spelling with ⟨same, ends⟩ | ⟨rest, longer, ends⟩
    · left
      have layout : other.toList ++ '_' :: (key.kind.tag.toList ++ '_' :: digits) =
          (other ++ "_" ++ key.kind.tag).toList ++ '_' :: digits := by simp
      obtain ⟨sources, rfl⟩ := eq_of_append_cons (underscore_notMem_paddedDigits 2 chunk)
        (underscore_notMem_of_ofDigits? number) (same.trans layout)
      rw [Number.ofDigits?_paddedDigits, Option.some.injEq] at number
      exact ⟨String.toList_inj.mp sources, number, String.toList_inj.mp ends⟩
    · exact .inr ⟨rest, longer, digits, ends.trans (regroup rest digits).symm, number⟩
  · rintro (⟨rfl, rfl, rfl⟩ | ⟨rest, longer, digits, spelling, number⟩)
    · refine ⟨_, ?_, Number.ofDigits?_paddedDigits 2 key.chunk⟩
      simp [toList_rawChunk, spelled]
    · refine ⟨digits, ?_, number⟩
      rw [regroup, rawChunk_eq_iff (early number) late]
      exact .inr ⟨rest, longer, spelling.trans (regroup rest digits)⟩

/-! ### One name for two files -/

theorem rawChunk_right_inj {further : String} :
    rawChunk source chunk extension = rawChunk source chunk further ↔ extension = further := by
  simp only [← String.toList_inj, toList_rawChunk, List.append_cancel_left_eq, List.cons.injEq,
    true_and]

theorem ne_rawChunk : source ≠ rawChunk source chunk extension := by
  intro same
  have lengths := congrArg (fun text => text.toList.length) same
  simp [toList_rawChunk] at lengths

theorem artifact_rawChunk (source : String) (chunk : ChunkIndex) (rest : String) (key : Key) :
    artifact (rawChunk source chunk rest) key = rawChunk source chunk (artifact rest key) := by
  simp [artifact, rawChunk, String.append_assoc]

theorem output_rawChunk (source : String) (chunk : ChunkIndex) (rest : String) :
    output (rawChunk source chunk rest) = rawChunk source chunk (output rest) := by
  simp [output, rawChunk, String.append_assoc]

/-- What a raw chunk is mistaken for has its name. -/
theorem Mistaken.same {role : Role} (mistaken : Mistaken extension source chunk other role) :
    rawChunk source chunk extension = file extension other role := by
  cases mistaken with
  | tagged _ key same => simp [file, rawChunk, artifact, same]
  | slot _ _ rest key same => rw [file, artifact_rawChunk, same]
  | result _ _ rest same => rw [file, output_rawChunk, same]

theorem mistaken_of_artifact (same : rawChunk source chunk extension = artifact other key) :
    Mistaken extension source chunk other (.slot key) := by
  rcases spells_rawChunk.mp (same ▸ spells_artifact other key) with ⟨rfl, rfl, ends⟩ |
    ⟨rest, rfl, -⟩
  · exact .tagged other key ends
  · rw [artifact_rawChunk, rawChunk_right_inj] at same
    exact .slot source chunk rest key same

theorem mistaken_of_output (same : rawChunk source chunk extension = output other) :
    Mistaken extension source chunk other .result := by
  have texts := congrArg String.toList same
  rw [toList_output, rawChunk_eq_iff (by decide) (by decide)] at texts
  rcases texts with ⟨stems, -⟩ | ⟨rest, rfl, -⟩
  · obtain ⟨-, figures⟩ := eq_of_append_cons (underscore_notMem_paddedDigits 2 chunk)
      (by decide) stems
    have read := Number.ofDigits?_paddedDigits 2 chunk
    rw [figures] at read
    cases read
  · rw [output_rawChunk, rawChunk_right_inj] at same
    exact .result source chunk rest same

/-- **Two files with one name** are one file of one source, or one of them is a raw chunk that is
mistaken for the other. -/
theorem file_eq_iff {role part : Role} :
    file extension source role = file extension other part ↔
      (source = other ∧ role = part) ∨
      (∃ chunk, role = .raw chunk ∧ Mistaken extension source chunk other part) ∨
      ∃ chunk, part = .raw chunk ∧ Mistaken extension other chunk source role := by
  constructor
  · intro same
    match role, part with
    | .raw chunk, .raw place =>
      exact .inl ((rawChunk_inj.mp same).imp_right (congrArg Role.raw))
    | .slot key, .slot slot => exact .inl ((artifact_inj.mp same).imp_right (congrArg Role.slot))
    | .result, .result => exact .inl ⟨output_inj.mp same, rfl⟩
    | .slot key, .result => exact absurd same artifact_ne_output
    | .result, .slot key => exact absurd same.symm artifact_ne_output
    | .raw chunk, .slot key => exact .inr (.inl ⟨chunk, rfl, mistaken_of_artifact same⟩)
    | .raw chunk, .result => exact .inr (.inl ⟨chunk, rfl, mistaken_of_output same⟩)
    | .slot key, .raw chunk => exact .inr (.inr ⟨chunk, rfl, mistaken_of_artifact same.symm⟩)
    | .result, .raw chunk => exact .inr (.inr ⟨chunk, rfl, mistaken_of_output same.symm⟩)
  · rintro (⟨rfl, rfl⟩ | ⟨chunk, rfl, mistaken⟩ | ⟨chunk, rfl, mistaken⟩)
    · rfl
    · exact mistaken.same
    · exact mistaken.same.symm

/-- An extension of raw chunks with which one could be mistaken for another file. -/
def Misleads (extension : String) : Prop :=
  (∃ payload : Payload, extension = payload.extension) ∨ '_' ∈ extension.toList

/-- The name of a raw chunk is read as a slot of another source only, and only where the extension
misleads. -/
theorem rare_of_spells (spells : Spells other key (rawChunk source chunk extension)) :
    source ≠ other ∧ Misleads extension := by
  rcases spells_rawChunk.mp spells with ⟨rfl, -, ends⟩ | ⟨rest, rfl, digits, spelling, -⟩
  · refine ⟨fun same => ?_, .inl ⟨_, ends⟩⟩
    have lengths := congrArg (fun text => text.toList.length) same
    simp at lengths
  · exact ⟨ne_rawChunk, .inr (by simp [spelling, spelled])⟩

/-- A raw chunk is mistaken for a file of another source only, and only where the extension
misleads. -/
theorem Mistaken.rare {role : Role} (mistaken : Mistaken extension source chunk other role) :
    source ≠ other ∧ Misleads extension := by
  match role, mistaken with
  | .slot key, mistaken =>
    have named : rawChunk source chunk extension = artifact other key := mistaken.same
    exact rare_of_spells (named ▸ spells_artifact other key)
  | .result, .result _ _ rest same =>
    exact ⟨ne_rawChunk, .inr (by simp [same, toList_output])⟩

end Transcode.FileName
