/-
**A file name says which slot of which source it is.** Tags hold no underscore, extensions no dot,
and chunk numbers neither, so the name of a slot can be cut into its parts in one way only, whatever
characters the source identifier has.

* `FileName.artifact_inj`: two slots with the same file name are one slot of one source.
* `FileName.Spells`: the name is that of a slot, its chunk number with any zeros in front; these are
  the names that are read as the slot (`FileName.parse?_eq_some`).
* `FileName.parse?_artifact`: the name of a slot is read back for its own source, and
  `FileName.eq_of_parse?_artifact`: for no other. `FileName.parse?_iff_grammar` puts it together,
  with the format written out.
* `FileName.Spells.isName`: a folder can have an entry under the name.
-/
import Mathlib.Data.List.Infix
import Transcode.FileName
import Transcode.Proofs.Disk.Path

namespace Transcode

/-! ### What the parts are made of -/

theorem Kind.all_isAlphanum_tag (kind : Kind) : kind.tag.toList.all Char.isAlphanum = true := by
  cases kind <;> decide

theorem Payload.all_isAlphanum_extension (payload : Payload) :
    payload.extension.toList.all Char.isAlphanum = true := by
  cases payload <;> decide

theorem Payload.extension_injective {payload other : Payload}
    (same : payload.extension = other.extension) : payload = other := by
  cases payload <;> cases other <;> simp_all [extension]

namespace FileName

variable {source other name : String} {key slot : Key} {digits figures : List Char}

/-- The name of a slot whose chunk number is written with the given digits. -/
def spelled (source : String) (kind : Kind) (digits : List Char) : List Char :=
  ((source.toList ++ '_' :: kind.tag.toList) ++ '_' :: digits) ++ '.' ::
    kind.payload.extension.toList

theorem toList_artifact (source : String) (key : Key) :
    (artifact source key).toList =
      spelled source key.kind (Number.paddedDigits 2 key.chunk) := by
  simp [artifact, spelled, ChunkIndex.label, Number.padded]

/-- Text of one sort of characters has no other. -/
theorem notMem_of_all {sort : Char → Bool} {c : Char} {text : List Char}
    (all : text.all sort = true) (foreign : sort c = false) : c ∉ text := by
  intro member
  rw [List.all_eq_true.mp all c member] at foreign
  cases foreign

theorem underscore_notMem_tag (kind : Kind) : '_' ∉ kind.tag.toList :=
  notMem_of_all kind.all_isAlphanum_tag (by decide)

theorem dot_notMem_extension (payload : Payload) : '.' ∉ payload.extension.toList :=
  notMem_of_all payload.all_isAlphanum_extension (by decide)

theorem splitLast?_append {separator : Char} {after : List Char} (before : List Char)
    (absent : separator ∉ after) :
    splitLast? separator (before ++ separator :: after) = some (before, after) :=
  splitLast?_eq_some.mpr ⟨rfl, absent⟩

/-- Text before and after the last occurrence of a character. -/
theorem eq_of_append_cons {separator : Char} {before after front back : List Char}
    (absent : separator ∉ after) (lacking : separator ∉ back)
    (same : before ++ separator :: after = front ++ separator :: back) :
    before = front ∧ after = back := by
  have cut := splitLast?_append before absent
  rw [same, splitLast?_append front lacking] at cut
  simp_all

theorem underscore_notMem_of_ofDigits? {chunk : Nat} (read : Number.ofDigits? digits = some chunk) :
    '_' ∉ digits :=
  notMem_of_all (Number.ofDigits?_eq_some.mp read).2.1 (by decide)

/-- **A name is cut into its parts in one way.** -/
theorem eq_of_spelled {kind sort : Kind} (numeral : '_' ∉ digits) (number : '_' ∉ figures)
    (same : spelled source kind digits = spelled other sort figures) :
    source = other ∧ kind = sort ∧ digits = figures := by
  obtain ⟨stems, extensions⟩ := eq_of_append_cons (dot_notMem_extension kind.payload)
    (dot_notMem_extension sort.payload) same
  obtain ⟨fronts, numbers⟩ := eq_of_append_cons numeral number stems
  obtain ⟨sources, tags⟩ := eq_of_append_cons (underscore_notMem_tag kind)
    (underscore_notMem_tag sort) fronts
  have payloads := Payload.extension_injective (String.toList_inj.mp extensions)
  exact ⟨String.toList_inj.mp sources,
    Kind.eq_of_tag_of_payload (String.toList_inj.mp tags) payloads, numbers⟩

theorem underscore_notMem_paddedDigits (width n : Nat) : '_' ∉ Number.paddedDigits width n :=
  underscore_notMem_of_ofDigits? (Number.ofDigits?_paddedDigits width n)

theorem slash_notMem_paddedDigits (width n : Nat) : '/' ∉ Number.paddedDigits width n :=
  notMem_of_all (Number.ofDigits?_eq_some.mp (Number.ofDigits?_paddedDigits width n)).2.1
    (by decide)

/-! ### Spellings -/

/-- The name is that of a slot, its chunk number with any zeros in front. -/
def Spells (source : String) (key : Key) (name : String) : Prop :=
  ∃ digits, name.toList = spelled source key.kind digits ∧
    Number.ofDigits? digits = some key.chunk

theorem spells_artifact (source : String) (key : Key) :
    Spells source key (artifact source key) :=
  ⟨_, toList_artifact source key, Number.ofDigits?_paddedDigits 2 key.chunk⟩

/-- A name spells one slot of one source. -/
theorem Spells.unique (spells : Spells source key name) (also : Spells other slot name) :
    source = other ∧ key = slot := by
  obtain ⟨digits, spelling, number⟩ := spells
  obtain ⟨figures, shape, numeral⟩ := also
  obtain ⟨sources, kinds, rfl⟩ := eq_of_spelled (underscore_notMem_of_ofDigits? number)
    (underscore_notMem_of_ofDigits? numeral) (spelling.symm.trans shape)
  rw [number] at numeral
  obtain ⟨chunk, kind⟩ := key
  obtain ⟨place, sort⟩ := slot
  simp_all

/-- Two slots with the same file name are one slot of one source. -/
theorem artifact_inj :
    artifact source key = artifact other slot ↔ source = other ∧ key = slot := by
  refine ⟨fun same => ?_, fun ⟨sources, keys⟩ => by rw [sources, keys]⟩
  exact (spells_artifact source key).unique (same ▸ spells_artifact other slot)

/-! ### Reading -/

theorem Spells.of_parse? (read : parse? source name = some key) :
    Spells source key name ∧ key.chunk ≤ Number.maxWord := by
  simp only [parse?, Option.bind_eq_bind, Option.bind_eq_some_iff, Option.ite_none_right_eq_some,
    List.isPrefixOf?_eq_some_iff_append_eq, Option.some.injEq] at read
  obtain ⟨rest, named, text, marked, ⟨stem, extension⟩, dotted, ⟨tag, digits⟩, tagged, chunk,
    numbered, small, kind, found, rfl⟩ := read
  have spelling := List.find?_some found
  simp only [Bool.and_eq_true, decide_eq_true_eq] at spelling
  obtain ⟨rfl, -⟩ := splitLast?_eq_some.mp dotted
  obtain ⟨rfl, -⟩ := splitLast?_eq_some.mp tagged
  obtain ⟨rfl, rfl⟩ := spelling
  refine ⟨⟨digits, ?_, numbered⟩, small⟩
  rw [← named, ← marked]
  simp [spelled]

theorem Spells.parse? (spells : Spells source key name) (small : key.chunk ≤ Number.maxWord) :
    FileName.parse? source name = some key := by
  obtain ⟨digits, spelling, number⟩ := spells
  have layout : name.toList = source.toList ++ ('_' ::
      (((key.kind.tag.toList ++ '_' :: digits)) ++ '.' :: key.kind.payload.extension.toList)) := by
    simp [spelling, spelled]
  have named : source.toList.isPrefixOf? name.toList = _ :=
    List.isPrefixOf?_eq_some_iff_append_eq.mpr layout.symm
  have found : (Kind.all.find? fun kind => kind.tag.toList = key.kind.tag.toList &&
      kind.payload.extension.toList = key.kind.payload.extension.toList) = some key.kind := by
    cases key.kind <;> decide
  simp only [FileName.parse?, Option.bind_eq_bind, named, Option.bind_some,
    List.isPrefixOf?_eq_some_iff_append_eq.mpr (List.singleton_append),
    splitLast?_append _ (dot_notMem_extension key.kind.payload),
    splitLast?_append _ (underscore_notMem_of_ofDigits? number), number, if_pos small, found]

/-- **A name is read as the slot that it spells**, if the number is one of a 64-bit word. -/
theorem parse?_eq_some :
    parse? source name = some key ↔ Spells source key name ∧ key.chunk ≤ Number.maxWord :=
  ⟨Spells.of_parse?, fun ⟨spells, small⟩ => spells.parse? small⟩

/-- The name of a slot is read back. -/
theorem parse?_artifact (source : String) {key : Key} (small : key.chunk ≤ Number.maxWord) :
    parse? source (artifact source key) = some key :=
  (spells_artifact source key).parse? small

/-- The name of a slot is read for its own source only, and as that slot. -/
theorem eq_of_parse?_artifact (read : parse? source (artifact other slot) = some key) :
    other = source ∧ slot = key :=
  (spells_artifact other slot).unique (parse?_eq_some.mp read).1

/-! ### The grammar -/

/-- **Names of slots**, for any source. A name is read as a slot just if it is the source, the tag,
a number in at least one decimal digit, however many of them are zeros in front, and the extension,
with an underscore before the tag, one before the number and a dot before the extension; the number
must be one of a 64-bit word. So the name of every slot is read back for its own source, and for no
other. -/
theorem parse?_iff_grammar (source : String) :
    (∀ (name : String) (key : Key), parse? source name = some key ↔
      key.chunk < UInt64.size ∧ ∃ digits : List Char, digits ≠ [] ∧
        (∀ c ∈ digits, c.isDigit = true) ∧ Nat.ofDigitChars 10 digits 0 = key.chunk ∧
        name = source ++ "_" ++ key.kind.tag ++ "_" ++ String.ofList digits ++ "." ++
          key.kind.payload.extension) ∧
    (∀ (kind : Kind) (chunk : ChunkIndex), chunk < UInt64.size →
      parse? source (artifact source ⟨chunk, kind⟩) = some ⟨chunk, kind⟩) ∧
    ∀ (other : String) (slot : Key),
      other ≠ source → parse? source (artifact other slot) = none := by
  have word (chunk : ChunkIndex) : chunk ≤ Number.maxWord ↔ chunk < UInt64.size :=
    Nat.le_sub_one_iff_lt (by decide : 0 < UInt64.size)
  refine ⟨fun name key => ?_, fun kind chunk small => ?_, fun other slot apart => ?_⟩
  · rw [parse?_eq_some, word, and_comm]
    refine and_congr_right fun _ => exists_congr fun digits => ?_
    rw [Number.ofDigits?_eq_some, List.all_eq_true, ← String.toList_inj]
    have layout : (source ++ "_" ++ key.kind.tag ++ "_" ++ String.ofList digits ++ "." ++
        key.kind.payload.extension).toList = spelled source key.kind digits := by
      simp [spelled]
    rw [layout, and_comm, and_assoc, and_assoc]
  · exact parse?_artifact source ((word chunk).mpr small)
  · refine Option.eq_none_iff_forall_ne_some.mpr fun key read => ?_
    exact apart (eq_of_parse?_artifact read).1

/-- A source that is a name itself, with zeros in front of the number; the largest number of a word;
and a source that another one continues. -/
theorem parse?_iff_grammar_deceptiveSource :
    parse? "a_xc0_07.ivf" "a_xc0_07.ivf_enc0_0042.state" = some ⟨42, .encodeV0State⟩ ∧
      parse? "a" (artifact "a" ⟨UInt64.size - 1, .merged⟩) = some ⟨UInt64.size - 1, .merged⟩ ∧
      parse? "a" (artifact "a_vpx" ⟨0, .baseline⟩) = none := by
  have decimal : ['0', '0', '4', '2'].all Char.isDigit = true := by decide
  refine ⟨?_, ?_, ?_⟩
  · refine ((parse?_iff_grammar "a_xc0_07.ivf").1 _ ⟨42, .encodeV0State⟩).mpr
      ⟨by decide, ['0', '0', '4', '2'], by decide, List.all_eq_true.mp decimal, by decide,
        by decide⟩
  · exact (parse?_iff_grammar "a").2.1 .merged (UInt64.size - 1) (by decide)
  · exact (parse?_iff_grammar "a").2.2 "a_vpx" ⟨0, .baseline⟩ (by decide)

/-! ### As a name in a folder -/

/-- Source identifiers that a file name can be made of. -/
structure IsPlain (source : String) : Prop where
  slash : '/' ∉ source.toList
  nul : '\x00' ∉ source.toList

/-- A name with an underscore does not stand for a folder on the way. -/
theorem isStep_of_underscore (marked : '_' ∈ name.toList) (slash : '/' ∉ name.toList) :
    Path.IsStep name := by
  have other : ∀ word : String, '_' ∉ word.toList → name ≠ word := by
    rintro _ unmarked rfl
    exact unmarked marked
  exact {
    filled := other "" (by decide)
    slash := slash
    here := other "." (by decide)
    above := other ".." (by decide) }

namespace Spells

/-- The parts of a name besides the source are letters and digits. -/
theorem notMem {c : Char} (spells : Spells source key name) (foreign : c.isAlphanum = false)
    (underscore : c ≠ '_') (dot : c ≠ '.') (absent : c ∉ source.toList) : c ∉ name.toList := by
  obtain ⟨digits, spelling, number⟩ := spells
  have tag := notMem_of_all key.kind.all_isAlphanum_tag foreign
  have extension := notMem_of_all key.kind.payload.all_isAlphanum_extension foreign
  have figure : c.isDigit = false := by
    rw [Char.isAlphanum, Bool.or_eq_false_iff] at foreign
    exact foreign.2
  have number := notMem_of_all (Number.ofDigits?_eq_some.mp number).2.1 figure
  simp [spelling, spelled, absent, underscore, dot, tag, extension, number]

/-- The name leads to something inside a folder. -/
theorem isStep (spells : Spells source key name) (slash : '/' ∉ source.toList) :
    Path.IsStep name := by
  have marked : '_' ∈ name.toList := by
    obtain ⟨digits, spelling, -⟩ := spells
    simp [spelling, spelled]
  exact isStep_of_underscore marked (spells.notMem (by decide) (by decide) (by decide) slash)

/-- A folder can have an entry under the name. -/
theorem isName (spells : Spells source key name) (plain : IsPlain source) : Path.IsName name where
  toIsStep := spells.isStep plain.slash
  nul := spells.notMem (by decide) (by decide) (by decide) plain.nul

end Spells

theorem isName_artifact (plain : IsPlain source) (key : Key) :
    Path.IsName (artifact source key) :=
  (spells_artifact source key).isName plain

end FileName

end Transcode
