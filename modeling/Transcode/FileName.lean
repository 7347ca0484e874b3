/-
**File names of a workspace.** Every file that a run reads or writes lies in the workspace under a
name made of the source identifier, and the name alone says what the file is.

* `FileName.artifact` names the slot of a key; `FileName.parse?` reads such a name back, for one
  given source. Leading zeros of the chunk number are accepted, numbers beyond 64 bits are not.
* `FileName.rawChunk` names a raw chunk, `FileName.output` the finished stream.
-/
import Transcode.Artifact

namespace Transcode

namespace FileName

/-- Splits at the last occurrence of a character, which is dropped. -/
def splitLast? (separator : Char) : List Char → Option (List Char × List Char)
  | [] => none
  | c :: rest =>
    match splitLast? separator rest with
    | some (before, after) => some (c :: before, after)
    | none => if c = separator then some ([], rest) else none

theorem splitLast?_eq_none {separator : Char} {text : List Char} :
    splitLast? separator text = none ↔ separator ∉ text := by
  induction text with
  | nil => simp [splitLast?]
  | cons c rest ih =>
    cases cut : splitLast? separator rest with
    | none =>
      have absent := ih.mp cut
      by_cases same : c = separator
      · simp [splitLast?, cut, same]
      · simp [splitLast?, cut, same, absent, Ne.symm same]
    | some parts =>
      have present : separator ∈ rest := by
        refine Classical.byContradiction fun absent => ?_
        rw [ih.mpr absent] at cut
        exact nomatch cut
      simp [splitLast?, cut, present]

/-- The split is at an occurrence, and none comes later. -/
theorem splitLast?_eq_some {separator : Char} {text before after : List Char} :
    splitLast? separator text = some (before, after) ↔
      text = before ++ separator :: after ∧ separator ∉ after := by
  induction text generalizing before after with
  | nil => simp [splitLast?]
  | cons c rest ih =>
    cases cut : splitLast? separator rest with
    | none =>
      have absent := splitLast?_eq_none.mp cut
      by_cases same : c = separator
      · subst same
        simp only [splitLast?, cut, if_pos, Option.some.injEq, Prod.mk.injEq]
        constructor
        · rintro ⟨rfl, rfl⟩
          exact ⟨rfl, absent⟩
        · rintro ⟨shape, _⟩
          cases before with
          | nil => simpa using shape
          | cons d before =>
            injection shape with _ shape
            exact absurd (by simp [shape]) absent
      · simp only [splitLast?, cut, if_neg same]
        constructor
        · simp
        · rintro ⟨shape, _⟩
          cases before with
          | nil =>
            injection shape with shape _
            exact absurd shape same
          | cons d before =>
            injection shape with _ shape
            exact absurd (by simp [shape]) absent
    | some parts =>
      obtain ⟨first, last⟩ := parts
      have known := ih.mp cut
      simp only [splitLast?, cut, Option.some.injEq, Prod.mk.injEq]
      constructor
      · rintro ⟨rfl, rfl⟩
        simp [known]
      · rintro ⟨shape, absent⟩
        cases before with
        | nil =>
          injection shape with _ shape
          exact absurd (by simp [← shape, known.1]) absent
        | cons d before =>
          injection shape with same shape
          have reached := ih.mpr ⟨shape, absent⟩
          rw [cut] at reached
          simp_all

/-! ### Artifacts -/

/-- The file of a slot: source, tag, chunk and extension. -/
def artifact (source : String) (key : Key) : String :=
  source ++ "_" ++ key.kind.tag ++ "_" ++ key.chunk.label ++ "." ++ key.kind.payload.extension

/-- The key whose slot of the given source has this file name. -/
def parse? (source name : String) : Option Key := do
  let rest ← source.toList.isPrefixOf? name.toList
  let rest ← ['_'].isPrefixOf? rest
  let (stem, extension) ← splitLast? '.' rest
  let (tag, digits) ← splitLast? '_' stem
  let chunk ← Number.ofDigits? digits
  if chunk ≤ Number.maxWord then
    let kind ← Kind.all.find? fun kind =>
      kind.tag.toList = tag && kind.payload.extension.toList = extension
    some ⟨chunk, kind⟩
  else none

/-! ### Raw chunks and results -/

/-- The file of a raw chunk. -/
def rawChunk (source : String) (chunk : ChunkIndex) (extension : String) : String :=
  source ++ "_" ++ chunk.label ++ "." ++ extension

/-- The file of the finished stream. -/
def output (source : String) : String :=
  source ++ "_output.ivf"

end FileName

end Transcode
