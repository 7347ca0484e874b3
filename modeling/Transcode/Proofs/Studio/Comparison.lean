/-
**The verdict of a comparison** is exact: media matches its source just if it is what the chunks are
in a row, and otherwise the verdict points at the end of what the two have in common.

* `Bytes.LongestCommonPrefix` — what two byte strings have in common from the start.
* `Comparison.firstMismatch_between` — the scan over both byte strings, as far as they go, and the
  comparison of their lengths come to its length, by induction on both.
* `Studio.compares_exactly` — hence so does comparing media with the chunks of a source.
-/
import Transcode.Studio.Comparison

namespace Transcode

namespace Bytes

/-! ### What byte strings have in common -/

/-- The longest byte string with which both begin. -/
structure LongestCommonPrefix (shared bytes other : Bytes) : Prop where
  left : shared <+: bytes
  right : shared <+: other
  longest : ∀ more, more <+: bytes → more <+: other → more <+: shared

namespace LongestCommonPrefix

variable {shared shared' bytes other : Bytes} {octet octet' : UInt8}

/-- Nothing, if the first octets differ. -/
theorem of_ne (differ : octet ≠ octet') :
    LongestCommonPrefix [] (octet :: bytes) (octet' :: other) := by
  refine ⟨List.nil_prefix, List.nil_prefix, fun more first second => ?_⟩
  cases more with
  | nil => exact List.prefix_rfl
  | cons head rest =>
    obtain ⟨same, -⟩ := List.cons_prefix_cons.mp first
    obtain ⟨same', -⟩ := List.cons_prefix_cons.mp second
    exact absurd (same.symm.trans same') differ

/-- The first octet, if it is the same, and what the rest has in common. -/
theorem cons (common : LongestCommonPrefix shared bytes other) (octet : UInt8) :
    LongestCommonPrefix (octet :: shared) (octet :: bytes) (octet :: other) := by
  refine ⟨List.cons_prefix_cons.mpr ⟨rfl, common.left⟩,
    List.cons_prefix_cons.mpr ⟨rfl, common.right⟩, fun more first second => ?_⟩
  cases more with
  | nil => exact List.nil_prefix
  | cons head rest =>
    obtain ⟨same, first⟩ := List.cons_prefix_cons.mp first
    obtain ⟨-, second⟩ := List.cons_prefix_cons.mp second
    exact List.cons_prefix_cons.mpr ⟨same, common.longest rest first second⟩

/-- All of it, if the other one begins with it. -/
theorem of_begins (begins : bytes <+: other) : LongestCommonPrefix bytes bytes other :=
  ⟨List.prefix_rfl, begins, fun _ first _ => first⟩

theorem symm (common : LongestCommonPrefix shared bytes other) :
    LongestCommonPrefix shared other bytes :=
  ⟨common.right, common.left, fun more first second => common.longest more second first⟩

/-- There is only one. -/
theorem unique (common : LongestCommonPrefix shared bytes other)
    (common' : LongestCommonPrefix shared' bytes other) : shared = shared' :=
  (common'.longest _ common.left common.right).eq_of_length_le
    (common.longest _ common'.left common'.right).length_le

end LongestCommonPrefix

theorem firstDifference?_cons (octet octet' : UInt8) (bytes other : Bytes) :
    firstDifference? (octet :: bytes) (octet' :: other) =
      if octet = octet' then (firstDifference? bytes other).map (· + 1) else some 0 := by
  unfold firstDifference?
  rw [List.zip_cons_cons, List.findIdx?_cons]
  by_cases same : octet = octet'
  · rw [if_pos same, if_neg (by simpa using same)]
  · rw [if_neg same, if_pos (by simpa using same)]

end Bytes

open Bytes (LongestCommonPrefix)

namespace Comparison

/-! ### The first difference -/

/-- The same octet in front moves the difference on by one. -/
theorem firstMismatch_cons_self (octet : UInt8) (expected decoded : Bytes) :
    (between (octet :: expected) (octet :: decoded)).firstMismatch =
      (between expected decoded).firstMismatch.map (· + 1) := by
  simp only [between, Bytes.firstDifference?_cons, if_true, List.length_cons]
  cases Bytes.firstDifference? expected decoded with
  | some position => rfl
  | none =>
    by_cases long : expected.length = decoded.length
    · simp [long]
    · have apart : expected.length + 1 ≠ decoded.length + 1 := by omega
      simp only [long, apart, if_false, Option.map_none, Option.none_or, Option.map_some]
      rw [Nat.add_min_add_right]

/-- Different octets in front are the difference. -/
theorem firstMismatch_cons_of_ne {octet octet' : UInt8} (differ : octet ≠ octet')
    (expected decoded : Bytes) :
    (between (octet :: expected) (octet' :: decoded)).firstMismatch = some 0 := by
  simp only [between, Bytes.firstDifference?_cons, if_neg differ, Option.some_or]

/-- **Where the first difference is**: at the end of what both have in common, unless they are
equal. -/
theorem firstMismatch_between (expected decoded : Bytes) :
    ∃ shared, LongestCommonPrefix shared expected decoded ∧
      (between expected decoded).firstMismatch =
        if expected = decoded then none else some shared.length := by
  -- along both byte strings at once, for as long as their first octets agree
  induction expected generalizing decoded with
  | nil =>
    refine ⟨[], .of_begins List.nil_prefix, ?_⟩
    cases decoded <;> rfl
  | cons octet rest ih =>
    cases decoded with
    | nil => exact ⟨[], (LongestCommonPrefix.of_begins List.nil_prefix).symm, rfl⟩
    | cons octet' rest' =>
      by_cases same : octet = octet'
      · subst same
        obtain ⟨shared, common, found⟩ := ih rest'
        refine ⟨octet :: shared, common.cons octet, ?_⟩
        rw [firstMismatch_cons_self, found]
        by_cases equal : rest = rest'
        · rw [if_pos equal, if_pos (by rw [equal])]
          rfl
        · rw [if_neg equal, if_neg (by simpa using equal)]
          rfl
      · have apart : octet :: rest ≠ octet' :: rest' := fun equal => same (List.cons.inj equal).1
        refine ⟨[], .of_ne same, ?_⟩
        rw [firstMismatch_cons_of_ne same, if_neg apart]
        rfl

/-- There is no difference just between equal byte strings. -/
theorem isMatch_between {expected decoded : Bytes} :
    (between expected decoded).isMatch = true ↔ expected = decoded := by
  obtain ⟨shared, -, found⟩ := firstMismatch_between expected decoded
  rw [isMatch, found]
  by_cases equal : expected = decoded
  · rw [if_pos equal]
    exact iff_of_true rfl equal
  · rw [if_neg equal]
    exact iff_of_false Bool.false_ne_true equal

/-- Between others it is as far into both as they are the same. -/
theorem firstMismatch_of_ne {shared expected decoded : Bytes} (differ : expected ≠ decoded)
    (common : LongestCommonPrefix shared expected decoded) :
    (between expected decoded).firstMismatch = some shared.length := by
  obtain ⟨other, common', found⟩ := firstMismatch_between expected decoded
  rw [found, if_neg differ, common.unique common']

end Comparison

namespace Studio

/-! ### The verdict -/

/-- **The verdict is exact.** Let a workspace yield the chunks of a source. Comparing media with
them succeeds. It reports a match just if the media is what is in the chunks, one after the other.
If it is not, the first mismatch lies where the longest common prefix of the two ends; so it lies
within both, and media that is cut short or goes on too long differs at the end of the shorter one.
-/
theorem compares_exactly (studio : Studio) {source : String} {count : Nat} {site : Site}
    {chunks : List RawChunk} (yields : studio.chunks.split source count site.disk = .ok chunks)
    (media : RawMedia) :
    let expected := (chunks.map RawChunk.data).flatten
    ∃ comparison, studio.compare media source count site = .ok comparison ∧
      comparison.expectedBytes = expected.length ∧ comparison.decodedBytes = media.length ∧
      (comparison.isMatch = true ↔ media = expected) ∧
      (media ≠ expected → ∃ shared, LongestCommonPrefix shared expected media ∧
        comparison.firstMismatch = some shared.length) ∧
      (∀ position, comparison.firstMismatch = some position →
        position ≤ expected.length ∧ position ≤ media.length) ∧
      (media <+: expected → media ≠ expected →
        comparison.firstMismatch = some media.length) ∧
      (expected <+: media → media ≠ expected →
        comparison.firstMismatch = some expected.length) := by
  intro expected
  have compared : studio.compare media source count site = .ok (.between expected media) := by
    rw [compare, yields]
    rfl
  obtain ⟨shared, common, found⟩ := Comparison.firstMismatch_between expected media
  refine ⟨_, compared, rfl, rfl, ?_, fun differ => ?_, fun position here => ?_,
    fun short differ => ?_, fun long differ => ?_⟩
  · rw [Comparison.isMatch_between]
    exact eq_comm
  · exact ⟨shared, common, Comparison.firstMismatch_of_ne differ.symm common⟩
  · rw [found] at here
    split at here
    · cases here
    · cases here
      exact ⟨common.left.length_le, common.right.length_le⟩
  · exact Comparison.firstMismatch_of_ne differ.symm (LongestCommonPrefix.of_begins short).symm
  · exact Comparison.firstMismatch_of_ne differ.symm (.of_begins long)

/-- A workspace with two chunks of a source. -/
def twoChunks : Site :=
  ⟨⟨[(["work"], .folder), (["work", "clip_00.y4m"], .file [1, 2] false),
    (["work", "clip_01.y4m"], .file [3] false)], []⟩, []⟩

/-- A studio for that workspace. -/
def reviewer : Studio where
  engine := .simulated (.ofFrameSize 2)
  ledgers := .memory
  chunks := ⟨"work", "y4m"⟩
  launcher := ⟨fun _ _ disk => (.error .notFound, disk)⟩

/-- Media as it should be; media that is cut short, so that it ends before the second chunk; and
media with another octet in it. -/
theorem compares_exactly_twoChunks :
    reviewer.chunks.split "clip" 2 twoChunks.disk =
        .ok [⟨0, "work/clip_00.y4m", [1, 2]⟩, ⟨1, "work/clip_01.y4m", [3]⟩] ∧
      (∃ comparison, reviewer.compare [1, 2, 3] "clip" 2 twoChunks = .ok comparison ∧
        comparison.isMatch = true) ∧
      (∃ comparison, reviewer.compare [1, 2] "clip" 2 twoChunks = .ok comparison ∧
        comparison.firstMismatch = some 2) ∧
      ∃ comparison, reviewer.compare [1, 7, 3] "clip" 2 twoChunks = .ok comparison ∧
        comparison.firstMismatch = some 1 := by
  have yields : reviewer.chunks.split "clip" 2 twoChunks.disk =
      .ok [⟨0, "work/clip_00.y4m", [1, 2]⟩, ⟨1, "work/clip_01.y4m", [3]⟩] := rfl
  refine ⟨yields, ?_, ?_, ?_⟩
  · obtain ⟨comparison, same, -, -, matched, -⟩ := compares_exactly reviewer yields [1, 2, 3]
    exact ⟨comparison, same, matched.mpr rfl⟩
  · obtain ⟨comparison, same, -, -, -, -, -, short, -⟩ := compares_exactly reviewer yields [1, 2]
    exact ⟨comparison, same, short (by decide) (by decide)⟩
  · obtain ⟨comparison, same, -, -, -, differs, -⟩ := compares_exactly reviewer yields [1, 7, 3]
    obtain ⟨shared, common, found⟩ := differs (by decide)
    have first : LongestCommonPrefix [1] [1, 2, 3] [1, 7, 3] := .cons (.of_ne (by decide)) 1
    exact ⟨comparison, same, found.trans (congrArg (some ·.length) (common.unique first))⟩

end Studio

end Transcode
