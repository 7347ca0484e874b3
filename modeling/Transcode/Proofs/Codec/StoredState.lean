/-
**The stored form of decoder states** is canonical: each state has one, and nothing else is read as
that state.

* `DecoderState.scan` reads a stored state with a `Cursor`, which is kept from the end by nothing
  but the checks that are made on the way. It does what `DecoderState.parse` does (`read?_scan`).
* `Simulated.foreign_iff_discontinuous` — rebasing takes the hash of the stored form that it is
  given, and merging that of a stored form which it makes itself. They judge a stream alike.
* `DecoderState.stored_form_canonical` — the two directions, what they mean for hashes, and that no
  reader runs past the end.
-/
import Transcode.Proofs.Codec.Corruption
import Transcode.Proofs.Codec.Cursor

namespace Transcode

namespace DecoderState

open Cursor

/-! ### Reading with a cursor -/

/-- A stored state: sixteen octets make the header, of which four are the mark, and the frame is all
that follows. -/
def scan : Cursor DecoderState := do
  ensure (16 ≤ (← remaining)) .missingStateHeader
  ensure ((← peek 4) = mark) .missingStateHeader
  skip 4
  let framesDecoded ← longWord
  let length ← word
  ensure ((← remaining) = length.toNat) .frameLengthMismatch
  return ⟨framesDecoded, ← peekAll⟩

/-- Sixteen octets have the shape of a header, whatever they are. -/
theorem exists_header {bytes : Bytes} (long : 16 ≤ bytes.length) :
    ∃ front framesDecoded length rest, front.length = 4 ∧
      bytes = front ++ (Bytes.le64 framesDecoded ++ (Bytes.le32 length ++ rest)) := by
  obtain ⟨front, tail, rfl, whole⟩ : ∃ front tail, bytes = front ++ tail ∧ front.length = 4 :=
    ⟨_, _, (List.take_append_drop 4 bytes).symm, List.length_take_of_le (by omega)⟩
  rw [List.length_append, whole] at long
  obtain ⟨framesDecoded, tail, rfl, four⟩ :=
    Bytes.exists_eq_le64_append (Nat.le_of_add_le_add_left long : 4 + 8 ≤ tail.length)
  obtain ⟨length, rest, rfl, -⟩ := Bytes.exists_eq_le32_append (four : 0 + 4 ≤ tail.length)
  exact ⟨front, framesDecoded, length, rest, whole, rfl⟩

/-- A header that cannot be there is refused at once. -/
theorem takeHeader?_of_short {bytes : Bytes} (short : bytes.length < 16) :
    takeHeader? bytes = none := by
  refine Option.eq_none_iff_forall_ne_some.mpr fun ⟨framesDecoded, length, rest⟩ read => ?_
  rw [takeHeader?_eq_some.mp read] at short
  simp only [mark, Bytes.le64, Bytes.le32, List.length_append, List.length_cons] at short
  omega

/-- Without the mark there is no header. -/
theorem takeHeader?_of_ne {front rest : Bytes} (long : front.length = 4) (other : front ≠ mark) :
    takeHeader? (front ++ rest) = none := by
  refine Option.eq_none_iff_forall_ne_some.mpr fun ⟨framesDecoded, length, left⟩ read => ?_
  exact other (List.append_inj (takeHeader?_eq_some.mp read) long).1

/-- **Reading a state with a cursor** stays within the bytes and comes to the same. -/
theorem read?_scan (bytes : Bytes) : scan.read? bytes = some (parse ⟨bytes⟩) := by
  by_cases long : 16 ≤ bytes.length
  · obtain ⟨front, framesDecoded, length, rest, whole, rfl⟩ := exists_header long
    simp only [scan, read?_bind, on_remaining, on_ensure, long, if_true, ← whole, on_peek_append]
    by_cases marked : front = mark
    · subst marked
      have header : takeHeader? (mark ++ (Bytes.le64 framesDecoded ++ (Bytes.le32 length ++ rest))) =
          some (framesDecoded, length, rest) := takeHeader?_eq_some.mpr rfl
      simp only [if_true, on_skip_append, on_longWord_le64, on_word_le32, parse, header]
      by_cases exact : rest.length = length.toNat
      · rw [if_pos exact, if_pos exact]
        rfl
      · rw [if_neg exact, if_neg exact]
    · simp only [marked, if_false, parse, takeHeader?_of_ne whole marked]
  · have none := takeHeader?_of_short (Nat.lt_of_not_le long)
    simp only [scan, read?_bind, on_remaining, on_ensure, long, if_false, parse, none]

/-! ### One stored form -/

variable {handle other : StateHandle} {state state' : DecoderState}

/-- Header and frame, and nothing else. -/
theorem length_toHandle (state : DecoderState) :
    state.toHandle.bytes.length = 16 + state.lastFrame.length := by
  simp only [toHandle, mark, Bytes.le64, Bytes.le32, List.length_append, List.length_cons,
    List.length_nil]

/-- What is read as a state is its stored form. -/
theorem toHandle_of_parse (read : parse handle = .ok state) : state.toHandle = handle :=
  (parse_eq_ok.mp read).2.symm

/-- **Stored forms are equal** just if the states are. -/
theorem handle_inj (read : parse handle = .ok state) (read' : parse other = .ok state') :
    handle = other ↔ state = state' := by
  constructor
  · rintro rfl
    exact Except.ok.inj (read.symm.trans read')
  · rintro rfl
    exact (toHandle_of_parse read).symm.trans (toHandle_of_parse read')

end DecoderState

namespace Simulated

open DecoderState (fresh)

/-- **Rebasing and merging judge alike.** Let a stored form be read as the state in which a
self-contained stream leaves the decoder. Of a stream that records what it starts from, rebasing
says that it was not encoded against this stored form just if merging says that it does not continue
that stream. -/
theorem foreign_iff_discontinuous {handle : StateHandle} {state : DecoderState}
    (read : DecoderState.parse handle = .ok state) {front back : Bitstream} {head tail : Stream}
    (first : Stream.parse front.bytes = .ok head) (second : Stream.parse back.bytes = .ok tail)
    (size : head.frameSize = tail.frameSize) (starts : head.entryHash = none)
    (asks : tail.entryHash.isSome) {decoded : List Bytes}
    (leaves : head.decodeFrom fresh = .ok (decoded, state))
    (simulated : Simulated) {raw : RawChunk} (present : raw.data ≠ []) (newState : StateHandle) :
    simulated.rebase raw newState handle back =
        .error (.stateMismatch (.foreignOldState raw.index)) ↔
      merge front back = .error (.stateMismatch .discontinuousSuffix) := by
  obtain ⟨expected, asks⟩ := Option.isSome_iff_exists.mp asks
  have written := DecoderState.toHandle_of_parse read
  by_cases follows : expected = minihash handle
  · have accepted : tail.entryHash = some (minihash handle) := follows ▸ asks
    have joins : Joins head tail := {
      size
      follows := fun _ hash recorded => by
        refine ⟨decoded, state, leaves, ?_⟩
        rw [written]
        exact Option.some.inj (accepted.symm.trans recorded) }
    have merged := merge_eq_ok.mpr ⟨head, tail, first, second, joins, rfl⟩
    rw [merged]
    exact iff_of_false (noMismatch_rebase second accepted _) nofun
  · have foreign : tail.entryHash ≠ some (minihash handle) := by
      rw [asks]
      exact fun same => follows (Option.some.inj same)
    have apart : minihash state.toHandle ≠ expected := by
      rw [written]
      exact Ne.symm follows
    exact iff_of_true (rebase_of_foreign present second foreign)
      (merge_of_foreign first second size starts leaves asks apart)

end Simulated

namespace DecoderState

/-- **Stored states are canonical.** A state whose last frame has fewer than `2 ^ 32` bytes is read
back from its stored form. Whatever is read as a state is the stored form of that state, byte for
byte, with no byte besides the header and the frame. Hence two stored forms that can be read are
equal just if they are read as the same state, and their hashes are those of the states: to compare
what is given, as rebasing does, is to compare what is written anew, as merging does. Reading never
runs past the end, whatever it is given. -/
theorem stored_form_canonical :
    (∀ state : DecoderState, state.lastFrame.length < UInt32.size →
      parse state.toHandle = .ok state) ∧
    (∀ handle state, parse handle = .ok state →
      state.toHandle = handle ∧ handle.bytes.length = 16 + state.lastFrame.length) ∧
    (∀ handle other state state', parse handle = .ok state → parse other = .ok state' →
      (handle = other ↔ state = state') ∧
      (minihash handle = minihash other ↔ minihash state.toHandle = minihash state'.toHandle)) ∧
    (∀ handle state front back head tail decoded, parse handle = .ok state →
      Stream.parse front.bytes = .ok head → Stream.parse back.bytes = .ok tail →
      head.frameSize = tail.frameSize → head.entryHash = none → tail.entryHash.isSome →
      head.decodeFrom fresh = .ok (decoded, state) →
      ∀ (simulated : Simulated) raw newState, raw.data ≠ [] →
        (simulated.rebase raw newState handle back =
            .error (.stateMismatch (.foreignOldState raw.index)) ↔
          Simulated.merge front back = .error (.stateMismatch .discontinuousSuffix))) ∧
    ∀ bytes, scan.read? bytes = some (parse ⟨bytes⟩) := by
  refine ⟨fun _ => parse_toHandle, fun handle state read => ?_,
    fun handle other state state' read read' => ⟨handle_inj read read', ?_⟩, ?_, read?_scan⟩
  · have written := toHandle_of_parse read
    exact ⟨written, written ▸ length_toHandle state⟩
  · rw [toHandle_of_parse read, toHandle_of_parse read']
  · intro handle state front back head tail decoded read first second size starts asks leaves
      simulated raw newState present
    exact Simulated.foreign_iff_discontinuous read first second size starts asks leaves simulated
      present newState

/-- The state after a frame of two octets. Its stored form has no room for a third one; and a stream
that asks for another state is refused for it by rebasing, hence by merging. -/
theorem stored_form_canonical_twoOctets :
    let state : DecoderState := ⟨1, [1, 2]⟩
    let handle : StateHandle := ⟨mark ++ [1, 0, 0, 0, 0, 0, 0, 0, 2, 0, 0, 0, 1, 2]⟩
    let head : Stream := ⟨2, none, [⟨.key, [1, 2]⟩]⟩
    let tail : Stream := ⟨2, some 7, [⟨.inter, [5]⟩]⟩
    parse state.toHandle = .ok state ∧ parse handle = .ok state ∧ state.toHandle = handle ∧
      Simulated.merge head.toBitstream tail.toBitstream =
        .error (.stateMismatch .discontinuousSuffix) ∧
      scan.read? (handle.bytes ++ [3]) = some (.error .frameLengthMismatch) := by
  intro state handle head tail
  obtain ⟨readBack, written, -, alike, within⟩ := stored_form_canonical
  have read : parse handle = .ok state := by decide
  have first : Stream.parse head.toBitstream.bytes = .ok head := by decide
  have second : Stream.parse tail.toBitstream.bytes = .ok tail := by decide
  have leaves : head.decodeFrom fresh = .ok ([[1, 2]], state) := by decide
  have foreign : (Simulated.ofFrameSize 2).rebase ⟨0, "00.y4m", [5]⟩ ⟨[]⟩ handle tail.toBitstream =
      .error (.stateMismatch (.foreignOldState 0)) := by decide
  refine ⟨readBack state (by decide), read, (written _ _ read).1, ?_, ?_⟩
  · exact (alike _ _ _ _ _ _ _ read first second rfl rfl rfl leaves _ _ _
      (List.cons_ne_nil _ _)).mp foreign
  · rw [within]
    decide

end DecoderState

end Transcode
