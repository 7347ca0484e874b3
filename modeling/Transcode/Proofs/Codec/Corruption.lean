/-
**One octet that went wrong** in a stored state never passes for the state.

* `Bytes.fnv1a_ne` — the hash tells any two byte strings apart that differ in one octet: each step of
  it can be undone (`Bytes.hashStep_inj`), so what follows the octet carries the difference on.
* `Simulated.EncodedAgainst` — what was encoded given a state, in either way, asks for its hash.
* `Simulated.rebase_of_foreign` and `Simulated.merge_of_foreign` — rebasing and merging refuse a stream
  that asks for another hash, and for that reason.
* `Simulated.corruption_refused` — hence they do for every corruption of one octet.
-/
import Transcode.Proofs.Codec.Merging

namespace Transcode

namespace Bytes

variable {bytes other : Bytes} {hash hash' : UInt32} {octet octet' : UInt8}

/-! ### The hash -/

/-- One step of the hash. -/
def hashStep (hash : UInt32) (octet : UInt8) : UInt32 :=
  (hash ^^^ octet.toUInt32) * 0x01000193

theorem fnv1a_eq_foldl (bytes : Bytes) : fnv1a bytes = bytes.foldl hashStep 0x811c9dc5 :=
  rfl

/-- The factor is odd, so that there is another which undoes it. -/
theorem mul_factor_inj {a b : UInt32} (same : a * 0x01000193 = b * 0x01000193) : a = b := by
  have undone : (0x01000193 : UInt32) * 0x359c449b = 1 := by decide
  calc a = a * 0x01000193 * 0x359c449b := by rw [UInt32.mul_assoc, undone, UInt32.mul_one]
    _ = b * 0x01000193 * 0x359c449b := by rw [same]
    _ = b := by rw [UInt32.mul_assoc, undone, UInt32.mul_one]

/-- The step can be undone: for the same octet, from different hashes to different ones. -/
theorem hashStep_inj (same : hashStep hash octet = hashStep hash' octet) : hash = hash' :=
  (UInt32.xor_left_inj _).mp (mul_factor_inj same)

/-- From the same hash, different octets lead to different ones. -/
theorem hashStep_octet_inj (same : hashStep hash octet = hashStep hash octet') : octet = octet' :=
  UInt8.toUInt32_inj.mp ((UInt32.xor_right_inj _).mp (mul_factor_inj same))

/-- What follows keeps hashes apart. -/
theorem foldl_hashStep_inj (rest : Bytes)
    (same : rest.foldl hashStep hash = rest.foldl hashStep hash') : hash = hash' := by
  induction rest generalizing hash hash' with
  | nil => exact same
  | cons octet rest ih => exact hashStep_inj (ih same)

/-! ### One octet -/

/-- Byte strings of one length that differ at exactly one position. -/
def DifferOnce (bytes other : Bytes) : Prop :=
  bytes.length = other.length ∧ ∃! position : Nat, bytes[position]? ≠ other[position]?

/-- Such byte strings have all in common but one octet. -/
theorem differOnce_iff :
    DifferOnce bytes other ↔
      ∃ front octet octet' rest, octet ≠ octet' ∧ bytes = front ++ octet :: rest ∧
        other = front ++ octet' :: rest := by
  constructor
  · rintro ⟨long, position, differ, unique⟩
    have inside : position < bytes.length := by
      by_contra outside
      exact differ (by rw [List.getElem?_eq_none (by omega), List.getElem?_eq_none (by omega)])
    have inside' : position < other.length := long ▸ inside
    have changed : bytes.set position other[position] = other := by
      refine List.ext_getElem? fun place => ?_
      by_cases here : position = place
      · subst here
        rw [List.getElem?_set_self inside, List.getElem?_eq_getElem inside']
      · rw [List.getElem?_set_ne here]
        by_contra unlike
        exact here (unique place unlike).symm
    have shape (octet : UInt8) : bytes.set position octet =
        bytes.take position ++ octet :: bytes.drop (position + 1) := by
      rw [List.set_eq_take_append_cons_drop, if_pos inside]
    refine ⟨_, bytes[position], other[position], _, fun same => ?_,
      (List.set_getElem_self inside).symm.trans (shape _), changed.symm.trans (shape _)⟩
    exact differ (by
      rw [List.getElem?_eq_getElem inside, List.getElem?_eq_getElem inside', same])
  · rintro ⟨front, octet, octet', rest, differ, rfl, rfl⟩
    refine ⟨by simp, front.length, by simpa using differ, fun place unlike => ?_⟩
    by_contra away
    exact unlike (by grind)

/-- **The hash notices a change of one octet.** -/
theorem fnv1a_ne (once : DifferOnce bytes other) : fnv1a bytes ≠ fnv1a other := by
  obtain ⟨front, octet, octet', rest, differ, rfl, rfl⟩ := differOnce_iff.mp once
  intro same
  simp only [fnv1a_eq_foldl, List.foldl_append, List.foldl_cons] at same
  exact differ (hashStep_octet_inj (foldl_hashStep_inj rest same))

end Bytes

namespace Simulated

open DecoderState (fresh)

variable {simulated maker : Simulated} {raw : RawChunk} {head tail stream : Stream}
  {front back predictor : Bitstream} {handle newState oldState : StateHandle} {encoded : Encoded}

/-! ### Refusals -/

/-- The call does not fail for a state that does not fit. -/
def NoMismatch {α : Type} (result : Except CodecError α) : Prop :=
  ∀ cause, result ≠ .error (.stateMismatch cause)

theorem NoMismatch.bind {α β : Type} {first : Except CodecError α}
    {next : α → Except CodecError β} (before : NoMismatch first)
    (after : ∀ value, NoMismatch (next value)) : NoMismatch (first >>= next) := by
  intro cause failed
  cases result : first with
  | error error =>
    subst result
    exact before cause (by cases failed; rfl)
  | ok value =>
    subst result
    exact after value cause failed

theorem noMismatch_ok {α : Type} (value : α) : NoMismatch (.ok value) :=
  nofun

theorem noMismatch_reading {α : Type} (result : Except Malformation α) :
    NoMismatch (reading result) := by
  cases result <;> exact nofun

theorem noMismatch_frames (simulated : Simulated) (raw : RawChunk) :
    NoMismatch (simulated.frames raw) := by
  unfold frames
  split <;> exact nofun

theorem noMismatch_checkPredictor (pixels : List Bytes) :
    NoMismatch (simulated.checkPredictor raw pixels stream) := by
  unfold checkPredictor
  split
  · exact nofun
  · split <;> exact nofun

theorem noMismatch_advanceAll (state : DecoderState) (pixels : List Bytes) :
    NoMismatch (state.advanceAll pixels) := by
  rw [DecoderState.advanceAll_eq]
  split <;> exact nofun

theorem noMismatch_decodeFrom (stream : Stream) (state : DecoderState) :
    NoMismatch (stream.decodeFrom state) := by
  unfold Stream.decodeFrom
  split
  · exact nofun
  · exact (noMismatch_advanceAll state _).bind fun _ => noMismatch_ok _

theorem noMismatch_continueFrom (pixels : List Bytes) :
    NoMismatch (simulated.continueFrom pixels newState) :=
  (noMismatch_reading _).bind fun state =>
    (noMismatch_advanceAll state pixels).bind fun _ => noMismatch_ok _

/-- **Rebasing refuses** a stream that asks for another state than the old one. -/
theorem rebase_of_foreign (present : raw.data ≠ [])
    (read : Stream.parse predictor.bytes = .ok stream)
    (foreign : stream.entryHash ≠ some (minihash oldState)) :
    simulated.rebase raw newState oldState predictor =
      .error (.stateMismatch (.foreignOldState raw.index)) := by
  rw [rebase, frames_eq present, read]
  exact if_pos foreign

/-- It refuses no stream for its state otherwise. -/
theorem noMismatch_rebase (read : Stream.parse predictor.bytes = .ok stream)
    (follows : stream.entryHash = some (minihash oldState)) :
    NoMismatch (simulated.rebase raw newState oldState predictor) := by
  rw [rebase, read]
  refine (noMismatch_frames simulated raw).bind fun pixels => ?_
  show NoMismatch (if stream.entryHash ≠ some (minihash oldState) then _ else _)
  rw [if_neg (not_not_intro follows)]
  refine (noMismatch_checkPredictor pixels).bind fun _ => ?_
  refine (noMismatch_reading _).bind fun state => ?_
  refine (noMismatch_decodeFrom stream state).bind fun (decoded, _) => ?_
  show NoMismatch (if decoded ≠ pixels then _ else _)
  split
  · exact nofun
  · exact noMismatch_continueFrom pixels

/-- **Merging refuses** a stream that asks for another state than the one it is to follow. -/
theorem merge_of_foreign (first : Stream.parse front.bytes = .ok head)
    (second : Stream.parse back.bytes = .ok tail) (size : head.frameSize = tail.frameSize)
    (starts : head.entryHash = none) {decoded : List Bytes} {final : DecoderState}
    (yields : head.decodeFrom fresh = .ok (decoded, final))
    {expected : UInt32} (asks : tail.entryHash = some expected)
    (foreign : minihash final.toHandle ≠ expected) :
    merge front back = .error (.stateMismatch .discontinuousSuffix) := by
  have refused : checkContinuation head tail = .error (.stateMismatch .discontinuousSuffix) := by
    simp only [checkContinuation, starts, asks, yields, bind, Except.bind, foreign, if_false]
  simp only [merge, first, second, reading_ok, bind, Except.bind, size, ne_eq,
    not_true_eq_false, if_false, refused]

/-! ### What asks for a state -/

/-- The encoding of some chunk given the state: it was made in this way at once, or rebased onto the
state. -/
inductive EncodedAgainst (maker : Simulated) (handle : StateHandle) (encoded : Encoded) : Prop where
  | given (raw : RawChunk) (predictor : Bitstream)
      (encodes : maker.encodeGivenState raw handle predictor = .ok encoded)
  | rebased (raw : RawChunk) (oldState : StateHandle) (predictor : Bitstream)
      (rebases : maker.rebase raw handle oldState predictor = .ok encoded)

/-- Either way some frames continue the state. -/
theorem EncodedAgainst.exists_continuation (made : maker.EncodedAgainst handle encoded) :
    ∃ pixels state, Writable pixels ∧ maker.frameSize < UInt32.size ∧
      DecoderState.parse handle = .ok state ∧ encoded = maker.continuation pixels state := by
  cases made with
  | given raw predictor encodes =>
    obtain ⟨pixels, state, accepted, known, -, rfl⟩ := encodeGivenState_eq_ok.mp encodes
    obtain ⟨cut, stream, read, -, matched⟩ := predicted_eq_ok.mp accepted
    obtain ⟨-, rfl⟩ := frames_eq_ok.mp cut
    exact ⟨_, state, writable_pixels matched.small (matched.few read), matched.small, known, rfl⟩
  | rebased raw oldState predictor rebases =>
    rw [rebase_eq] at rebases
    obtain ⟨pixels, accepted, continues⟩ := bind_eq_ok.mp rebases
    obtain ⟨state, known, -, rfl⟩ := continueFrom_eq_ok.mp continues
    obtain ⟨cut, stream, _, _, read, -, matched, -⟩ := reproduced_eq_ok.mp accepted
    obtain ⟨-, rfl⟩ := frames_eq_ok.mp cut
    exact ⟨_, state, writable_pixels matched.small (matched.few read), matched.small, known, rfl⟩

/-- **What is encoded given a state** is a stream that asks for it. -/
theorem EncodedAgainst.exists_parse (made : maker.EncodedAgainst handle encoded) :
    ∃ stream, Stream.parse encoded.stream.bytes = .ok stream ∧
      stream.frameSize.toNat = maker.frameSize ∧ stream.entryHash = some (minihash handle) := by
  obtain ⟨pixels, state, writable, small, known, rfl⟩ := made.exists_continuation
  obtain ⟨-, rfl⟩ := DecoderState.parse_eq_ok.mp known
  exact ⟨_, parse_continued maker writable state, UInt32.toNat_ofNat_of_lt' small, rfl⟩

/-! ### Corruption -/

/-- **A corruption of one octet is refused**, wherever it is. Let a stored state, which need not even
be readable, be turned into another by a change of one octet. The two have different hashes. Whatever
was encoded given the first, rebasing any chunk refuses it as a predictor for the second, whatever the
new state; and merging refuses it after every stream with frames of its size that leaves the second
state. For the first state itself, neither is refused. -/
theorem corruption_refused {handle corrupted : StateHandle}
    (once : handle.bytes.DifferOnce corrupted.bytes) :
    minihash handle ≠ minihash corrupted ∧
    ∀ (maker : Simulated) encoded, maker.EncodedAgainst handle encoded →
      (∀ (simulated : Simulated) raw newState, raw.data ≠ [] →
        simulated.rebase raw newState corrupted encoded.stream =
          .error (.stateMismatch (.foreignOldState raw.index)) ∧
        ∀ cause, simulated.rebase raw newState handle encoded.stream ≠
          .error (.stateMismatch cause)) ∧
      ∀ front head, Stream.parse front.bytes = .ok head →
        head.frameSize.toNat = maker.frameSize →
        (decodeState front = .ok corrupted →
          merge front encoded.stream = .error (.stateMismatch .discontinuousSuffix)) ∧
        (decodeState front = .ok handle → ∃ merged, merge front encoded.stream = .ok merged) := by
  have noticed : minihash handle ≠ minihash corrupted := Bytes.fnv1a_ne once
  refine ⟨noticed, fun maker encoded made => ?_⟩
  obtain ⟨stream, read, size, asks⟩ := made.exists_parse
  refine ⟨fun simulated raw newState present => ⟨?_, ?_⟩,
    fun front head first same => ⟨fun leaves => ?_, fun leaves => ?_⟩⟩
  · refine rebase_of_foreign present read ?_
    rw [asks]
    exact fun equal => noticed (Option.some.inj equal)
  · exact noMismatch_rebase read asks
  · obtain ⟨_, decoded, final, again, starts, yields, rfl⟩ := decodeState_eq_ok.mp leaves
    cases first.symm.trans again
    exact merge_of_foreign first read (UInt32.toNat_inj.mp (same.trans size.symm)) starts yields
      asks noticed.symm
  · obtain ⟨_, decoded, final, again, starts, yields, rfl⟩ := decodeState_eq_ok.mp leaves
    cases first.symm.trans again
    have joins : Joins head stream := {
      size := UInt32.toNat_inj.mp (same.trans size.symm)
      follows := fun _ expected asked =>
        ⟨decoded, final, yields, Option.some.inj (asks.symm.trans asked)⟩ }
    exact ⟨_, merge_eq_ok.mpr ⟨head, stream, first, read, joins, rfl⟩⟩

/-- The last octet of the last frame is a two in place of a three. -/
theorem corruption_refused_lastOctet :
    let handle := DecoderState.toHandle ⟨1, [1, 3]⟩
    let corrupted := DecoderState.toHandle ⟨1, [1, 2]⟩
    ∃ encoded,
      (ofFrameSize 2).encodeGivenState unevenChunk handle strangeStream.toBitstream = .ok encoded ∧
      minihash handle ≠ minihash corrupted ∧
      (ofFrameSize 3).rebase unevenChunk ⟨[]⟩ corrupted encoded.stream =
        .error (.stateMismatch (.foreignOldState 4)) ∧
      merge (Stream.toBitstream ⟨2, none, [⟨.key, [1, 2]⟩]⟩) encoded.stream =
        .error (.stateMismatch .discontinuousSuffix) := by
  intro handle corrupted
  have once : handle.bytes.DifferOnce corrupted.bytes :=
    Bytes.differOnce_iff.mpr ⟨handle.bytes.dropLast, 3, 2, [], by decide, rfl, rfl⟩
  have accepted : (ofFrameSize 2).predicted unevenChunk strangeStream.toBitstream =
      .ok [[1, 2], [3]] :=
    predicted_eq_ok.mpr ⟨frames_unevenChunk, strangeStream, by decide, rfl, rfl, rfl⟩
  have encodes : (ofFrameSize 2).encodeGivenState unevenChunk handle strangeStream.toBitstream =
      .ok ((ofFrameSize 2).continuation [[1, 2], [3]] ⟨1, [1, 3]⟩) :=
    encodeGivenState_eq_ok.mpr ⟨_, _, accepted, by decide, by decide, rfl⟩
  obtain ⟨noticed, refused⟩ := corruption_refused once
  obtain ⟨rebased, merged⟩ := refused _ _ (.given _ _ encodes)
  have first : Stream.parse (Stream.toBitstream ⟨2, none, [⟨.key, [1, 2]⟩]⟩).bytes =
      .ok ⟨2, none, [⟨.key, [1, 2]⟩]⟩ := by decide
  exact ⟨_, encodes, noticed, (rebased _ _ _ (List.cons_ne_nil _ _)).1,
    (merged _ _ first rfl).1 (by decide)⟩

end Simulated

end Transcode
