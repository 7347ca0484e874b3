/-
**Continuing a state**, whatever the state and the predictor.

* A predictor that is accepted bounds the size and the number of the frames by what can be written
  down (`Matches.small`, `Matches.few`).
* `Simulated.encodeGivenState_decodes` — what continues a state decodes from that state.
* `Simulated.rebase_encodeGivenState` — rebasing is encoding once more, given the new state; so
  rebasing twice is rebasing once (`rebase_rebase`).
-/
import Transcode.Proofs.Codec.Simulated
import Transcode.Proofs.Codec.WireFormat

namespace Transcode.Simulated

variable {simulated : Simulated} {raw : RawChunk} {pixels : List Bytes} {stream : Stream}
  {predictor : Bitstream}

theorem frames_eq_ok :
    simulated.frames raw = .ok pixels ↔ raw.data ≠ [] ∧ pixels = simulated.pixels raw := by
  by_cases present : raw.data = []
  · exact iff_of_false (by simp [frames, present]) fun ⟨other, _⟩ => other present
  · rw [frames_eq present, Except.ok.injEq]
    exact ⟨fun same => ⟨present, same.symm⟩, fun ⟨_, same⟩ => same.symm⟩

theorem Matches.small (matched : simulated.Matches pixels stream) :
    simulated.frameSize < UInt32.size :=
  matched.size ▸ stream.frameSize.toNat_lt

theorem Matches.few (matched : simulated.Matches pixels stream)
    (read : Stream.parse predictor.bytes = .ok stream) : pixels.length < UInt32.size :=
  matched.count ▸ (Stream.parse_eq_ok.mp read).1.frames

theorem encodeGivenState_eq_ok {handle : StateHandle} {encoded : Encoded} :
    simulated.encodeGivenState raw handle predictor = .ok encoded ↔
      ∃ pixels state, simulated.predicted raw predictor = .ok pixels ∧
        DecoderState.parse handle = .ok state ∧ state.HasRoom pixels.length ∧
        encoded = simulated.continuation pixels state := by
  rw [encodeGivenState_eq, bind_eq_ok]
  simp only [continueFrom_eq_ok, exists_and_left]

/-! ### Encoding given a state -/

/-- **What continues a state decodes from that state.** Let a chunk be cut into frames, and let a
state be given in its stored form, whatever its last frame, with room in its counter. A predictor is
accepted just if it is a stream of as many frames of the right size which starts afresh, whatever
the frames are. The encoding is then a stream that asks for the given state; decoded from there it
yields the frames of the chunk, counts them, and ends in the state that was returned. -/
theorem encodeGivenState_decodes (cut : simulated.frames raw = .ok pixels) {handle : StateHandle}
    {state : DecoderState} (parses : DecoderState.parse handle = .ok state)
    (room : state.framesDecoded.toNat + pixels.length < UInt64.size) (predictor : Bitstream) :
    ((∃ encoded, simulated.encodeGivenState raw handle predictor = .ok encoded) ↔
      ∃ stream, Stream.parse predictor.bytes = .ok stream ∧ stream.entryHash = none ∧
        stream.frameSize.toNat = simulated.frameSize ∧ stream.frames.length = pixels.length) ∧
    ∀ encoded, simulated.encodeGivenState raw handle predictor = .ok encoded →
      ∃ stream final, Stream.parse encoded.stream.bytes = .ok stream ∧
        stream.frameSize.toNat = simulated.frameSize ∧
        stream.entryHash = some (minihash handle) ∧
        stream.decodeFrom state = .ok (pixels, final) ∧ pixels.flatten = raw.data ∧
        final.toHandle = encoded.state ∧
        final.framesDecoded.toNat = state.framesDecoded.toNat + pixels.length := by
  refine ⟨⟨?_, ?_⟩, fun encoded encodes => ?_⟩
  · rintro ⟨encoded, encodes⟩
    obtain ⟨found, -, accepted, -⟩ := encodeGivenState_eq_ok.mp encodes
    obtain ⟨again, stream, read, fresh, matched⟩ := predicted_eq_ok.mp accepted
    cases cut.symm.trans again
    exact ⟨stream, read, fresh, matched.size, matched.count⟩
  · rintro ⟨stream, read, fresh, size, count⟩
    have accepted := predicted_eq_ok.mpr ⟨cut, stream, read, fresh, size, count⟩
    exact ⟨_, encodeGivenState_eq_ok.mpr ⟨pixels, state, accepted, parses, room, rfl⟩⟩
  · obtain ⟨found, same, accepted, known, -, rfl⟩ := encodeGivenState_eq_ok.mp encodes
    cases parses.symm.trans known
    obtain ⟨again, stream, read, -, matched⟩ := predicted_eq_ok.mp accepted
    cases cut.symm.trans again
    obtain ⟨-, rfl⟩ := DecoderState.parse_eq_ok.mp parses
    obtain ⟨-, rfl⟩ := frames_eq_ok.mp cut
    exact ⟨_, _, parse_continued simulated (writable_pixels matched.small (matched.few read)) state,
      UInt32.toNat_ofNat_of_lt' matched.small, rfl, decodeFrom_continued simulated room,
      flatten_pixels simulated raw, rfl, DecoderState.toNat_framesDecoded_after room⟩

/-- A chunk whose second frame is shorter than the first. -/
def unevenChunk : RawChunk :=
  ⟨4, "04.y4m", [1, 2, 3]⟩

/-- A state whose last frame is longer than those, with room for two more frames. -/
def lateState : DecoderState :=
  ⟨0xfffffffffffffffd, [7, 7, 7]⟩

/-- Two frames that have nothing to do with the chunk. -/
def strangeStream : Stream :=
  ⟨2, none, [⟨.inter, []⟩, ⟨.key, [9, 9, 9]⟩]⟩

theorem parse_lateState : DecoderState.parse lateState.toHandle = .ok lateState := by
  decide

theorem frames_unevenChunk : (ofFrameSize 2).frames unevenChunk = .ok [[1, 2], [3]] := by
  simp [frames, unevenChunk, ofFrameSize, Bytes.pieces]

/-- The predictor need not know the chunk. -/
theorem encodeGivenState_decodes_unevenChunk :
    ∃ encoded stream final,
      (ofFrameSize 2).encodeGivenState unevenChunk lateState.toHandle
        strangeStream.toBitstream = .ok encoded ∧
      Stream.parse encoded.stream.bytes = .ok stream ∧
      stream.decodeFrom lateState = .ok ([[1, 2], [3]], final) ∧
      final.toHandle = encoded.state ∧ final.framesDecoded = 0xffffffffffffffff := by
  obtain ⟨accepts, decodes⟩ := encodeGivenState_decodes frames_unevenChunk parse_lateState
    (by decide) strangeStream.toBitstream
  have read : Stream.parse strangeStream.toBitstream.bytes = .ok strangeStream := by decide
  obtain ⟨encoded, encodes⟩ := accepts.mpr ⟨strangeStream, read, rfl, rfl, rfl⟩
  obtain ⟨stream, final, read, -, -, yields, -, ends, counted⟩ := decodes encoded encodes
  exact ⟨encoded, stream, final, encodes, read, yields, ends,
    UInt64.toNat_inj.mp (counted.trans (by decide))⟩

/-! ### Rebasing -/

/-- **Rebasing twice** is rebasing once, if the state between can be read and has room for the
frames of the chunk; a predictor that is refused is refused either way. -/
theorem rebase_rebase (simulated : Simulated) {raw : RawChunk} {between : StateHandle}
    {state : DecoderState} (parses : DecoderState.parse between = .ok state)
    (room : state.HasRoom (simulated.pixels raw).length)
    (newState oldState : StateHandle) (predictor : Bitstream) :
    (simulated.rebase raw between oldState predictor >>= fun encoded =>
      simulated.rebase raw newState between encoded.stream) =
      simulated.rebase raw newState oldState predictor := by
  rw [rebase_eq, rebase_eq simulated raw newState oldState predictor]
  cases accepted : simulated.reproduced raw oldState predictor with
  | error error => rfl
  | ok pixels =>
    obtain ⟨cut, stream, _, _, read, -, matched, -⟩ := reproduced_eq_ok.mp accepted
    obtain ⟨present, rfl⟩ := frames_eq_ok.mp cut
    obtain ⟨fits, rfl⟩ := DecoderState.parse_eq_ok.mp parses
    have again := reproduced_continued matched.small present (matched.few read) fits room
    show (simulated.continueFrom (simulated.pixels raw) state.toHandle >>= _) = _
    rw [continueFrom_toHandle simulated fits room]
    show simulated.rebase raw newState state.toHandle _ = _
    rw [rebase_eq]
    exact congrArg (· >>= (simulated.continueFrom · newState)) again

/-- Whatever the predictor, rebasing that succeeds continues the new state. -/
theorem eq_continuation_of_rebase {newState oldState : StateHandle} {state : DecoderState}
    {encoded : Encoded} (cut : simulated.frames raw = .ok pixels)
    (parses : DecoderState.parse newState = .ok state)
    (rebases : simulated.rebase raw newState oldState predictor = .ok encoded) :
    encoded = simulated.continuation pixels state := by
  rw [rebase_eq] at rebases
  obtain ⟨found, accepted, continues⟩ := bind_eq_ok.mp rebases
  cases cut.symm.trans (reproduced_eq_ok.mp accepted).1
  obtain ⟨same, known, -, rfl⟩ := continueFrom_eq_ok.mp continues
  cases parses.symm.trans known
  rfl

/-- **Rebasing is encoding once more**, given the new state. Let a chunk be cut into frames whose
size and number can be written down, and let two states be given in their stored form, with room in
their counters for the frames. The encoding given the old state is rebased to the encoding given the
new one, stream and state; and no predictor is rebased to anything else. So rebasing onto one state
and then onto another, which need not even be readable, is rebasing onto the other, failures
included; and rebasing onto the old state changes nothing. -/
theorem rebase_encodeGivenState (small : simulated.frameSize < UInt32.size)
    (cut : simulated.frames raw = .ok pixels) (few : pixels.length < UInt32.size)
    {newState oldState : StateHandle} {new old : DecoderState}
    (parses : DecoderState.parse newState = .ok new)
    (room : new.framesDecoded.toNat + pixels.length < UInt64.size)
    (known : DecoderState.parse oldState = .ok old)
    (ample : old.framesDecoded.toNat + pixels.length < UInt64.size) :
    ∃ baseline predictor rebased, simulated.encode raw = .ok baseline ∧
      simulated.encodeGivenState raw oldState baseline = .ok predictor ∧
      simulated.encodeGivenState raw newState baseline = .ok rebased ∧
      simulated.rebase raw newState oldState predictor.stream = .ok rebased ∧
      (∀ other encoded, simulated.rebase raw newState oldState other = .ok encoded →
        encoded = rebased) ∧
      (∀ another other,
        (simulated.rebase raw newState oldState other >>= fun encoded =>
          simulated.rebase raw another newState encoded.stream) =
          simulated.rebase raw another oldState other) ∧
      simulated.rebase raw oldState oldState predictor.stream = .ok predictor := by
  have unique (other : Bitstream) (encoded : Encoded)
      (rebases : simulated.rebase raw newState oldState other = .ok encoded) :
      encoded = simulated.continuation pixels new := eq_continuation_of_rebase cut parses rebases
  obtain ⟨present, rfl⟩ := frames_eq_ok.mp cut
  have twice := rebase_rebase simulated parses room
  obtain ⟨fits, rfl⟩ := DecoderState.parse_eq_ok.mp parses
  obtain ⟨held, rfl⟩ := DecoderState.parse_eq_ok.mp known
  exact ⟨_, _, _, encode_eq present, encodeGivenState_opened small present few held ample,
    encodeGivenState_opened small present few fits room,
    rebase_continued small present few held ample fits room, unique, fun another => twice another _,
    rebase_continued small present few held ample held ample⟩

/-- From a state with a longer frame to one without a frame, and back. -/
theorem rebase_encodeGivenState_unevenChunk :
    ∃ predictor rebased,
      (ofFrameSize 2).rebase unevenChunk (DecoderState.toHandle ⟨5, []⟩) lateState.toHandle
        predictor = .ok rebased ∧
      (ofFrameSize 2).rebase unevenChunk lateState.toHandle (DecoderState.toHandle ⟨5, []⟩)
        rebased.stream =
        (ofFrameSize 2).rebase unevenChunk lateState.toHandle lateState.toHandle predictor := by
  have empty : DecoderState.parse (DecoderState.toHandle ⟨5, []⟩) = .ok ⟨5, []⟩ := by decide
  obtain ⟨_, predictor, rebased, -, -, -, rebases, -, twice, -⟩ :=
    rebase_encodeGivenState (by decide) frames_unevenChunk (by decide) empty (by decide)
      parse_lateState (by decide)
  refine ⟨predictor.stream, rebased, rebases, ?_⟩
  rw [← twice lateState.toHandle predictor.stream, rebases]
  rfl

end Transcode.Simulated
