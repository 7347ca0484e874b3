/-
**The frame counter** of decoder states. It is a 64-bit word, it enters with the bytes of a state
that somebody else may have written, and two loops move it on: the one that encodes frames, and the
one that decodes them. Nobody looks whether there is room before a loop begins.

* `Simulated.encodeGivenState_eq_panicked`, `Simulated.rebase_eq_panicked_iff` — just those calls
  panic that come to a loop for which the counter has no room.
* `Simulated.counts_frames` — hence every call that continues a state counts the frames of its
  chunk, and so does the decoding that rebasing begins with, or else the call panics. There are
  states with too little room (`Simulated.counts_frames_overflows`).
-/
import Transcode.Proofs.Codec.Decoding

namespace Transcode.Simulated

variable {simulated : Simulated} {raw : RawChunk} {pixels : List Bytes} {state : DecoderState}
  {predictor : Bitstream} {newState oldState : StateHandle}

/-! ### Calls that return -/

/-- What continues a state leaves one that can be read and has counted the frames. -/
theorem counts_of_continuation (small : simulated.frameSize < UInt32.size)
    (cut : simulated.frames raw = .ok pixels) {handle : StateHandle}
    (parses : DecoderState.parse handle = .ok state) (room : state.HasRoom pixels.length) :
    ∃ final, DecoderState.parse (simulated.continuation pixels state).state = .ok final ∧
      final.framesDecoded.toNat = state.framesDecoded.toNat + pixels.length := by
  obtain ⟨fits, -⟩ := DecoderState.parse_eq_ok.mp parses
  obtain ⟨-, rfl⟩ := frames_eq_ok.mp cut
  have left : (state.after (simulated.pixels raw)).Fits :=
    fits.after fun _ => length_lt_of_mem_pixels small
  exact ⟨_, DecoderState.parse_toHandle left, DecoderState.toNat_framesDecoded_after room⟩

/-- **A call that encodes given a state** has counted the frames of its chunk. -/
theorem counts_of_encodeGivenState {predecessor : StateHandle} {encoded : Encoded}
    (encodes : simulated.encodeGivenState raw predecessor predictor = .ok encoded) :
    ∃ pixels state final, simulated.frames raw = .ok pixels ∧
      DecoderState.parse predecessor = .ok state ∧ DecoderState.parse encoded.state = .ok final ∧
      final.framesDecoded.toNat = state.framesDecoded.toNat + pixels.length := by
  obtain ⟨pixels, state, accepted, parses, room, rfl⟩ := encodeGivenState_eq_ok.mp encodes
  obtain ⟨cut, stream, -, -, matched⟩ := predicted_eq_ok.mp accepted
  obtain ⟨final, read, counted⟩ := counts_of_continuation matched.small cut parses room
  exact ⟨pixels, state, final, cut, parses, read, counted⟩

/-- **A call that rebases** has counted the frames of its chunk twice: from the old state, when it
decoded the predictor, and from the new one. -/
theorem counts_of_rebase {encoded : Encoded}
    (rebases : simulated.rebase raw newState oldState predictor = .ok encoded) :
    ∃ pixels new final stream old reached, simulated.frames raw = .ok pixels ∧
      DecoderState.parse newState = .ok new ∧ DecoderState.parse encoded.state = .ok final ∧
      final.framesDecoded.toNat = new.framesDecoded.toNat + pixels.length ∧
      DecoderState.parse oldState = .ok old ∧ Stream.parse predictor.bytes = .ok stream ∧
      stream.decodeFrom old = .ok (pixels, reached) ∧
      reached.framesDecoded.toNat = old.framesDecoded.toNat + pixels.length := by
  rw [rebase_eq] at rebases
  obtain ⟨pixels, accepted, continues⟩ := bind_eq_ok.mp rebases
  obtain ⟨cut, stream, old, reached, known, -, matched, held, decodes⟩ :=
    reproduced_eq_ok.mp accepted
  obtain ⟨new, parses, room, rfl⟩ := continueFrom_eq_ok.mp continues
  obtain ⟨final, read, counted⟩ := counts_of_continuation matched.small cut parses room
  have before := Stream.toNat_framesDecoded_of_decodeFrom decodes
  exact ⟨pixels, new, final, stream, old, reached, cut, parses, read, counted, held, known,
    decodes, matched.count ▸ before⟩

/-! ### Calls that panic -/

theorem reading_ne_panicked {α : Type} (result : Except Malformation α) :
    reading result ≠ .error .panicked := by
  cases result <;> exact nofun

theorem frames_ne_panicked (simulated : Simulated) (raw : RawChunk) :
    simulated.frames raw ≠ .error .panicked := by
  unfold frames
  split <;> exact nofun

theorem checkPredictor_ne_panicked (simulated : Simulated) (raw : RawChunk) (pixels : List Bytes)
    (stream : Stream) : simulated.checkPredictor raw pixels stream ≠ .error .panicked := by
  unfold checkPredictor
  split
  · exact nofun
  · split <;> exact nofun

/-- Looking at a predictor that starts afresh decodes nothing. -/
theorem predicted_ne_panicked : simulated.predicted raw predictor ≠ .error .panicked := by
  intro panics
  obtain ⟨pixels, -, panics⟩ := (bind_eq_error (frames_ne_panicked simulated raw)).mp panics
  obtain ⟨stream, -, panics⟩ := (bind_eq_error (reading_ne_panicked _)).mp panics
  split at panics
  · cases panics
  · obtain ⟨_, -, panics⟩ :=
      (bind_eq_error (checkPredictor_ne_panicked simulated raw pixels stream)).mp panics
    cases panics

/-- **Continuing a state panics** just if its counter has no room for the frames. -/
theorem continueFrom_eq_panicked {entry : StateHandle} :
    simulated.continueFrom pixels entry = .error .panicked ↔
      ∃ state, DecoderState.parse entry = .ok state ∧ ¬ state.HasRoom pixels.length := by
  constructor
  · intro panics
    obtain ⟨state, read, -⟩ := (bind_eq_error (reading_ne_panicked _)).mp panics
    have read := reading_eq_ok.mp read
    obtain ⟨fits, rfl⟩ := DecoderState.parse_eq_ok.mp read
    rw [continueFrom_eq simulated pixels fits] at panics
    split at panics
    · cases panics
    · next full => exact ⟨state, read, full⟩
  · rintro ⟨state, read, full⟩
    obtain ⟨fits, rfl⟩ := DecoderState.parse_eq_ok.mp read
    exact (continueFrom_eq simulated pixels fits).trans (if_neg full)

/-- A stream that asks for a state may begin with a difference. -/
theorem decodeFrom_of_entryHash {stream : Stream} {hash : UInt32}
    (asks : stream.entryHash = some hash) :
    stream.decodeFrom state =
      if state.HasRoom stream.frames.length then
        .ok (Stream.decodeFrames stream.frames state.lastFrame,
          state.after (Stream.decodeFrames stream.frames state.lastFrame))
      else .error .panicked :=
  Stream.decodeFrom_eq fun opens =>
    nomatch asks.symm.trans (Stream.entryHash_of_opensWithInterFrame opens)

/-- **Which predictors make rebasing panic**: those that are decoded from a state whose counter has
no room for their frames. -/
theorem reproduced_eq_panicked :
    simulated.reproduced raw oldState predictor = .error .panicked ↔
      ∃ pixels stream old, simulated.frames raw = .ok pixels ∧
        Stream.parse predictor.bytes = .ok stream ∧
        stream.entryHash = some (minihash oldState) ∧ simulated.Matches pixels stream ∧
        DecoderState.parse oldState = .ok old ∧ ¬ old.HasRoom pixels.length := by
  constructor
  · intro panics
    obtain ⟨pixels, cut, panics⟩ := (bind_eq_error (frames_ne_panicked simulated raw)).mp panics
    obtain ⟨stream, read, panics⟩ := (bind_eq_error (reading_ne_panicked _)).mp panics
    split at panics
    · cases panics
    · next follows =>
      have follows := not_not.mp follows
      obtain ⟨_, checked, panics⟩ :=
        (bind_eq_error (checkPredictor_ne_panicked simulated raw pixels stream)).mp panics
      obtain ⟨old, known, panics⟩ := (bind_eq_error (reading_ne_panicked _)).mp panics
      have matched := checkPredictor_eq_ok.mp checked
      refine ⟨pixels, stream, old, cut, reading_eq_ok.mp read, follows, matched,
        reading_eq_ok.mp known, fun room => ?_⟩
      rw [decodeFrom_of_entryHash follows, matched.count, if_pos room] at panics
      change (if _ then _ else _) = _ at panics
      split at panics <;> cases panics
  · rintro ⟨pixels, stream, old, cut, read, follows, matched, known, full⟩
    have overflows : stream.decodeFrom old = .error .panicked := by
      rw [decodeFrom_of_entryHash follows, matched.count, if_neg full]
    refine (bind_eq_error (frames_ne_panicked simulated raw)).mpr ⟨pixels, cut, ?_⟩
    refine (bind_eq_error (reading_ne_panicked _)).mpr ⟨stream, reading_eq_ok.mpr read, ?_⟩
    rw [if_neg (not_not_intro follows)]
    refine (bind_eq_error (checkPredictor_ne_panicked simulated raw pixels stream)).mpr
      ⟨(), checkPredictor_eq_ok.mpr matched, ?_⟩
    refine (bind_eq_error (reading_ne_panicked _)).mpr ⟨old, reading_eq_ok.mpr known, ?_⟩
    rw [overflows]
    rfl

/-- **Encoding given a state panics** just if the predictor starts afresh and fits the chunk, the
state can be read, and its counter has no room for the frames. -/
theorem encodeGivenState_eq_panicked {predecessor : StateHandle} :
    simulated.encodeGivenState raw predecessor predictor = .error .panicked ↔
      ∃ pixels stream state, simulated.frames raw = .ok pixels ∧
        Stream.parse predictor.bytes = .ok stream ∧ stream.entryHash = none ∧
        simulated.Matches pixels stream ∧ DecoderState.parse predecessor = .ok state ∧
        ¬ state.HasRoom pixels.length := by
  rw [encodeGivenState_eq, bind_eq_error predicted_ne_panicked]
  simp only [continueFrom_eq_panicked]
  constructor
  · rintro ⟨pixels, accepted, state, parses, full⟩
    obtain ⟨cut, stream, read, starts, matched⟩ := predicted_eq_ok.mp accepted
    exact ⟨pixels, stream, state, cut, read, starts, matched, parses, full⟩
  · rintro ⟨pixels, stream, state, cut, read, starts, matched, parses, full⟩
    exact ⟨pixels, predicted_eq_ok.mpr ⟨cut, stream, read, starts, matched⟩, state, parses, full⟩

/-- **Rebasing panics** just if its predictor does, or passes and the counter of the new state has
no room for the frames of the chunk. -/
theorem rebase_eq_panicked :
    simulated.rebase raw newState oldState predictor = .error .panicked ↔
      simulated.reproduced raw oldState predictor = .error .panicked ∨
        ∃ pixels new, simulated.reproduced raw oldState predictor = .ok pixels ∧
          DecoderState.parse newState = .ok new ∧ ¬ new.HasRoom pixels.length := by
  rw [rebase_eq]
  by_cases panics : simulated.reproduced raw oldState predictor = .error .panicked
  · rw [panics]
    exact iff_of_true rfl (.inl rfl)
  · rw [bind_eq_error panics, or_iff_right panics]
    simp only [continueFrom_eq_panicked, exists_and_left]

/-- **What makes rebasing panic**: a predictor that asks for the old state and fits the chunk, if
the counter of the old state has no room for the frames, or if the predictor decodes to them and
that of the new state has none. -/
theorem rebase_eq_panicked_iff :
    simulated.rebase raw newState oldState predictor = .error .panicked ↔
      ∃ pixels stream old, simulated.frames raw = .ok pixels ∧
        Stream.parse predictor.bytes = .ok stream ∧
        stream.entryHash = some (minihash oldState) ∧ simulated.Matches pixels stream ∧
        DecoderState.parse oldState = .ok old ∧
        (¬ old.HasRoom pixels.length ∨ ∃ reached new,
          stream.decodeFrom old = .ok (pixels, reached) ∧ DecoderState.parse newState = .ok new ∧
          ¬ new.HasRoom pixels.length) := by
  rw [rebase_eq_panicked, reproduced_eq_panicked]
  constructor
  · rintro (⟨pixels, stream, old, cut, read, follows, matched, known, full⟩ |
      ⟨pixels, new, accepted, parses, full⟩)
    · exact ⟨pixels, stream, old, cut, read, follows, matched, known, .inl full⟩
    · obtain ⟨cut, stream, old, reached, read, follows, matched, known, decodes⟩ :=
        reproduced_eq_ok.mp accepted
      exact ⟨pixels, stream, old, cut, read, follows, matched, known,
        .inr ⟨reached, new, decodes, parses, full⟩⟩
  · rintro ⟨pixels, stream, old, cut, read, follows, matched, known, full |
      ⟨reached, new, decodes, parses, full⟩⟩
    · exact .inl ⟨pixels, stream, old, cut, read, follows, matched, known, full⟩
    · exact .inr ⟨pixels, new, reproduced_eq_ok.mpr
        ⟨cut, stream, old, reached, read, follows, matched, known, decodes⟩, parses, full⟩

/-! ### The law -/

/-- **Frames are counted, or the call panics.** Whatever bytes stand for the states and the
predictor: if a chunk is encoded given a state, then the chunk has been cut into frames, the state
has been read, and the state that is returned can be read, with a counter that is the sum of that of
the given state and the number of the frames. If a predictor is rebased, the same holds of the new
state and the returned one; and the predictor has decoded, from the old state, to the frames of the
chunk and to a state for which the same holds. But no state is refused for its counter. A predictor
that starts afresh and fits the chunk makes encoding panic just if the state can be read and that
sum is no word; one that asks for the old state and fits the chunk makes rebasing panic just if the
old state can be read and its sum is no word, or if the predictor decodes to the frames of the
chunk, the new state can be read and its sum is no word. -/
theorem counts_frames (simulated : Simulated) :
    (∀ raw predecessor predictor encoded,
      simulated.encodeGivenState raw predecessor predictor = .ok encoded →
      ∃ pixels state final, simulated.frames raw = .ok pixels ∧
        DecoderState.parse predecessor = .ok state ∧
        DecoderState.parse encoded.state = .ok final ∧
        final.framesDecoded.toNat = state.framesDecoded.toNat + pixels.length) ∧
    (∀ raw newState oldState predictor encoded,
      simulated.rebase raw newState oldState predictor = .ok encoded →
      ∃ pixels new final stream old reached, simulated.frames raw = .ok pixels ∧
        DecoderState.parse newState = .ok new ∧ DecoderState.parse encoded.state = .ok final ∧
        final.framesDecoded.toNat = new.framesDecoded.toNat + pixels.length ∧
        DecoderState.parse oldState = .ok old ∧ Stream.parse predictor.bytes = .ok stream ∧
        stream.decodeFrom old = .ok (pixels, reached) ∧
        reached.framesDecoded.toNat = old.framesDecoded.toNat + pixels.length) ∧
    (∀ raw predecessor predictor,
      simulated.encodeGivenState raw predecessor predictor = .error .panicked ↔
        ∃ pixels stream state, simulated.frames raw = .ok pixels ∧
          Stream.parse predictor.bytes = .ok stream ∧ stream.entryHash = none ∧
          stream.frameSize.toNat = simulated.frameSize ∧ stream.frames.length = pixels.length ∧
          DecoderState.parse predecessor = .ok state ∧
          UInt64.size ≤ state.framesDecoded.toNat + pixels.length) ∧
    ∀ raw newState oldState predictor,
      simulated.rebase raw newState oldState predictor = .error .panicked ↔
        ∃ pixels stream old, simulated.frames raw = .ok pixels ∧
          Stream.parse predictor.bytes = .ok stream ∧
          stream.entryHash = some (minihash oldState) ∧
          stream.frameSize.toNat = simulated.frameSize ∧ stream.frames.length = pixels.length ∧
          DecoderState.parse oldState = .ok old ∧
          (UInt64.size ≤ old.framesDecoded.toNat + pixels.length ∨
            ∃ reached new, stream.decodeFrom old = .ok (pixels, reached) ∧
              DecoderState.parse newState = .ok new ∧
              UInt64.size ≤ new.framesDecoded.toNat + pixels.length) := by
  refine ⟨fun _ _ _ _ => counts_of_encodeGivenState, fun _ _ _ _ _ => counts_of_rebase, ?_, ?_⟩
  · intro raw predecessor predictor
    simp only [encodeGivenState_eq_panicked, matches_iff, DecoderState.HasRoom,
      Nat.not_lt, and_assoc]
  · intro raw newState oldState predictor
    simp only [rebase_eq_panicked_iff, matches_iff, DecoderState.HasRoom,
      Nat.not_lt, and_assoc]

/-- The state of a decoder that has no room for another frame. -/
def fullState : DecoderState :=
  ⟨0xffffffffffffffff, []⟩

theorem parse_fullState : DecoderState.parse fullState.toHandle = .ok fullState := by
  decide

/-- A state with room for the two frames of a chunk counts them. -/
theorem counts_frames_unevenChunk :
    ∃ encoded final,
      (ofFrameSize 2).encodeGivenState unevenChunk lateState.toHandle
        strangeStream.toBitstream = .ok encoded ∧
      DecoderState.parse encoded.state = .ok final ∧
      final.framesDecoded.toNat = lateState.framesDecoded.toNat + 2 := by
  have accepted : (ofFrameSize 2).predicted unevenChunk strangeStream.toBitstream =
      .ok [[1, 2], [3]] :=
    predicted_eq_ok.mpr ⟨frames_unevenChunk, strangeStream, by decide, rfl, rfl, rfl⟩
  have encodes := encodeGivenState_eq_ok.mpr ⟨_, _, accepted, parse_lateState, by decide, rfl⟩
  obtain ⟨given, -⟩ := counts_frames (ofFrameSize 2)
  obtain ⟨pixels, state, final, cut, parses, read, counted⟩ := given _ _ _ _ encodes
  cases frames_unevenChunk.symm.trans cut
  cases parse_lateState.symm.trans parses
  exact ⟨_, final, encodes, read, counted⟩

/-- **A counter overflows.** The state can be read and the chunk is cut into two frames. Encoding
the chunk given the state, with its own encoding as the predictor, panics; so does rebasing onto the
state what was encoded given another one; and so does rebasing what asks for the state. -/
theorem counts_frames_overflows :
    ∃ baseline encoded predictor,
      DecoderState.parse fullState.toHandle = .ok fullState ∧
      (ofFrameSize 2).frames unevenChunk = .ok [[1, 2], [3]] ∧
      (ofFrameSize 2).encode unevenChunk = .ok baseline ∧
      (ofFrameSize 2).encodeGivenState unevenChunk fullState.toHandle baseline =
        .error .panicked ∧
      (ofFrameSize 2).encodeGivenState unevenChunk lateState.toHandle baseline = .ok encoded ∧
      (ofFrameSize 2).rebase unevenChunk fullState.toHandle lateState.toHandle encoded.stream =
        .error .panicked ∧
      (ofFrameSize 2).rebase unevenChunk lateState.toHandle fullState.toHandle predictor =
        .error .panicked := by
  have small : (ofFrameSize 2).frameSize < UInt32.size := by decide
  obtain ⟨present, same⟩ := frames_eq_ok.mp frames_unevenChunk
  have few : ((ofFrameSize 2).pixels unevenChunk).length < UInt32.size := same ▸ by decide
  obtain ⟨fits, -⟩ := DecoderState.parse_eq_ok.mp parse_lateState
  have room : lateState.HasRoom ((ofFrameSize 2).pixels unevenChunk).length := same ▸ by decide
  have full : ¬ fullState.HasRoom ((ofFrameSize 2).pixels unevenChunk).length := same ▸ by decide
  have writable := writable_pixels small few
  have reproduces := reproduced_continued small present few fits room
  have asks := reproduced_eq_panicked.mpr ⟨_, _, fullState, frames_eq present,
    parse_continued _ writable fullState, rfl,
    matches_of_lengths small rfl (map_length_differences _ _), parse_fullState, full⟩
  exact ⟨_, _, _, parse_fullState, frames_unevenChunk, encode_eq present,
    encodeGivenState_eq_panicked.mpr ⟨_, _, fullState, frames_eq present,
      parse_opened _ writable, rfl, matches_of_lengths small rfl (map_length_opening _),
      parse_fullState, full⟩,
    encodeGivenState_opened small present few fits room,
    rebase_eq_panicked.mpr (.inr ⟨_, fullState, reproduces, parse_fullState, full⟩),
    rebase_eq_panicked.mpr (.inl asks)⟩

end Transcode.Simulated
