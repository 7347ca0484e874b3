/-
**The simulated codec**, frame by frame and call by call.

* `decodeFrames_differences` / `decodeFrames_opening` — what was encoded decodes to the same frames;
  `opening_append` — encoding in one go is encoding a beginning and continuing it.
* `continueFrom_eq` — a state in its stored form is continued if its counter has room for the
  frames.
* `encodeGivenState_eq` and `rebase_eq` — both operations look at their predictor, and then continue
  a state; `predicted_eq_ok` and `reproduced_eq_ok` tell which predictors pass.
* The operations on the streams they are made for: `encode_eq`, `decode_opened`,
  `decodeState_opened`, `encodeGivenState_opened` and `rebase_continued`.
-/
import Transcode.Codec.Simulated
import Transcode.Proofs.Codec.Stream

namespace Transcode.Simulated

open DecoderState (fresh)

/-! ### Frames -/

/-- A key frame, then differences. -/
def opening : List Bytes → List Frame
  | [] => []
  | first :: rest => ⟨.key, first⟩ :: differences rest first

theorem differences_append (pixels more : List Bytes) (previous : Bytes) :
    differences (pixels ++ more) previous =
      differences pixels previous ++ differences more (pixels.getLastD previous) := by
  induction pixels generalizing previous with
  | nil => rfl
  | cons frame rest ih =>
    rw [List.getLastD_cons]
    exact congrArg (_ :: ·) (ih frame)

/-- **One go or two**: frames after a beginning are differences that continue it. -/
theorem opening_append {pixels : List Bytes} (nonempty : pixels ≠ []) (more : List Bytes) :
    opening (pixels ++ more) =
      opening pixels ++ differences more (fresh.after pixels).lastFrame := by
  cases pixels with
  | nil => exact absurd rfl nonempty
  | cons first rest =>
    rw [List.cons_append, opening, differences_append, DecoderState.lastFrame_after,
      List.getLastD_cons]
    rfl

/-- **Differences decode to the frames.** -/
theorem decodeFrames_differences (pixels : List Bytes) (previous : Bytes) :
    Stream.decodeFrames (differences pixels previous) previous = pixels := by
  induction pixels generalizing previous with
  | nil => rfl
  | cons frame rest ih =>
    simp only [differences, Stream.decodeFrames, Stream.decodeFrame, Bytes.mix_mix, ih]

/-- **A key frame and differences decode to the frames**, whatever comes before. -/
theorem decodeFrames_opening (pixels : List Bytes) (previous : Bytes) :
    Stream.decodeFrames (opening pixels) previous = pixels := by
  cases pixels with
  | nil => rfl
  | cons first rest =>
    simp only [opening, Stream.decodeFrames, Stream.decodeFrame, decodeFrames_differences]

theorem map_length_differences (pixels : List Bytes) (previous : Bytes) :
    (differences pixels previous).map (·.payload.length) = pixels.map List.length := by
  induction pixels generalizing previous with
  | nil => rfl
  | cons frame rest ih =>
    simp only [differences, List.map_cons, Bytes.length_mix, ih]

theorem map_length_opening (pixels : List Bytes) :
    (opening pixels).map (·.payload.length) = pixels.map List.length := by
  cases pixels with
  | nil => rfl
  | cons first rest => simp only [opening, List.map_cons, map_length_differences]

/-! ### Streams -/

/-- Frames are few and short enough for their numbers to be written down. -/
structure Writable (pixels : List Bytes) : Prop where
  few : pixels.length < UInt32.size
  short : ∀ frame ∈ pixels, frame.length < UInt32.size

theorem Writable.sublist {pixels part : List Bytes} (writable : Writable pixels)
    (within : part.Sublist pixels) : Writable part where
  few := Nat.lt_of_le_of_lt within.length_le writable.few
  short frame member := writable.short frame (within.subset member)

theorem Writable.fits_after {pixels : List Bytes} (writable : Writable pixels)
    {state : DecoderState} (fits : state.Fits) : (state.after pixels).Fits :=
  fits.after writable.short

/-- A stream whose payloads are as long as the frames. -/
theorem Writable.fits {pixels : List Bytes} (writable : Writable pixels) {stream : Stream}
    (same : stream.frames.map (·.payload.length) = pixels.map List.length) : stream.Fits where
  frames := Stream.length_eq_of_lengths same ▸ writable.few
  payloads frame member := by
    have listed : frame.payload.length ∈ pixels.map List.length :=
      same ▸ List.mem_map_of_mem member
    obtain ⟨piece, inside, length⟩ := List.mem_map.mp listed
    exact length ▸ writable.short piece inside

variable (simulated : Simulated)

/-- The frames that a chunk is cut into. -/
def pixels (raw : RawChunk) : List Bytes :=
  raw.data.pieces (simulated.frameSize - 1)

/-- The self-contained stream of frames. -/
def opened (pixels : List Bytes) : Stream :=
  ⟨simulated.recordedFrameSize, none, opening pixels⟩

/-- The stream of frames that continue a state. -/
def continued (pixels : List Bytes) (state : DecoderState) : Stream :=
  ⟨simulated.recordedFrameSize, some (minihash state.toHandle),
    differences pixels state.lastFrame⟩

/-- That stream as an artifact, and the state it leaves behind. -/
def continuation (pixels : List Bytes) (state : DecoderState) : Encoded :=
  ⟨(simulated.continued pixels state).toBitstream, (state.after pixels).toHandle⟩

variable {simulated} {raw : RawChunk} {pixels : List Bytes} {state : DecoderState}

theorem parse_opened (simulated : Simulated) (writable : Writable pixels) :
    Stream.parse (simulated.opened pixels).toBitstream.bytes = .ok (simulated.opened pixels) :=
  Stream.parse_toBitstream (writable.fits (map_length_opening pixels))

theorem parse_continued (simulated : Simulated) (writable : Writable pixels)
    (state : DecoderState) :
    Stream.parse (simulated.continued pixels state).toBitstream.bytes =
      .ok (simulated.continued pixels state) :=
  Stream.parse_toBitstream (writable.fits (map_length_differences pixels _))

theorem decodeFrom_opened (simulated : Simulated) (few : pixels.length < UInt32.size) :
    (simulated.opened pixels).decodeFrom fresh = .ok (pixels, fresh.after pixels) := by
  have starts : (simulated.opened pixels).opensWithInterFrame ≠ true := by
    cases pixels <;> nofun
  have count : (simulated.opened pixels).frames.length = pixels.length :=
    Stream.length_eq_of_lengths (map_length_opening pixels)
  exact Stream.decodeFrom_eq_ok.mpr ⟨fun opens => absurd opens starts,
    count ▸ DecoderState.hasRoom_fresh few, decodeFrames_opening pixels _, rfl⟩

theorem length_continued (simulated : Simulated) (pixels : List Bytes) (state : DecoderState) :
    (simulated.continued pixels state).frames.length = pixels.length :=
  Stream.length_eq_of_lengths (map_length_differences pixels _)

theorem decodeFrom_continued (simulated : Simulated) (room : state.HasRoom pixels.length) :
    (simulated.continued pixels state).decodeFrom state = .ok (pixels, state.after pixels) :=
  Stream.decodeFrom_eq_ok.mpr ⟨nofun, (length_continued simulated pixels state).symm ▸ room,
    decodeFrames_differences pixels _, rfl⟩

/-! ### Operations -/

theorem reading_ok {α : Type} (value : α) : reading (.ok value) = .ok value :=
  rfl

theorem reading_eq_ok {α : Type} {result : Except Malformation α} {value : α} :
    reading result = .ok value ↔ result = .ok value := by
  cases result <;> simp [reading, Except.mapError]

theorem frames_eq (present : raw.data ≠ []) : simulated.frames raw = .ok (simulated.pixels raw) :=
  if_neg present

theorem flatten_pixels (simulated : Simulated) (raw : RawChunk) :
    (simulated.pixels raw).flatten = raw.data :=
  Bytes.flatten_pieces _ _

/-- No frame is longer than frames of the codec. -/
theorem length_lt_of_mem_pixels (small : simulated.frameSize < UInt32.size) {frame : Bytes}
    (member : frame ∈ simulated.pixels raw) : frame.length < UInt32.size := by
  have length := Bytes.length_le_of_mem_pieces member
  rw [Nat.sub_add_cancel simulated.frameSize_pos] at length
  exact Nat.lt_of_le_of_lt length small

theorem writable_pixels (small : simulated.frameSize < UInt32.size)
    (few : (simulated.pixels raw).length < UInt32.size) : Writable (simulated.pixels raw) where
  few := few
  short _ := length_lt_of_mem_pixels small

/-- **Encoding** opens a stream. -/
theorem encode_eq (present : raw.data ≠ []) :
    simulated.encode raw = .ok (simulated.opened (simulated.pixels raw)).toBitstream := by
  rw [encode, frames_eq present, opened]
  cases simulated.pixels raw <;> rfl

theorem decodeFresh_opened (writable : Writable pixels) (dependent : StateMismatch) :
    decodeFresh (simulated.opened pixels).toBitstream dependent =
      .ok (pixels, fresh.after pixels) := by
  rw [decodeFresh, parse_opened simulated writable]
  exact decodeFrom_opened simulated writable.few

/-- **Decoding** an opened stream yields the frames. -/
theorem decode_opened (writable : Writable pixels) :
    decode (simulated.opened pixels).toBitstream = .ok pixels.flatten := by
  rw [decode, decodeFresh_opened writable]
  rfl

/-- **The state** that an opened stream leaves behind. -/
theorem decodeState_opened (writable : Writable pixels) :
    decodeState (simulated.opened pixels).toBitstream = .ok (fresh.after pixels).toHandle := by
  rw [decodeState, decodeFresh_opened writable]
  rfl

/-- **A stored state is continued** if its counter has room for the frames; the call panics if it
has not. -/
theorem continueFrom_eq (simulated : Simulated) (pixels : List Bytes) (fits : state.Fits) :
    simulated.continueFrom pixels state.toHandle =
      if state.HasRoom pixels.length then .ok (simulated.continuation pixels state)
      else .error .panicked := by
  have read : reading (DecoderState.parse state.toHandle) = .ok state :=
    reading_eq_ok.mpr (DecoderState.parse_toHandle fits)
  rw [continueFrom, read]
  show (state.advanceAll pixels >>= _) = _
  rw [DecoderState.advanceAll_eq]
  split <;> rfl

theorem continueFrom_toHandle (simulated : Simulated) (fits : state.Fits)
    (room : state.HasRoom pixels.length) :
    simulated.continueFrom pixels state.toHandle = .ok (simulated.continuation pixels state) :=
  (continueFrom_eq simulated pixels fits).trans (if_pos room)

/-- **What can be continued**: a state in its stored form, with room in its counter. -/
theorem continueFrom_eq_ok {entry : StateHandle} {encoded : Encoded} :
    simulated.continueFrom pixels entry = .ok encoded ↔
      ∃ state, DecoderState.parse entry = .ok state ∧ state.HasRoom pixels.length ∧
        encoded = simulated.continuation pixels state := by
  constructor
  · intro continues
    obtain ⟨state, read, -⟩ := bind_eq_ok.mp continues
    have read := reading_eq_ok.mp read
    obtain ⟨fits, rfl⟩ := DecoderState.parse_eq_ok.mp read
    rw [continueFrom_eq simulated pixels fits] at continues
    split at continues
    · next room => exact ⟨state, read, room, (Except.ok.inj continues).symm⟩
    · cases continues
  · rintro ⟨state, read, room, rfl⟩
    obtain ⟨fits, rfl⟩ := DecoderState.parse_eq_ok.mp read
    exact continueFrom_toHandle simulated fits room

/-! ### Predictors -/

/-- The stream has the frame size of the codec, and one frame for each of the given ones. -/
structure Matches (simulated : Simulated) (pixels : List Bytes) (stream : Stream) : Prop where
  size : stream.frameSize.toNat = simulated.frameSize
  count : stream.frames.length = pixels.length

theorem matches_iff {stream : Stream} : simulated.Matches pixels stream ↔
    stream.frameSize.toNat = simulated.frameSize ∧ stream.frames.length = pixels.length :=
  ⟨fun fits => ⟨fits.size, fits.count⟩, fun ⟨size, count⟩ => ⟨size, count⟩⟩

theorem checkPredictor_eq_ok {predictor : Stream} :
    simulated.checkPredictor raw pixels predictor = .ok () ↔
      simulated.Matches pixels predictor := by
  unfold checkPredictor
  split
  · next other => exact iff_of_false nofun fun same => other same.size
  · next size =>
    split
    · next other => exact iff_of_false nofun fun same => other same.count
    · next count => exact iff_of_true rfl ⟨not_not.mp size, not_not.mp count⟩

/-- A stream of this codec for the same frames. -/
theorem matches_of_lengths (small : simulated.frameSize < UInt32.size) {stream : Stream}
    (size : stream.frameSize = simulated.recordedFrameSize)
    (same : stream.frames.map (·.payload.length) = pixels.map List.length) :
    simulated.Matches pixels stream where
  size := size ▸ UInt32.toNat_ofNat_of_lt' small
  count := Stream.length_eq_of_lengths same

/-- The frames of a chunk, once the predictor has been found to be another encoding of as many that
starts afresh. -/
def predicted (simulated : Simulated) (raw : RawChunk) (predictor : Bitstream) :
    Except CodecError (List Bytes) := do
  let pixels ← simulated.frames raw
  let predictor ← reading (Stream.parse predictor.bytes)
  if predictor.entryHash.isSome then .error (.stateMismatch .predictorNotFresh)
  else
    simulated.checkPredictor raw pixels predictor
    .ok pixels

/-- **Encoding given a state** is to look at the predictor, and then to continue the state. -/
theorem encodeGivenState_eq (simulated : Simulated) (raw : RawChunk) (predecessor : StateHandle)
    (predictor : Bitstream) :
    simulated.encodeGivenState raw predecessor predictor =
      (simulated.predicted raw predictor >>= (simulated.continueFrom · predecessor)) := by
  unfold encodeGivenState predicted
  cases simulated.frames raw with
  | error error => rfl
  | ok pixels =>
    cases reading (Stream.parse predictor.bytes) with
    | error error => rfl
    | ok stream =>
      simp only [bind, Except.bind]
      split
      · rfl
      · cases simulated.checkPredictor raw pixels stream <;> rfl

theorem predicted_eq_ok {predictor : Bitstream} :
    simulated.predicted raw predictor = .ok pixels ↔
      simulated.frames raw = .ok pixels ∧ ∃ stream, Stream.parse predictor.bytes = .ok stream ∧
        stream.entryHash = none ∧ simulated.Matches pixels stream := by
  constructor
  · intro accepted
    obtain ⟨_, cut, accepted⟩ := bind_eq_ok.mp accepted
    obtain ⟨stream, read, accepted⟩ := bind_eq_ok.mp accepted
    split at accepted
    · cases accepted
    · next fresh =>
      obtain ⟨_, checked, accepted⟩ := bind_eq_ok.mp accepted
      cases accepted
      exact ⟨cut, stream, reading_eq_ok.mp read, Option.not_isSome_iff_eq_none.mp fresh,
        checkPredictor_eq_ok.mp checked⟩
  · rintro ⟨cut, stream, read, entry, matched⟩
    refine bind_eq_ok.mpr ⟨_, cut, bind_eq_ok.mpr ⟨stream, reading_eq_ok.mpr read, ?_⟩⟩
    rw [if_neg (by simp [entry])]
    exact bind_eq_ok.mpr ⟨(), checkPredictor_eq_ok.mpr matched, rfl⟩

/-- The frames of a chunk, once the predictor has been found to yield them from the old state. -/
def reproduced (simulated : Simulated) (raw : RawChunk) (oldState : StateHandle)
    (predictor : Bitstream) : Except CodecError (List Bytes) := do
  let pixels ← simulated.frames raw
  let predictor ← reading (Stream.parse predictor.bytes)
  if predictor.entryHash ≠ some (minihash oldState) then
    .error (.stateMismatch (.foreignOldState raw.index))
  else
    simulated.checkPredictor raw pixels predictor
    let state ← reading (DecoderState.parse oldState)
    let (decoded, _) ← predictor.decodeFrom state
    if decoded ≠ pixels then .error (.incompatible (.notReproduced raw.index))
    else .ok pixels

/-- **Rebasing** is to look at the predictor, and then to continue the new state. -/
theorem rebase_eq (simulated : Simulated) (raw : RawChunk) (newState oldState : StateHandle)
    (predictor : Bitstream) :
    simulated.rebase raw newState oldState predictor =
      (simulated.reproduced raw oldState predictor >>= (simulated.continueFrom · newState)) := by
  unfold rebase reproduced
  cases simulated.frames raw with
  | error error => rfl
  | ok pixels =>
    cases reading (Stream.parse predictor.bytes) with
    | error error => rfl
    | ok stream =>
      simp only [bind, Except.bind]
      split
      · rfl
      · cases simulated.checkPredictor raw pixels stream with
        | error error => rfl
        | ok checked =>
          cases reading (DecoderState.parse oldState) with
          | error error => rfl
          | ok state =>
            simp only
            cases stream.decodeFrom state with
            | error error => rfl
            | ok decoded =>
              simp only
              split <;> rfl

theorem reproduced_eq_ok {oldState : StateHandle} {predictor : Bitstream} :
    simulated.reproduced raw oldState predictor = .ok pixels ↔
      simulated.frames raw = .ok pixels ∧ ∃ stream state final,
        Stream.parse predictor.bytes = .ok stream ∧
        stream.entryHash = some (minihash oldState) ∧ simulated.Matches pixels stream ∧
        DecoderState.parse oldState = .ok state ∧ stream.decodeFrom state = .ok (pixels, final) := by
  constructor
  · intro accepted
    obtain ⟨found, cut, accepted⟩ := bind_eq_ok.mp accepted
    obtain ⟨stream, read, accepted⟩ := bind_eq_ok.mp accepted
    split at accepted
    · cases accepted
    · next follows =>
      obtain ⟨_, checked, accepted⟩ := bind_eq_ok.mp accepted
      obtain ⟨state, known, accepted⟩ := bind_eq_ok.mp accepted
      obtain ⟨⟨decoded, final⟩, yields, accepted⟩ := bind_eq_ok.mp accepted
      by_cases same : decoded = found
      · cases (if_neg (not_not_intro same)).symm.trans accepted
        subst same
        exact ⟨cut, stream, state, final, reading_eq_ok.mp read, not_not.mp follows,
          checkPredictor_eq_ok.mp checked, reading_eq_ok.mp known, yields⟩
      · cases (if_pos same).symm.trans accepted
  · rintro ⟨cut, stream, state, final, read, follows, matched, known, yields⟩
    refine bind_eq_ok.mpr ⟨_, cut, bind_eq_ok.mpr ⟨stream, reading_eq_ok.mpr read, ?_⟩⟩
    rw [if_neg (not_not_intro follows)]
    refine bind_eq_ok.mpr ⟨(), checkPredictor_eq_ok.mpr matched, ?_⟩
    refine bind_eq_ok.mpr ⟨state, reading_eq_ok.mpr known, ?_⟩
    refine bind_eq_ok.mpr ⟨(pixels, final), yields, ?_⟩
    exact if_neg (not_not_intro rfl)

/-- **Encoding given a state** and the chunk's own encoding continues the state. -/
theorem encodeGivenState_opened (small : simulated.frameSize < UInt32.size)
    (present : raw.data ≠ []) (few : (simulated.pixels raw).length < UInt32.size)
    (fits : state.Fits) (room : state.HasRoom (simulated.pixels raw).length) :
    simulated.encodeGivenState raw state.toHandle
      (simulated.opened (simulated.pixels raw)).toBitstream =
        .ok (simulated.continuation (simulated.pixels raw) state) := by
  have accepted := predicted_eq_ok.mpr ⟨frames_eq present, _,
    parse_opened simulated (writable_pixels small few), rfl,
    matches_of_lengths small rfl (map_length_opening _)⟩
  rw [encodeGivenState_eq, accepted]
  exact continueFrom_toHandle simulated fits room

/-- **A stream that continues the old state** reproduces its frames. -/
theorem reproduced_continued (small : simulated.frameSize < UInt32.size) (present : raw.data ≠ [])
    (few : (simulated.pixels raw).length < UInt32.size) (fits : state.Fits)
    (room : state.HasRoom (simulated.pixels raw).length) :
    simulated.reproduced raw state.toHandle
      (simulated.continued (simulated.pixels raw) state).toBitstream =
        .ok (simulated.pixels raw) :=
  reproduced_eq_ok.mpr ⟨frames_eq present, _, state, _,
    parse_continued simulated (writable_pixels small few) state, rfl,
    matches_of_lengths small rfl (map_length_differences _ _), DecoderState.parse_toHandle fits,
    decodeFrom_continued simulated room⟩

/-- **Rebasing** a stream that continues the old state continues the new one instead. -/
theorem rebase_continued (small : simulated.frameSize < UInt32.size) (present : raw.data ≠ [])
    (few : (simulated.pixels raw).length < UInt32.size) {old : DecoderState} (known : old.Fits)
    (ample : old.HasRoom (simulated.pixels raw).length) (fits : state.Fits)
    (room : state.HasRoom (simulated.pixels raw).length) :
    simulated.rebase raw state.toHandle old.toHandle
      (simulated.continued (simulated.pixels raw) old).toBitstream =
        .ok (simulated.continuation (simulated.pixels raw) state) := by
  rw [rebase_eq, reproduced_continued small present few known ample]
  exact continueFrom_toHandle simulated fits room

end Transcode.Simulated
