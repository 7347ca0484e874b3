/-
**The frame size** of a codec. Settings hold it as a number without a bound, streams in 32 bits, and
a predictor is compared with the number again.

* `Simulated.Writes` — the streams of a codec, by whichever call. All of them record the frame size
  but for a multiple of `2 ^ 32` (`Simulated.Writes.takeHeader?`).
* `Simulated.merges_iff` — hence streams of two codecs can be merged just if the two sizes differ by
  such a multiple.
* `Simulated.frame_size_carried` — with settings that pass the check, a codec accepts its own
  encoding of a chunk as a predictor just if the frame size, and the number of frames, are below
  `2 ^ 32`, and the state to continue has room for the frames.
-/
import Transcode.Proofs.Codec.Merging
import Transcode.Settings.Basic

namespace Transcode

open DecoderState (fresh fits_fresh)

/-- A stream that is read begins with its header. -/
theorem Stream.takeHeader?_of_parse {bytes : Bytes} {stream : Stream}
    (read : parse bytes = .ok stream) :
    ∃ count rest, takeHeader? bytes = some (stream.frameSize, stream.entryHash, count, rest) := by
  unfold parse at read
  split at read
  · cases read
  · next frameSize entryHash count rest header =>
    obtain ⟨frames, -, read⟩ := bind_eq_ok.mp read
    cases read
    exact ⟨count, rest, header⟩

namespace Simulated

variable {simulated other : Simulated} {raw : RawChunk} {bits head tail : Bitstream}

/-- The streams that a codec writes. -/
inductive Writes (simulated : Simulated) : Bitstream → Prop
  | encode {raw : RawChunk} {bits : Bitstream} (encodes : simulated.encode raw = .ok bits) :
    Writes simulated bits
  | encodeGivenState {raw : RawChunk} {predecessor : StateHandle} {predictor : Bitstream}
    {encoded : Encoded}
    (encodes : simulated.encodeGivenState raw predecessor predictor = .ok encoded) :
    Writes simulated encoded.stream
  | rebase {raw : RawChunk} {newState oldState : StateHandle} {predictor : Bitstream}
    {encoded : Encoded}
    (rebases : simulated.rebase raw newState oldState predictor = .ok encoded) :
    Writes simulated encoded.stream
  | merge {head tail merged : Bitstream} (first : Writes simulated head)
    (second : Writes simulated tail) (merges : merge head tail = .ok merged) :
    Writes simulated merged

/-- The bytes begin with a header that records the frame size of the codec. -/
def Records (simulated : Simulated) (bits : Bitstream) : Prop :=
  ∃ entryHash count rest,
    Stream.takeHeader? bits.bytes = some (simulated.recordedFrameSize, entryHash, count, rest)

theorem records_toBitstream {stream : Stream}
    (size : stream.frameSize = simulated.recordedFrameSize) :
    simulated.Records stream.toBitstream := by
  have header := Stream.takeHeader?_toBytes stream []
  rw [List.append_nil, size] at header
  exact ⟨_, _, _, header⟩

/-- What is read of such bytes has that frame size. -/
theorem Records.frameSize (records : simulated.Records bits) {stream : Stream}
    (read : Stream.parse bits.bytes = .ok stream) :
    stream.frameSize = simulated.recordedFrameSize := by
  obtain ⟨entryHash, count, rest, header⟩ := records
  obtain ⟨number, left, known⟩ := Stream.takeHeader?_of_parse read
  have same := Option.some.inj (known.symm.trans header)
  exact congrArg Prod.fst same

/-- **Whatever a codec writes** records its frame size. -/
theorem Writes.records (writes : simulated.Writes bits) : simulated.Records bits := by
  induction writes with
  | @encode raw bits encodes =>
    by_cases present : raw.data = []
    · rw [Simulated.encode, frames, if_pos present] at encodes
      cases encodes
    · rw [encode_eq present] at encodes
      cases encodes
      exact records_toBitstream rfl
  | encodeGivenState encodes =>
    obtain ⟨pixels, state, -, -, -, rfl⟩ := encodeGivenState_eq_ok.mp encodes
    exact records_toBitstream rfl
  | rebase rebases =>
    rw [rebase_eq] at rebases
    obtain ⟨pixels, -, continues⟩ := bind_eq_ok.mp rebases
    obtain ⟨state, -, -, rfl⟩ := continueFrom_eq_ok.mp continues
    exact records_toBitstream rfl
  | merge _ _ merges ih _ =>
    obtain ⟨first, second, read, -, -, rfl⟩ := merge_eq_ok.mp merges
    have size := ih.frameSize read
    exact records_toBitstream size

/-! ### Two codecs -/

theorem toNat_recordedFrameSize (simulated : Simulated) :
    simulated.recordedFrameSize.toNat = simulated.frameSize % UInt32.size :=
  UInt32.toNat_ofNat

/-- **Streams that record different frame sizes** are not merged: for this reason, if both can be
read. -/
theorem merge_of_records (first : simulated.Records head) (second : other.Records tail)
    (apart : simulated.recordedFrameSize ≠ other.recordedFrameSize) :
    merge head tail = .error (.incompatible .mergedFrameSizes) ∨
      ∃ cause, merge head tail = .error (.malformed cause) := by
  unfold merge
  cases read : Stream.parse head.bytes with
  | error cause => exact .inr ⟨cause, rfl⟩
  | ok stream =>
    cases known : Stream.parse tail.bytes with
    | error cause => exact .inr ⟨cause, rfl⟩
    | ok more =>
      have sizes : stream.frameSize ≠ more.frameSize := by
        rw [first.frameSize read, second.frameSize known]
        exact apart
      exact .inl (if_pos sizes)

/-- A chunk of one octet, which is one frame whatever the frame size. -/
def singleOctet : RawChunk :=
  ⟨0, "00.y4m", [0]⟩

theorem pixels_singleOctet (simulated : Simulated) : simulated.pixels singleOctet = [[0]] := by
  simp [pixels, singleOctet, Bytes.pieces]

theorem encode_singleOctet (simulated : Simulated) :
    simulated.encode singleOctet = .ok (simulated.opened [[0]]).toBitstream := by
  rw [← pixels_singleOctet simulated]
  exact encode_eq (List.cons_ne_nil _ _)

/-- Streams of one frame that record the same frame size are merged. -/
theorem merge_singleOctet (same : simulated.recordedFrameSize = other.recordedFrameSize) :
    ∃ merged, merge (simulated.opened [[0]]).toBitstream (other.opened [[0]]).toBitstream =
      .ok merged := by
  have writable : Writable [[0]] := ⟨by decide, by decide⟩
  exact ⟨_, merge_eq_ok.mpr ⟨_, _, parse_opened simulated writable, parse_opened other writable,
    ⟨same, nofun⟩, rfl⟩⟩

/-- **Which codecs keep their streams apart.** -/
theorem merges_iff (simulated other : Simulated) :
    (∀ head tail, simulated.Writes head → other.Writes tail →
      ∃ error, merge head tail = .error error) ↔
      simulated.frameSize % UInt32.size ≠ other.frameSize % UInt32.size := by
  rw [← toNat_recordedFrameSize, ← toNat_recordedFrameSize, ne_eq, UInt32.toNat_inj]
  constructor
  · intro refused same
    obtain ⟨error, fails⟩ := refused _ _ (.encode (encode_singleOctet simulated))
      (.encode (encode_singleOctet other))
    obtain ⟨merged, merges⟩ := merge_singleOctet same
    exact nomatch fails.symm.trans merges
  · intro apart head tail first second
    rcases merge_of_records first.records second.records apart with fails | ⟨cause, fails⟩
    · exact ⟨_, fails⟩
    · exact ⟨_, fails⟩

/-! ### One codec -/

/-- **Which codecs accept their own baseline** of a chunk. -/
theorem accepts_baseline_iff (present : raw.data ≠ []) {handle : StateHandle}
    {state : DecoderState} (parses : DecoderState.parse handle = .ok state) :
    (∃ encoded, simulated.encodeGivenState raw handle
      (simulated.opened (simulated.pixels raw)).toBitstream = .ok encoded) ↔
      simulated.frameSize < UInt32.size ∧ (simulated.pixels raw).length < UInt32.size ∧
        state.HasRoom (simulated.pixels raw).length := by
  constructor
  · rintro ⟨encoded, encodes⟩
    obtain ⟨found, same, accepted, known, room, -⟩ := encodeGivenState_eq_ok.mp encodes
    cases parses.symm.trans known
    obtain ⟨cut, stream, read, -, matched⟩ := predicted_eq_ok.mp accepted
    obtain ⟨-, rfl⟩ := frames_eq_ok.mp cut
    exact ⟨matched.small, matched.few read, room⟩
  · rintro ⟨small, few, room⟩
    obtain ⟨fits, rfl⟩ := DecoderState.parse_eq_ok.mp parses
    exact ⟨_, encodeGivenState_opened small present few fits room⟩

/-- Settings that pass the check ask for a frame size that a codec can have. -/
theorem frameSize_of_check {settings : Settings} (valid : settings.check = .ok ()) :
    (ofFrameSize settings.codec.frameSize).frameSize = settings.codec.frameSize := by
  obtain ⟨_, _, valid⟩ := bind_eq_ok.mp valid
  obtain ⟨_, _, valid⟩ := bind_eq_ok.mp valid
  obtain ⟨_, demanded, _⟩ := bind_eq_ok.mp valid
  unfold Settings.demand at demanded
  split at demanded
  · next positive =>
    have positive := of_decide_eq_true positive
    exact Nat.max_eq_left (Nat.pos_of_ne_zero positive)
  · cases demanded

/-- **The frame size is carried** by streams, as far as 32 bits go. Let settings pass the check.
Given any state that can be read, the codec they ask for encodes a chunk with its own baseline of
the chunk as the predictor just if the frame size and the number of frames are below `2 ^ 32` and
the counter of the state has room for the frames. Whatever it writes begins with a header that
records the frame size but for a multiple of `2 ^ 32`; and no stream of one codec is merged with a
stream of another, asked for by other settings, just if what they record differs. -/
theorem frame_size_carried {settings : Settings} (valid : settings.check = .ok ()) :
    (∀ raw : RawChunk, raw.data ≠ [] → ∀ handle state, DecoderState.parse handle = .ok state →
      ∃ pixels baseline, (ofFrameSize settings.codec.frameSize).frames raw = .ok pixels ∧
        (ofFrameSize settings.codec.frameSize).encode raw = .ok baseline ∧
        ((∃ encoded, (ofFrameSize settings.codec.frameSize).encodeGivenState raw handle baseline =
            .ok encoded) ↔
          settings.codec.frameSize < UInt32.size ∧ pixels.length < UInt32.size ∧
            state.framesDecoded.toNat + pixels.length < UInt64.size)) ∧
    (∀ bits, (ofFrameSize settings.codec.frameSize).Writes bits → ∃ size entryHash count rest,
      Stream.takeHeader? bits.bytes = some (size, entryHash, count, rest) ∧
        size.toNat = settings.codec.frameSize % UInt32.size) ∧
    ∀ another : Settings, another.check = .ok () →
      ((∀ head tail, (ofFrameSize settings.codec.frameSize).Writes head →
        (ofFrameSize another.codec.frameSize).Writes tail →
        ∃ error, merge head tail = .error error) ↔
        settings.codec.frameSize % UInt32.size ≠ another.codec.frameSize % UInt32.size) := by
  have carried := frameSize_of_check valid
  refine ⟨fun raw present handle state parses => ?_, fun bits writes => ?_,
    fun another approved => ?_⟩
  · refine ⟨_, _, frames_eq present, encode_eq present, ?_⟩
    rw [accepts_baseline_iff present parses, carried]
  · obtain ⟨entryHash, count, rest, header⟩ := writes.records
    refine ⟨_, entryHash, count, rest, header, ?_⟩
    rw [toNat_recordedFrameSize, carried]
  · rw [merges_iff, carried, frameSize_of_check approved]

/-- Settings for the codec in memory with frames of a given size, and the defaults otherwise. -/
def simulatedSettings (frameSize : Nat) : Settings :=
  { codec := { backend := .simulated, frameSize } }

/-- Frames of two octets: the baseline is accepted, and its stream is not merged with one of a codec
for frames of three. -/
theorem frame_size_carried_twoOctets :
    ∃ baseline encoded, (ofFrameSize 2).encode unevenChunk = .ok baseline ∧
      (ofFrameSize 2).encodeGivenState unevenChunk lateState.toHandle baseline = .ok encoded ∧
      ∃ error, merge baseline ((ofFrameSize 3).opened [[0]]).toBitstream = .error error := by
  have two : (simulatedSettings 2).check = .ok () := by decide
  have three : (simulatedSettings 3).check = .ok () := by decide
  obtain ⟨accepts, -, apart⟩ := frame_size_carried two
  obtain ⟨pixels, baseline, cut, encodes, given⟩ :=
    accepts unevenChunk (List.cons_ne_nil _ _) _ _ parse_lateState
  cases frames_unevenChunk.symm.trans cut
  obtain ⟨encoded, continues⟩ := given.mpr ⟨by decide, by decide, by decide⟩
  have refused := (apart _ three).mpr (by decide) _ _ (.encode encodes)
    (.encode (encode_singleOctet _))
  exact ⟨baseline, encoded, encodes, continues, refused⟩

/-- **A frame size that does not fit**: settings that ask for it pass the check, but the codec refuses
its own baseline, and its stream is merged with one of a codec for frames of four octets. -/
theorem frame_size_carried_not :
    ∃ baseline merged, (simulatedSettings (UInt32.size + 4)).check = .ok () ∧
      (simulatedSettings 4).check = .ok () ∧ DecoderState.parse fresh.toHandle = .ok fresh ∧
      (ofFrameSize (UInt32.size + 4)).encode singleOctet = .ok baseline ∧
      (ofFrameSize (UInt32.size + 4)).encodeGivenState singleOctet fresh.toHandle baseline =
        .error (.incompatible (.predictorFrameSize 4 (UInt32.size + 4))) ∧
      (ofFrameSize 4).encode singleOctet = .ok ((ofFrameSize 4).opened [[0]]).toBitstream ∧
      merge ((ofFrameSize 4).opened [[0]]).toBitstream baseline = .ok merged := by
  have same : (ofFrameSize 4).recordedFrameSize =
      (ofFrameSize (UInt32.size + 4)).recordedFrameSize := by decide
  have writable : Writable [[0]] := ⟨by decide, by decide⟩
  obtain ⟨merged, merges⟩ := merge_singleOctet same
  refine ⟨_, merged, by decide, by decide, DecoderState.parse_toHandle fits_fresh,
    encode_singleOctet _, ?_, encode_singleOctet _, merges⟩
  rw [encodeGivenState_eq, predicted, frames_eq (List.cons_ne_nil _ _), pixels_singleOctet,
    parse_opened _ writable]
  rfl

end Simulated

end Transcode
