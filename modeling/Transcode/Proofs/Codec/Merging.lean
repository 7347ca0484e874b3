/-
**Merging**: one stream after another.

* `Stream.append` puts the frames of two streams under the header of the first. They decode in two
  parts, the second of which starts from the state that the first leaves
  (`Stream.decodeFrom_append`).
* `Simulated.merge_eq_ok` — merging does so, if the second stream may follow the first
  (`Simulated.Joins`). What continues a stream does (`Simulated.merge_continued`).
* `Simulated.merge_decodes` — hence what was merged decodes to what both decode to, in a row.
* `Simulated.continuation_decodes` — a stream that leaves a state is continued by encoding a chunk
  given that state. If the stream has no frame, the outcome is merged, but cannot be decoded.
* `Simulated.merge_assoc` — three streams are merged to the same in either order.
-/
import Transcode.Proofs.Codec.Decoding

namespace Transcode

open DecoderState (fresh fits_fresh)

namespace Stream

variable {head tail : Stream} {state middle final : DecoderState} {decoded more : List Bytes}

/-! ### Streams in a row -/

/-- The frames of both streams under the header of the first. -/
def append (head tail : Stream) : Stream :=
  ⟨head.frameSize, head.entryHash, head.frames ++ tail.frames⟩

theorem append_assoc (first second third : Stream) :
    (first.append second).append third = first.append (second.append third) := by
  simp only [append, List.append_assoc]

theorem Fits.append (fits : head.Fits) (more : tail.Fits)
    (few : head.frames.length + tail.frames.length < UInt32.size) : (head.append tail).Fits where
  frames := List.length_append.trans_lt few
  payloads := List.forall_mem_append.mpr ⟨fits.payloads, more.payloads⟩

/-- **Streams in a row decode in two parts**, the second from the state that the first leaves. The
first must have a frame, for it is the first frame that must not be a difference. -/
theorem decodeFrom_append (nonempty : head.frames ≠ [])
    (first : head.decodeFrom state = .ok (decoded, middle))
    (second : tail.decodeFrom middle = .ok (more, final)) :
    (head.append tail).decodeFrom state = .ok (decoded ++ more, final) := by
  obtain ⟨starts, room, rfl, rfl⟩ := decodeFrom_eq_ok.mp first
  obtain ⟨-, ample, rfl, rfl⟩ := decodeFrom_eq_ok.mp second
  have alike : (head.append tail).opensWithInterFrame = head.opensWithInterFrame := by
    simp only [opensWithInterFrame, append, List.head?_append_of_ne_nil _ nonempty]
  have whole := decodeFrames_append head.frames tail.frames state.lastFrame
  rw [← DecoderState.lastFrame_after] at whole
  refine decodeFrom_eq_ok.mpr ⟨alike ▸ starts, ?_, whole, (DecoderState.after_append ..).symm⟩
  rw [← length_decodeFrames head.frames state.lastFrame] at room
  rw [← length_decodeFrames tail.frames (state.after _).lastFrame] at ample
  rw [← length_decodeFrames _ state.lastFrame, append, whole]
  exact room.append ample

end Stream

namespace Simulated

variable {simulated : Simulated} {raw : RawChunk} {pixels : List Bytes} {head tail : Stream}
  {front back merged : Bitstream} {handle : StateHandle}

/-! ### What is merged -/

/-- The second stream may follow the first: their frames are of one size, and if the first shows
the state that it leaves, the second does not ask for another one. -/
structure Joins (head tail : Stream) : Prop where
  size : head.frameSize = tail.frameSize
  follows : head.entryHash = none → ∀ expected, tail.entryHash = some expected →
    ∃ decoded final, head.decodeFrom fresh = .ok (decoded, final) ∧
      minihash final.toHandle = expected

theorem checkContinuation_eq_ok :
    checkContinuation head tail = .ok () ↔
      (head.entryHash = none → ∀ expected, tail.entryHash = some expected →
        ∃ decoded final, head.decodeFrom fresh = .ok (decoded, final) ∧
          minihash final.toHandle = expected) := by
  unfold checkContinuation
  cases head.entryHash with
  | some entry => exact iff_of_true rfl nofun
  | none =>
    cases tail.entryHash with
    | none => exact iff_of_true rfl nofun
    | some expected =>
      constructor
      · rintro checked - _ ⟨⟩
        obtain ⟨⟨decoded, final⟩, decodes, same⟩ := bind_eq_ok.mp checked
        refine ⟨decoded, final, decodes, ?_⟩
        by_contra other
        cases (if_neg other).symm.trans same
      · intro follows
        obtain ⟨decoded, final, decodes, same⟩ := follows rfl expected rfl
        exact bind_eq_ok.mpr ⟨_, decodes, if_pos same⟩

/-- **Merging** puts one stream after the other, if it may follow. -/
theorem merge_eq_ok :
    merge front back = .ok merged ↔
      ∃ head tail, Stream.parse front.bytes = .ok head ∧ Stream.parse back.bytes = .ok tail ∧
        Joins head tail ∧ (head.append tail).toBitstream = merged := by
  constructor
  · intro merges
    obtain ⟨head, first, merges⟩ := bind_eq_ok.mp merges
    obtain ⟨tail, second, merges⟩ := bind_eq_ok.mp merges
    split at merges
    · cases merges
    · next size =>
      obtain ⟨_, checked, joined⟩ := bind_eq_ok.mp merges
      exact ⟨head, tail, reading_eq_ok.mp first, reading_eq_ok.mp second,
        ⟨not_not.mp size, checkContinuation_eq_ok.mp checked⟩, Except.ok.inj joined⟩
  · rintro ⟨head, tail, first, second, joins, rfl⟩
    refine bind_eq_ok.mpr ⟨head, reading_eq_ok.mpr first, ?_⟩
    refine bind_eq_ok.mpr ⟨tail, reading_eq_ok.mpr second, ?_⟩
    rw [if_neg (not_not_intro joins.size)]
    exact bind_eq_ok.mpr ⟨(), checkContinuation_eq_ok.mpr joins.follows, rfl⟩

/-- Streams that are merged are read back as one, if their frames can be counted. -/
theorem parse_append (first : Stream.parse front.bytes = .ok head)
    (second : Stream.parse back.bytes = .ok tail)
    (few : head.frames.length + tail.frames.length < UInt32.size) :
    Stream.parse (head.append tail).toBitstream.bytes = .ok (head.append tail) :=
  Stream.parse_toBitstream
    ((Stream.parse_eq_ok.mp first).1.append (Stream.parse_eq_ok.mp second).1 few)

/-! ### What continues a stream -/

theorem eq_recordedFrameSize (size : head.frameSize.toNat = simulated.frameSize) :
    head.frameSize = simulated.recordedFrameSize := by
  rw [recordedFrameSize, ← size, UInt32.ofNat_toNat]

/-- **What continues the end of a stream** may follow it. -/
theorem joins_continued (size : head.frameSize = simulated.recordedFrameSize)
    {decoded : List Bytes} {state : DecoderState}
    (yields : head.decodeFrom fresh = .ok (decoded, state)) (pixels : List Bytes) :
    Joins head (simulated.continued pixels state) :=
  ⟨size, fun _ _ asked => ⟨decoded, state, yields, Option.some.inj asked⟩⟩

/-- **Merging** an opened stream with one that continues it opens the stream of all frames. -/
theorem merge_continued {more : List Bytes} (nonempty : pixels ≠ [])
    (writable : Writable (pixels ++ more)) :
    merge (simulated.opened pixels).toBitstream
      (simulated.continued more (fresh.after pixels)).toBitstream =
        .ok (simulated.opened (pixels ++ more)).toBitstream := by
  have earlier := writable.sublist (List.sublist_append_left pixels more)
  have first := parse_opened simulated earlier
  have second := parse_continued simulated
    (writable.sublist (List.sublist_append_right pixels more)) (fresh.after pixels)
  refine merge_eq_ok.mpr ⟨_, _, first, second,
    joins_continued rfl (decodeFrom_opened simulated earlier.few) more, ?_⟩
  rw [opened, opened, opening_append nonempty]
  rfl

/-! ### Decoding what was merged -/

/-- **What was merged decodes in two parts.** Let a stream with at least one frame decode to media,
and let another have frames few enough to be counted together. From the state that the first leaves,
the second decodes, whatever it is. They are merged just if their frames are of one size and the
second asks for that state or for none; and then the outcome decodes to the media and the frames of
the second in a row, and leaves the state that those leave. -/
theorem merge_decodes (first : Stream.parse front.bytes = .ok head) (nonempty : head.frames ≠ [])
    {media : RawMedia} (decodes : decode front = .ok media)
    (second : Stream.parse back.bytes = .ok tail)
    (few : head.frames.length + tail.frames.length < UInt32.size) :
    ∃ decoded middle more final, head.decodeFrom fresh = .ok (decoded, middle) ∧
      decoded.flatten = media ∧ tail.decodeFrom middle = .ok (more, final) ∧
      ((∃ merged, merge front back = .ok merged) ↔ head.frameSize = tail.frameSize ∧
        ∀ expected, tail.entryHash = some expected → minihash middle.toHandle = expected) ∧
      ∀ merged, merge front back = .ok merged →
        decode merged = .ok (media ++ more.flatten) ∧ decodeState merged = .ok final.toHandle := by
  obtain ⟨_, decoded, middle, read, starts, yields, rfl⟩ := decode_eq_ok.mp decodes
  cases first.symm.trans read
  have started := Stream.framesDecoded_ne_zero nonempty yields
  have room := Stream.hasRoom_of_decodeFrom yields few
  obtain ⟨more, final, continues⟩ := Stream.exists_decodeFrom started room
  have whole := Stream.decodeFrom_append nonempty yields continues
  refine ⟨decoded, middle, more, final, yields, rfl, continues, ⟨?_, ?_⟩, fun merged merges => ?_⟩
  · rintro ⟨merged, merges⟩
    obtain ⟨_, _, firstly, secondly, joins, -⟩ := merge_eq_ok.mp merges
    cases first.symm.trans firstly
    cases second.symm.trans secondly
    refine ⟨joins.size, fun expected asked => ?_⟩
    obtain ⟨_, _, leaves, same⟩ := joins.follows starts expected asked
    cases yields.symm.trans leaves
    exact same
  · rintro ⟨size, follows⟩
    have joins : Joins head tail :=
      ⟨size, fun _ expected asked => ⟨decoded, middle, yields, follows expected asked⟩⟩
    exact ⟨_, merge_eq_ok.mpr ⟨head, tail, first, second, joins, rfl⟩⟩
  · obtain ⟨_, _, firstly, secondly, -, rfl⟩ := merge_eq_ok.mp merges
    cases first.symm.trans firstly
    cases second.symm.trans secondly
    have joined := parse_append first second few
    rw [← List.flatten_append]
    exact ⟨decode_eq_ok.mpr ⟨_, _, final, joined, starts, whole, rfl⟩,
      decodeState_eq_ok.mpr ⟨_, _, final, joined, starts, whole, rfl⟩⟩

/-- Two frames of no octet and of three, of which the second is a difference. -/
def growingStream : Stream :=
  ⟨2, none, [⟨.key, []⟩, ⟨.inter, [7, 7, 7]⟩]⟩

/-- A longer frame, as the difference to the last of those. -/
def laterStream : Stream :=
  ⟨2, some (minihash (DecoderState.toHandle ⟨2, [7, 7, 7]⟩)), [⟨.inter, [1, 2, 4, 8]⟩]⟩

theorem parse_growingStream :
    Stream.parse growingStream.toBitstream.bytes = .ok growingStream := by
  decide

theorem parse_laterStream (trailing : Bytes) :
    Stream.parse (laterStream.toBytes ++ trailing) = .ok laterStream :=
  Stream.parse_toBytes ⟨by decide, by decide⟩ trailing

/-- The octet at the end belongs to no stream. -/
theorem merge_decodes_laterStream :
    ∃ merged, merge growingStream.toBitstream ⟨laterStream.toBytes ++ [9]⟩ = .ok merged ∧
      decode merged = .ok [7, 7, 7, 6, 5, 3, 8] ∧
      decodeState merged = .ok (DecoderState.toHandle ⟨3, [6, 5, 3, 8]⟩) := by
  have decodes : decode growingStream.toBitstream = .ok [7, 7, 7] := by decide
  obtain ⟨_, _, _, _, yields, -, continues, merges, outcome⟩ := merge_decodes parse_growingStream
    (by decide) decodes (parse_laterStream [9]) (by decide)
  cases yields
  cases continues
  obtain ⟨merged, merges⟩ := merges.mpr ⟨rfl, fun _ => Option.some.inj⟩
  exact ⟨merged, merges, outcome merged merges⟩

/-! ### Continuing a stream -/

/-- A stream without an entry hash that opens with a difference cannot be decoded. -/
theorem decodeFresh_of_opensWithInterFrame {bits : Bitstream} {stream : Stream}
    (read : Stream.parse bits.bytes = .ok stream) (opens : stream.opensWithInterFrame = true)
    (dependent : StateMismatch) :
    decodeFresh bits dependent = .error (.malformed .opensWithInterFrame) := by
  have starts := Stream.entryHash_of_opensWithInterFrame opens
  have refused : stream.decodeFrom fresh = .error (.malformed .opensWithInterFrame) := by
    rw [Stream.decodeFrom, opens]
    rfl
  rw [decodeFresh_of_parse read starts, refused]

/-- What continues an empty stream opens with a difference. -/
theorem opensWithInterFrame_append_continued (simulated : Simulated)
    (starts : head.entryHash = none) (empty : head.frames = []) (nonempty : pixels ≠ [])
    (state : DecoderState) :
    (head.append (simulated.continued pixels state)).opensWithInterFrame = true := by
  obtain ⟨frame, rest, rfl⟩ := List.exists_cons_of_ne_nil nonempty
  simp only [Stream.opensWithInterFrame, Stream.append, starts, empty]
  rfl

/-- **A stream is continued by encoding given the state that it leaves.** Let a stream leave a state,
let its frames be of the size of the codec, and let a chunk be cut into frames that can be counted
with those of the stream. The chunk can be encoded given that state, and the outcome is merged onto
the stream. If the stream has a frame, that decodes to the media of the stream and the chunk in a
row, and leaves the state that was returned with the encoding. If it has none, there is no key frame
to begin with, and what was merged can neither be decoded nor continued. -/
theorem continuation_decodes (first : Stream.parse front.bytes = .ok head)
    (leaves : decodeState front = .ok handle) (size : head.frameSize.toNat = simulated.frameSize)
    (cut : simulated.frames raw = .ok pixels)
    (few : head.frames.length + pixels.length < UInt32.size) :
    ∃ media baseline encoded merged, decode front = .ok media ∧
      simulated.encode raw = .ok baseline ∧
      simulated.encodeGivenState raw handle baseline = .ok encoded ∧
      merge front encoded.stream = .ok merged ∧
      (head.frames ≠ [] → decode merged = .ok (media ++ raw.data) ∧
        decodeState merged = .ok encoded.state) ∧
      (head.frames = [] → decode merged = .error (.malformed .opensWithInterFrame) ∧
        decodeState merged = .error (.malformed .opensWithInterFrame)) := by
  obtain ⟨_, decoded, state, read, starts, yields, rfl⟩ := decodeState_eq_ok.mp leaves
  cases first.symm.trans read
  obtain ⟨present, rfl⟩ := frames_eq_ok.mp cut
  have small : simulated.frameSize < UInt32.size := size ▸ head.frameSize.toNat_lt
  have writable : Writable (simulated.pixels raw) :=
    writable_pixels small (Nat.lt_of_le_of_lt (Nat.le_add_left _ _) few)
  have fits : state.Fits := Stream.eq_after_of_decodeFrom yields ▸
    ((Stream.parse_eq_ok.mp first).1.writable yields).fits_after fits_fresh
  have room : state.HasRoom (simulated.pixels raw).length :=
    Stream.hasRoom_of_decodeFrom yields few
  have second := parse_continued simulated writable state
  have joined := parse_append first second ((length_continued simulated _ _).symm ▸ few)
  have merges := merge_eq_ok.mpr
    ⟨head, _, first, second, joins_continued (eq_recordedFrameSize size) yields _, rfl⟩
  refine ⟨decoded.flatten, _, simulated.continuation (simulated.pixels raw) state, _,
    decode_eq_ok.mpr ⟨head, decoded, state, first, starts, yields, rfl⟩, encode_eq present,
    encodeGivenState_opened small present writable.few fits room, merges, fun nonempty => ?decodes,
    fun empty => ?refused⟩
  case decodes =>
    have whole := Stream.decodeFrom_append nonempty yields (decodeFrom_continued simulated room)
    rw [← flatten_pixels simulated raw, ← List.flatten_append]
    exact ⟨decode_eq_ok.mpr ⟨_, _, _, joined, starts, whole, rfl⟩,
      decodeState_eq_ok.mpr ⟨_, _, _, joined, starts, whole, rfl⟩⟩
  case refused =>
    have nonempty : simulated.pixels raw ≠ [] := mt Bytes.pieces_eq_nil_iff.mp present
    have refused := decodeFresh_of_opensWithInterFrame joined
      (opensWithInterFrame_append_continued simulated starts empty nonempty state)
    rw [decode, decodeState, refused, refused]
    exact ⟨rfl, rfl⟩

/-- After frames that no encoder would write. -/
theorem continuation_decodes_growingStream :
    ∃ baseline encoded merged, (ofFrameSize 2).encode unevenChunk = .ok baseline ∧
      (ofFrameSize 2).encodeGivenState unevenChunk (DecoderState.toHandle ⟨2, [7, 7, 7]⟩)
        baseline = .ok encoded ∧
      merge growingStream.toBitstream encoded.stream = .ok merged ∧
      decode merged = .ok [7, 7, 7, 1, 2, 3] ∧ decodeState merged = .ok encoded.state := by
  have leaves : decodeState growingStream.toBitstream =
      .ok (DecoderState.toHandle ⟨2, [7, 7, 7]⟩) := by decide
  have media : decode growingStream.toBitstream = .ok [7, 7, 7] := by decide
  obtain ⟨_, baseline, encoded, merged, decodes, encodes, given, merges, outcome, -⟩ :=
    continuation_decodes parse_growingStream leaves rfl frames_unevenChunk (by decide)
  cases media.symm.trans decodes
  exact ⟨baseline, encoded, merged, encodes, given, merges, outcome (by decide)⟩

/-- **A stream without a frame** leaves a state, and a chunk that is encoded given that state is
merged onto it; yet nobody can decode that. -/
theorem continuation_of_nothing_fails :
    let nothing : Bitstream := Stream.toBitstream ⟨2, none, []⟩
    ∃ baseline encoded merged, decode nothing = .ok [] ∧ decodeState nothing = .ok fresh.toHandle ∧
      (ofFrameSize 2).encode unevenChunk = .ok baseline ∧
      (ofFrameSize 2).encodeGivenState unevenChunk fresh.toHandle baseline = .ok encoded ∧
      merge nothing encoded.stream = .ok merged ∧
      decode merged = .error (.malformed .opensWithInterFrame) ∧
      decodeState merged = .error (.malformed .opensWithInterFrame) := by
  intro nothing
  have cut : (ofFrameSize 2).pixels unevenChunk = [[1, 2], [3]] :=
    (frames_eq_ok.mp frames_unevenChunk).2.symm
  have few : ((ofFrameSize 2).pixels unevenChunk).length < UInt32.size := cut ▸ by decide
  have present : unevenChunk.data ≠ [] := List.cons_ne_nil _ _
  have small : (ofFrameSize 2).frameSize < UInt32.size := by decide
  have encodes : (ofFrameSize 2).encode unevenChunk = .ok _ := encode_eq present
  have given := encodeGivenState_opened small present few fits_fresh (DecoderState.hasRoom_fresh few)
  rw [cut] at encodes given
  exact ⟨_, _, Stream.toBitstream ⟨2, none, [⟨.inter, [1, 2]⟩, ⟨.inter, [2]⟩]⟩, by decide,
    by decide, encodes, given, by decide, by decide, by decide⟩

/-! ### Merging three streams -/

section Three

variable {a b c : Bitstream}
  (few : ∀ x y z, Stream.parse a.bytes = .ok x → Stream.parse b.bytes = .ok y →
    Stream.parse c.bytes = .ok z →
    x.frames.length + y.frames.length + z.frames.length < UInt32.size)
include few

theorem merge_left_eq_ok :
    (merge a b >>= (merge · c)) = .ok merged ↔
      ∃ x y z, Stream.parse a.bytes = .ok x ∧ Stream.parse b.bytes = .ok y ∧
        Stream.parse c.bytes = .ok z ∧ Joins x y ∧ Joins (x.append y) z ∧
        ((x.append y).append z).toBitstream = merged := by
  rw [bind_eq_ok]
  constructor
  · rintro ⟨_, inner, outer⟩
    obtain ⟨x, y, first, second, joins, rfl⟩ := merge_eq_ok.mp inner
    obtain ⟨w, z, both, third, follows, rfl⟩ := merge_eq_ok.mp outer
    have counted := few x y z first second third
    cases both.symm.trans (parse_append first second (by omega))
    exact ⟨x, y, z, first, second, third, joins, follows, rfl⟩
  · rintro ⟨x, y, z, first, second, third, joins, follows, rfl⟩
    have counted := few x y z first second third
    exact ⟨_, merge_eq_ok.mpr ⟨x, y, first, second, joins, rfl⟩,
      merge_eq_ok.mpr ⟨_, z, parse_append first second (by omega), third, follows, rfl⟩⟩

theorem merge_right_eq_ok :
    (merge b c >>= (merge a ·)) = .ok merged ↔
      ∃ x y z, Stream.parse a.bytes = .ok x ∧ Stream.parse b.bytes = .ok y ∧
        Stream.parse c.bytes = .ok z ∧ Joins y z ∧ Joins x (y.append z) ∧
        (x.append (y.append z)).toBitstream = merged := by
  rw [bind_eq_ok]
  constructor
  · rintro ⟨_, inner, outer⟩
    obtain ⟨y, z, second, third, joins, rfl⟩ := merge_eq_ok.mp inner
    obtain ⟨x, w, first, both, follows, rfl⟩ := merge_eq_ok.mp outer
    have counted := few x y z first second third
    cases both.symm.trans (parse_append second third (by omega))
    exact ⟨x, y, z, first, second, third, joins, follows, rfl⟩
  · rintro ⟨x, y, z, first, second, third, joins, follows, rfl⟩
    have counted := few x y z first second third
    exact ⟨_, merge_eq_ok.mpr ⟨y, z, second, third, joins, rfl⟩,
      merge_eq_ok.mpr ⟨x, _, first, parse_append second third (by omega), follows, rfl⟩⟩

/-- **Merging three streams comes to the same in either order**, as long as their frames can be
counted together. If both orders succeed, the outcome is the same; and if the second stream asks for
a state, whatever can be merged from the left can be merged from the right: the only check that is
left to make there is whether the second stream may follow the first. -/
theorem merge_assoc :
    (∀ left right, (merge a b >>= (merge · c)) = .ok left → (merge b c >>= (merge a ·)) = .ok right →
      left = right) ∧
    ∀ left y, (merge a b >>= (merge · c)) = .ok left → Stream.parse b.bytes = .ok y →
      y.entryHash.isSome → ∃ later, merge b c = .ok later ∧ merge a later = .ok left := by
  refine ⟨fun left right before after => ?_, fun left y before second dependent => ?_⟩
  · obtain ⟨x, y, z, first, second, third, -, -, rfl⟩ := (merge_left_eq_ok few).mp before
    obtain ⟨_, _, _, firstly, secondly, thirdly, -, -, rfl⟩ := (merge_right_eq_ok few).mp after
    cases first.symm.trans firstly
    cases second.symm.trans secondly
    cases third.symm.trans thirdly
    rw [Stream.append_assoc]
  · obtain ⟨x, _, z, first, secondly, third, joins, follows, rfl⟩ :=
      (merge_left_eq_ok few).mp before
    cases second.symm.trans secondly
    have asks : y.entryHash ≠ none := Option.isSome_iff_ne_none.mp dependent
    have later : Joins y z := ⟨joins.size.symm.trans follows.size, fun starts => absurd starts asks⟩
    have earlier : Joins x (y.append z) := ⟨joins.size, joins.follows⟩
    refine bind_eq_ok.mp ((merge_right_eq_ok few).mpr ?_)
    exact ⟨x, y, z, first, second, third, later, earlier, (congrArg _ (x.append_assoc y z)).symm⟩

end Three

/-- The third stream is self-contained, or says so. -/
theorem merge_assoc_laterStream :
    ∃ left later,
      (merge growingStream.toBitstream laterStream.toBitstream >>=
        (merge · strangeStream.toBitstream)) = .ok left ∧
      merge laterStream.toBitstream strangeStream.toBitstream = .ok later ∧
      merge growingStream.toBitstream later = .ok left := by
  have second : Stream.parse laterStream.toBitstream.bytes = .ok laterStream := by decide
  have third : Stream.parse strangeStream.toBitstream.bytes = .ok strangeStream := by decide
  have few : ∀ x y z, Stream.parse growingStream.toBitstream.bytes = .ok x →
      Stream.parse laterStream.toBitstream.bytes = .ok y →
      Stream.parse strangeStream.toBitstream.bytes = .ok z →
      x.frames.length + y.frames.length + z.frames.length < UInt32.size := by
    intro x y z read again more
    cases parse_growingStream.symm.trans read
    cases second.symm.trans again
    cases third.symm.trans more
    decide
  have before : (merge growingStream.toBitstream laterStream.toBitstream >>=
      (merge · strangeStream.toBitstream)) =
      .ok ((growingStream.append laterStream).append strangeStream).toBitstream := by
    decide
  obtain ⟨later, inner, outer⟩ := (merge_assoc few).2 _ laterStream before second rfl
  exact ⟨_, later, before, inner, outer⟩

end Simulated

end Transcode
