/-
**Streams** in their stored form, and what their frames decode to.

* `Stream.parse_toBytes` — what was written is read back, whatever follows it.
* `Stream.decodeFrames_append` — frames in a row are decoded one part after the other.
* `Stream.decodeFrom_eq` — how decoding from a state comes out; `Stream.decodeFrom_eq_ok` tells what
  decodes.
-/
import Transcode.Codec.Stream
import Transcode.Proofs.Codec.DecoderState

namespace Transcode

/-- What succeeds in two steps. -/
theorem bind_eq_ok {ε α β : Type} {first : Except ε α} {next : α → Except ε β} {value : β} :
    (first >>= next) = .ok value ↔ ∃ middle, first = .ok middle ∧ next middle = .ok value := by
  cases first with
  | error error => exact iff_of_false nofun fun ⟨_, failed, _⟩ => nomatch failed
  | ok middle => exact ⟨fun goes => ⟨middle, rfl, goes⟩, fun ⟨_, rfl, goes⟩ => goes⟩

/-- A failure that the first of two steps never has is one of the second. -/
theorem bind_eq_error {ε α β : Type} {first : Except ε α} {next : α → Except ε β} {error : ε}
    (passes : first ≠ .error error) :
    (first >>= next) = .error error ↔
      ∃ middle, first = .ok middle ∧ next middle = .error error := by
  cases first with
  | error other =>
    refine iff_of_false (fun failed => passes ?_) fun ⟨_, goes, _⟩ => nomatch goes
    cases failed
    rfl
  | ok middle => exact ⟨fun failed => ⟨middle, rfl, failed⟩, fun ⟨_, rfl, failed⟩ => failed⟩

/-- Checks that are made one after another. -/
theorem forM_eq_ok {ε α : Type} {check : α → Except ε Unit} {items : List α} :
    items.forM check = .ok () ↔ ∀ item ∈ items, check item = .ok () := by
  induction items with
  | nil => exact iff_of_true rfl nofun
  | cons item items ih =>
    rw [List.forM, bind_eq_ok, List.forall_mem_cons, ← ih]
    exact ⟨fun ⟨_, first, later⟩ => ⟨first, later⟩, fun ⟨first, later⟩ => ⟨(), first, later⟩⟩

theorem FrameKind.ofCode?_code (kind : FrameKind) : ofCode? kind.code = some kind := by
  cases kind <;> rfl

theorem FrameKind.ofCode?_eq_some {code : UInt8} {kind : FrameKind} :
    ofCode? code = some kind ↔ code = kind.code := by
  constructor
  · intro known
    unfold ofCode? at known
    split at known <;> cases known <;> rfl
  · rintro rfl
    exact ofCode?_code kind

namespace Stream

/-- The numbers in the stored form are small enough to be written down. -/
structure Fits (stream : Stream) : Prop where
  frames : stream.frames.length < UInt32.size
  payloads : ∀ frame ∈ stream.frames, frame.payload.length < UInt32.size

/-- Frames that are as long as the payloads are as many. -/
theorem length_eq_of_lengths {stored : List Frame} {pixels : List Bytes}
    (same : stored.map (·.payload.length) = pixels.map List.length) :
    stored.length = pixels.length := by
  have count := congrArg List.length same
  rwa [List.length_map, List.length_map] at count

theorem takeFrame_toBytes {frame : Frame} (short : frame.payload.length < UInt32.size)
    (rest : Bytes) : takeFrame (frame.toBytes ++ rest) = .ok (frame, rest) := by
  have shape : frame.toBytes ++ rest = frame.kind.code ::
      (Bytes.le32 (.ofNat frame.payload.length) ++ (frame.payload ++ rest)) := by
    simp [Frame.toBytes]
  rw [shape, takeFrame, Bytes.takeWord32?_le32]
  simp only [UInt32.toNat_ofNat_of_lt' short, Bytes.splitExact?_append, FrameKind.ofCode?_code]

theorem takeFrames_flatMap {frames : List Frame}
    (short : ∀ frame ∈ frames, frame.payload.length < UInt32.size) (rest : Bytes) :
    takeFrames frames.length (frames.flatMap Frame.toBytes ++ rest) = .ok frames := by
  induction frames with
  | nil => rfl
  | cons frame more ih =>
    rw [List.flatMap_cons, List.append_assoc, List.length_cons, takeFrames,
      takeFrame_toBytes (short frame List.mem_cons_self)]
    have others := ih fun other member => short other (List.mem_cons_of_mem _ member)
    simp only [bind, Except.bind, others]

theorem takeHeader?_mark (frameSize : UInt32) (flag : UInt8) (hash count : UInt32) (rest : Bytes) :
    takeHeader? (mark ++ (Bytes.le32 frameSize ++
        flag :: (Bytes.le32 hash ++ (Bytes.le32 count ++ rest)))) =
      some (frameSize, if flag = 0 then none else some hash, count, rest) := by
  rw [takeHeader?, List.isPrefixOf?_eq_some_iff_append_eq.mpr rfl]
  simp [Bytes.takeWord32?_le32]

theorem takeHeader?_toBytes (stream : Stream) (rest : Bytes) :
    takeHeader? (stream.toBytes ++ rest) = some (stream.frameSize, stream.entryHash,
      .ofNat stream.frames.length, stream.frames.flatMap Frame.toBytes ++ rest) := by
  have read (flag : UInt8) (hash : UInt32) := takeHeader?_mark stream.frameSize flag hash
    (.ofNat stream.frames.length) (stream.frames.flatMap Frame.toBytes ++ rest)
  simp only [toBytes, List.append_assoc]
  cases stream.entryHash with
  | none => exact read 0 0
  | some hash => exact read 1 hash

/-- **A stored stream is read back**, whatever follows it. -/
theorem parse_toBytes {stream : Stream} (fits : stream.Fits) (trailing : Bytes) :
    parse (stream.toBytes ++ trailing) = .ok stream := by
  rw [parse, takeHeader?_toBytes]
  simp only [UInt32.toNat_ofNat_of_lt' fits.frames, takeFrames_flatMap fits.payloads, bind,
    Except.bind]

theorem parse_toBitstream {stream : Stream} (fits : stream.Fits) :
    parse stream.toBitstream.bytes = .ok stream := by
  rw [toBitstream, ← List.append_nil stream.toBytes, parse_toBytes fits]

/-! ### Decoding -/

theorem length_decodeFrame (frame : Frame) (previous : Bytes) :
    (decodeFrame frame previous).length = frame.payload.length := by
  cases kind : frame.kind <;> simp only [decodeFrame, kind, Bytes.length_mix]

/-- Decoded frames are as long as the stored ones. -/
theorem map_length_decodeFrames (frames : List Frame) (previous : Bytes) :
    (decodeFrames frames previous).map List.length = frames.map (·.payload.length) := by
  induction frames generalizing previous with
  | nil => rfl
  | cons frame rest ih => simp only [decodeFrames, List.map_cons, length_decodeFrame, ih]

theorem length_decodeFrames (frames : List Frame) (previous : Bytes) :
    (decodeFrames frames previous).length = frames.length :=
  (length_eq_of_lengths (map_length_decodeFrames frames previous).symm).symm

/-- Frames in a row are decoded one part after the other: the later ones follow the last of the
earlier, decoded. -/
theorem decodeFrames_append (frames more : List Frame) (previous : Bytes) :
    decodeFrames (frames ++ more) previous =
      decodeFrames frames previous ++
        decodeFrames more ((decodeFrames frames previous).getLastD previous) := by
  induction frames generalizing previous with
  | nil => rfl
  | cons frame rest ih =>
    simp only [List.cons_append, decodeFrames, ih, List.getLastD_cons]

variable {stream : Stream} {state final : DecoderState} {decoded : List Bytes}

theorem entryHash_of_opensWithInterFrame (opens : stream.opensWithInterFrame = true) :
    stream.entryHash = none :=
  Option.isNone_iff_eq_none.mp (Bool.and_eq_true_iff.mp opens).1

/-- **Decoding from a state** refuses a stream that claims to be self-contained and yet opens with a
difference, unless the decoder has seen a frame; and it panics if the counter has no room for the
frames. -/
theorem decodeFrom_eq (starts : stream.opensWithInterFrame = true → state.framesDecoded ≠ 0) :
    stream.decodeFrom state =
      if state.HasRoom stream.frames.length then
        .ok (decodeFrames stream.frames state.lastFrame,
          state.after (decodeFrames stream.frames state.lastFrame))
      else .error .panicked := by
  have accepted : ¬ (stream.opensWithInterFrame && state.framesDecoded = 0) = true := by
    simpa only [Bool.and_eq_true, decide_eq_true_eq, not_and] using starts
  have counts : stream.decodeFrom state =
      state.advanceAll (decodeFrames stream.frames state.lastFrame) >>= fun final =>
        .ok (decodeFrames stream.frames state.lastFrame, final) := if_neg accepted
  rw [counts, DecoderState.advanceAll_eq, length_decodeFrames]
  split <;> rfl

/-- **What decodes**, and to what. -/
theorem decodeFrom_eq_ok :
    stream.decodeFrom state = .ok (decoded, final) ↔
      (stream.opensWithInterFrame = true → state.framesDecoded ≠ 0) ∧
        state.HasRoom stream.frames.length ∧
        decodeFrames stream.frames state.lastFrame = decoded ∧ final = state.after decoded := by
  by_cases starts : stream.opensWithInterFrame = true → state.framesDecoded ≠ 0
  · rw [decodeFrom_eq starts]
    split
    · next room =>
      rw [Except.ok.injEq, Prod.mk.injEq]
      constructor
      · rintro ⟨rfl, rfl⟩
        exact ⟨starts, room, rfl, rfl⟩
      · rintro ⟨-, -, rfl, rfl⟩
        exact ⟨rfl, rfl⟩
    · next full => exact iff_of_false nofun fun ⟨_, room, _⟩ => full room
  · have refused : (stream.opensWithInterFrame && state.framesDecoded = 0) = true := by
      simpa only [Bool.and_eq_true, decide_eq_true_eq, ne_eq, Classical.not_imp, not_not]
        using starts
    rw [decodeFrom, if_pos refused]
    exact iff_of_false nofun fun ⟨other, _⟩ => starts other

end Stream

end Transcode
