/-
**Decoder states** in their stored form, and how frames move them on.

* `DecoderState.parse_toHandle` — what was written is read back; `DecoderState.parse_eq_ok` — and
  nothing else is read.
* `DecoderState.after` — the state after frames in a row; it ends with the last of them.
* `DecoderState.advanceAll_eq` — a decoder gets there if its counter has room for the frames, and
  panics otherwise.
-/
import Mathlib.Data.List.Infix
import Transcode.Codec.DecoderState
import Transcode.Proofs.Bytes

namespace Transcode.DecoderState

/-- The last frame is short enough for its length to be written down. -/
def Fits (state : DecoderState) : Prop :=
  state.lastFrame.length < UInt32.size

theorem fits_fresh : fresh.Fits := by
  show 0 < UInt32.size
  decide

theorem takeHeader?_eq_some {bytes rest : Bytes} {framesDecoded : UInt64} {length : UInt32} :
    takeHeader? bytes = some (framesDecoded, length, rest) ↔
      bytes = mark ++ (Bytes.le64 framesDecoded ++ (Bytes.le32 length ++ rest)) := by
  constructor
  · intro read
    simp only [takeHeader?, Option.bind_eq_bind, Option.bind_eq_some_iff, Prod.exists] at read
    obtain ⟨afterMark, marked, counter, afterCounter, counted, declared, left, sized, read⟩ := read
    cases read
    rw [← List.isPrefixOf?_eq_some_iff_append_eq.mp marked, Bytes.takeWord64?_eq_some.mp counted,
      Bytes.takeWord32?_eq_some.mp sized]
  · rintro rfl
    rw [takeHeader?, List.isPrefixOf?_eq_some_iff_append_eq.mpr rfl]
    simp [Bytes.takeWord64?_le64, Bytes.takeWord32?_le32]

/-- **A stored state is read back.** -/
theorem parse_toHandle {state : DecoderState} (fits : state.Fits) :
    parse state.toHandle = .ok state := by
  have header : takeHeader? state.toHandle.bytes =
      some (state.framesDecoded, .ofNat state.lastFrame.length, state.lastFrame) :=
    takeHeader?_eq_some.mpr (by simp only [toHandle, List.append_assoc])
  have length : state.lastFrame.length = (UInt32.ofNat state.lastFrame.length).toNat :=
    (UInt32.toNat_ofNat_of_lt' fits).symm
  rw [parse, header]
  exact if_pos length

/-- **The stored form of a state** is the only one that is read as it. -/
theorem parse_eq_ok {handle : StateHandle} {state : DecoderState} :
    parse handle = .ok state ↔ state.Fits ∧ handle = state.toHandle := by
  constructor
  · intro read
    unfold parse at read
    split at read
    · cases read
    · next framesDecoded length frame header =>
      split at read
      · next whole =>
        cases read
        refine ⟨whole.trans_lt length.toNat_lt, congrArg StateHandle.mk ?_⟩
        rw [takeHeader?_eq_some.mp header, whole, UInt32.ofNat_toNat]
        simp only [List.append_assoc]
      · cases read
  · rintro ⟨fits, rfl⟩
    exact parse_toHandle fits

/-! ### Frames in a row -/

/-- The counter has room for so many more frames. -/
abbrev HasRoom (state : DecoderState) (frames : Nat) : Prop :=
  state.framesDecoded.toNat + frames < UInt64.size

/-- The state after one more frame that can be counted. -/
def next (state : DecoderState) (frame : Bytes) : DecoderState :=
  ⟨state.framesDecoded + 1, frame⟩

/-- The state after frames that can be counted. -/
def after (state : DecoderState) (pixels : List Bytes) : DecoderState :=
  pixels.foldl next state

theorem after_append (state : DecoderState) (pixels more : List Bytes) :
    state.after (pixels ++ more) = (state.after pixels).after more :=
  List.foldl_append

/-- Frames in a row end with the last of them. -/
theorem lastFrame_after (state : DecoderState) (pixels : List Bytes) :
    (state.after pixels).lastFrame = pixels.getLastD state.lastFrame := by
  induction pixels generalizing state with
  | nil => rfl
  | cons frame rest ih =>
    rw [List.getLastD_cons]
    exact ih (state.next frame)

variable {state final : DecoderState} {pixels : List Bytes}

/-- Frames that fit leave a state that fits. -/
theorem Fits.after (fits : state.Fits) (short : ∀ frame ∈ pixels, frame.length < UInt32.size) :
    (state.after pixels).Fits := by
  induction pixels generalizing state with
  | nil => exact fits
  | cons frame rest ih =>
    have next : (state.next frame).Fits := short frame List.mem_cons_self
    exact ih next fun other member => short other (List.mem_cons_of_mem _ member)

/-! ### Counting -/

/-- A fresh decoder has room for all frames whose number can be written down. -/
theorem hasRoom_fresh {frames : Nat} (few : frames < UInt32.size) : fresh.HasRoom frames := by
  have start : fresh.framesDecoded.toNat = 0 := rfl
  have wider : UInt32.size ≤ UInt64.size := by decide
  omega

theorem toNat_framesDecoded_next (room : state.HasRoom 1) (frame : Bytes) :
    (state.next frame).framesDecoded.toNat = state.framesDecoded.toNat + 1 := by
  rw [next, UInt64.toNat_add, UInt64.toNat_one]
  exact Nat.mod_eq_of_lt room

/-- As long as there is room for it, the counter counts the frames. -/
theorem toNat_framesDecoded_after (room : state.HasRoom pixels.length) :
    (state.after pixels).framesDecoded.toNat = state.framesDecoded.toNat + pixels.length := by
  induction pixels generalizing state with
  | nil => rfl
  | cons frame rest ih =>
    rw [List.length_cons] at room
    have first : (state.next frame).framesDecoded.toNat = state.framesDecoded.toNat + 1 :=
      toNat_framesDecoded_next (by omega) frame
    show ((state.next frame).after rest).framesDecoded.toNat = _
    rw [ih (by omega), first, List.length_cons]
    omega

/-- Frames leave the rest of the room. -/
theorem HasRoom.after {frames : Nat} (room : state.HasRoom (pixels.length + frames)) :
    (state.after pixels).HasRoom frames := by
  have earlier : state.HasRoom pixels.length := by omega
  have counted := toNat_framesDecoded_after earlier
  omega

/-- Frames whose number can be written down leave room for as many more. -/
theorem hasRoom_after_fresh {frames : Nat} (short : pixels.length < UInt32.size)
    (few : frames < UInt32.size) : (fresh.after pixels).HasRoom frames := by
  have start : fresh.framesDecoded.toNat = 0 := rfl
  have wide : UInt32.size + UInt32.size ≤ UInt64.size := by decide
  exact HasRoom.after (by omega)

/-- Room for frames, and room for others after them, is room for all of them. -/
theorem HasRoom.append {more : List Bytes} (earlier : state.HasRoom pixels.length)
    (later : (state.after pixels).HasRoom more.length) :
    state.HasRoom (pixels ++ more).length := by
  have counted := toNat_framesDecoded_after earlier
  rw [List.length_append]
  omega

/-- **Counting frames in a row** comes to the state after them if the counter has room for all of
them, and panics if it has not. -/
theorem advanceAll_eq (state : DecoderState) (pixels : List Bytes) :
    state.advanceAll pixels =
      if state.HasRoom pixels.length then .ok (state.after pixels) else .error .panicked := by
  induction pixels generalizing state with
  | nil => exact (if_pos state.framesDecoded.toNat_lt).symm
  | cons frame rest ih =>
    have step : state.advanceAll (frame :: rest) =
        state.advance frame >>= fun later => later.advanceAll rest := List.foldlM_cons
    rw [step, advance, List.length_cons]
    by_cases first : state.HasRoom 1
    · have counted := toNat_framesDecoded_next first frame
      have same : (state.next frame).HasRoom rest.length ↔ state.HasRoom (rest.length + 1) := by
        omega
      rw [if_pos first, ← if_congr same rfl rfl]
      exact ih (state.next frame)
    · rw [if_neg first, if_neg (by omega)]
      rfl

end Transcode.DecoderState
