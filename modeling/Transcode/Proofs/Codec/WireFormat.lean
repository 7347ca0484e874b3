/-
**The wire format of streams.** `Stream.StoredIn` says what a stored stream looks like, octet by
octet and without a reader.

* `takeHeader?_eq_some`, `takeFrame_eq_ok`, `takeFrames_eq_ok` — what each part of the reader
  accepts.
* `Stream.scan` reads a stream with a `Cursor`, which is kept from the end by nothing but the checks
  that are made on the way. It does what `Stream.parse` does (`read?_scan`).
* `Stream.parse_iff_storedIn` — the reader accepts exactly the format, and stays within the bytes.
-/
import Transcode.Proofs.Codec.Cursor
import Transcode.Proofs.Codec.Stream

namespace Transcode

namespace Stream

/-! ### What the reader accepts -/

/-- The header that is read stands in front. -/
theorem takeHeader?_eq_some {bytes rest : Bytes} {frameSize count : UInt32}
    {entryHash : Option UInt32} :
    takeHeader? bytes = some (frameSize, entryHash, count, rest) ↔
      ∃ flag hash, entryHash = (if flag = 0 then none else some hash) ∧
        bytes = mark ++ (Bytes.le32 frameSize ++
          flag :: (Bytes.le32 hash ++ (Bytes.le32 count ++ rest))) := by
  constructor
  · intro read
    simp only [takeHeader?, Option.bind_eq_bind, Option.bind_eq_some_iff, Prod.exists] at read
    obtain ⟨afterMark, marked, size, afterSize, sized, read⟩ := read
    cases afterSize with
    | nil => cases read
    | cons flag afterFlag =>
      simp only [Option.bind_eq_some_iff, Prod.exists] at read
      obtain ⟨hash, afterHash, hashed, number, left, counted, read⟩ := read
      cases read
      refine ⟨flag, hash, rfl, ?_⟩
      rw [← List.isPrefixOf?_eq_some_iff_append_eq.mp marked, Bytes.takeWord32?_eq_some.mp sized,
        Bytes.takeWord32?_eq_some.mp hashed, Bytes.takeWord32?_eq_some.mp counted]
  · rintro ⟨flag, hash, rfl, rfl⟩
    exact takeHeader?_mark frameSize flag hash count rest

/-- **A frame that is read** stands in front in its stored form. -/
theorem takeFrame_eq_ok {bytes rest : Bytes} {frame : Frame} :
    takeFrame bytes = .ok (frame, rest) ↔
      frame.payload.length < UInt32.size ∧ bytes = frame.toBytes ++ rest := by
  constructor
  · intro read
    unfold takeFrame at read
    split at read
    · cases read
    · next code afterCode =>
      split at read
      · cases read
      · next length afterLength counted =>
        split at read
        · cases read
        · next payload left cut =>
          split at read
          · cases read
          · next kind known =>
            cases read
            obtain ⟨rfl, whole⟩ := Bytes.splitExact?_eq_some.mp cut
            refine ⟨whole ▸ length.toNat_lt, ?_⟩
            rw [Bytes.takeWord32?_eq_some.mp counted, FrameKind.ofCode?_eq_some.mp known,
              Frame.toBytes, whole, UInt32.ofNat_toNat]
            simp
  · rintro ⟨short, rfl⟩
    exact takeFrame_toBytes short rest

/-- **Frames that are read** stand in front one after the other. -/
theorem takeFrames_eq_ok {count : Nat} {bytes : Bytes} {frames : List Frame} :
    takeFrames count bytes = .ok frames ↔
      frames.length = count ∧ (∀ frame ∈ frames, frame.payload.length < UInt32.size) ∧
        ∃ trailing, bytes = frames.flatMap Frame.toBytes ++ trailing := by
  constructor
  · intro read
    induction count generalizing bytes frames with
    | zero =>
      cases read
      exact ⟨rfl, by simp, bytes, rfl⟩
    | succ count ih =>
      rw [takeFrames] at read
      obtain ⟨⟨frame, left⟩, first, read⟩ := bind_eq_ok.mp read
      obtain ⟨more, others, read⟩ := bind_eq_ok.mp read
      cases read
      obtain ⟨short, rfl⟩ := takeFrame_eq_ok.mp first
      obtain ⟨length, shorts, trailing, rfl⟩ := ih others
      refine ⟨congrArg (· + 1) length, List.forall_mem_cons.mpr ⟨short, shorts⟩, trailing, ?_⟩
      rw [List.flatMap_cons, List.append_assoc]
  · rintro ⟨rfl, short, trailing, rfl⟩
    exact takeFrames_flatMap short trailing

/-- **The stored form of a stream**, and then whatever follows it: the letters `SIMF`, the frame
size, a flag that is zero unless there is an entry hash, four bytes for the hash, the number of
frames; for each frame its kind, zero for a key frame and one for an inter frame, the length of its
payload, and the payload. Words have their least significant byte first. -/
def StoredIn (stream : Stream) (bytes : Bytes) : Prop :=
  stream.Fits ∧ ∃ flag hash trailing,
    stream.entryHash = (if flag = 0 then none else some hash) ∧
    bytes = "SIMF".toList.map Char.toUInt8 ++ Bytes.le32 stream.frameSize ++
      flag :: Bytes.le32 hash ++ Bytes.le32 (.ofNat stream.frames.length) ++
      (stream.frames.flatMap fun frame =>
        (match frame.kind with | .key => 0 | .inter => 1) ::
          Bytes.le32 (.ofNat frame.payload.length) ++ frame.payload) ++
      trailing

/-- **What is read** is a stored form of the stream. -/
theorem parse_eq_ok {bytes : Bytes} {stream : Stream} :
    parse bytes = .ok stream ↔ stream.StoredIn bytes := by
  constructor
  · intro read
    unfold parse at read
    split at read
    · cases read
    · next frameSize entryHash count rest header =>
      obtain ⟨taken, frames, read⟩ := bind_eq_ok.mp read
      cases read
      obtain ⟨flag, hash, entered, rfl⟩ := takeHeader?_eq_some.mp header
      obtain ⟨length, short, trailing, rfl⟩ := takeFrames_eq_ok.mp frames
      refine ⟨⟨length ▸ count.toNat_lt, short⟩, flag, hash, trailing, entered, ?_⟩
      simp only [length, UInt32.ofNat_toNat, List.append_assoc, List.cons_append]
      rfl
  · rintro ⟨fits, flag, hash, trailing, entered, form⟩
    simp only [List.append_assoc, List.cons_append] at form
    have header : takeHeader? bytes = some (stream.frameSize, stream.entryHash,
        .ofNat stream.frames.length, stream.frames.flatMap Frame.toBytes ++ trailing) :=
      takeHeader?_eq_some.mpr ⟨flag, hash, entered, form⟩
    rw [parse, header]
    simp only [UInt32.toNat_ofNat_of_lt' fits.frames, takeFrames_flatMap fits.payloads, bind,
      Except.bind]

/-! ### Reading with a cursor -/

open Cursor

/-- One frame: five octets announce it, and they say how many there are to follow. -/
def scanFrame : Cursor Frame := do
  ensure (5 ≤ (← remaining)) .truncatedFrameHeader
  let code ← octet
  let length ← word
  ensure (length.toNat ≤ (← remaining)) .truncatedFrame
  match FrameKind.ofCode? code with
  | none => throw (.unknownFrameType code)
  | some kind =>
    let payload ← peek length.toNat
    skip length.toNat
    return ⟨kind, payload⟩

/-- The given number of frames. -/
def scanFrames : Nat → Cursor (List Frame)
  | 0 => return []
  | count + 1 => do
    let frame ← scanFrame
    let frames ← scanFrames count
    return frame :: frames

/-- The header takes seventeen octets, of which four are the mark. -/
def scanHeader : Cursor (UInt32 × Option UInt32 × UInt32) := do
  ensure (17 ≤ (← remaining)) .missingStreamHeader
  ensure ((← peek 4) = mark) .missingStreamHeader
  skip 4
  let frameSize ← word
  let flag ← octet
  let hash ← word
  let count ← word
  return (frameSize, if flag = 0 then none else some hash, count)

/-- A stored stream. -/
def scan : Cursor Stream := do
  let (frameSize, entryHash, count) ← scanHeader
  let frames ← scanFrames count.toNat
  return ⟨frameSize, entryHash, frames⟩

/-- A frame that cannot be announced is refused at once. -/
theorem takeFrame_of_short {bytes : Bytes} (short : bytes.length < 5) :
    takeFrame bytes = .error .truncatedFrameHeader := by
  cases bytes with
  | nil => rfl
  | cons code rest => rw [takeFrame, Bytes.takeWord32?_of_short (Nat.lt_of_succ_lt_succ short)]

/-- **Reading a frame** stays within the bytes. -/
theorem on_scanFrame (bytes : Bytes) : scanFrame.on bytes = some (takeFrame bytes) := by
  by_cases long : 5 ≤ bytes.length
  · obtain ⟨code, tail, rfl⟩ := List.exists_cons_of_length_pos (Nat.zero_lt_of_lt long)
    obtain ⟨length, rest, rfl, -⟩ :=
      Bytes.exists_eq_le32_append (Nat.le_of_succ_le_succ long : 0 + 4 ≤ tail.length)
    simp only [scanFrame, on_bind, on_remaining, on_ensure, long, on_octet_cons, on_word_le32,
      takeFrame, Bytes.takeWord32?_le32, if_true]
    by_cases enough : length.toNat ≤ rest.length
    · obtain ⟨payload, left, rfl, whole⟩ :
          ∃ payload left, rest = payload ++ left ∧ payload.length = length.toNat :=
        ⟨_, _, (List.take_append_drop _ rest).symm, List.length_take_of_le enough⟩
      rw [Bytes.splitExact?_eq_some.mpr ⟨rfl, whole⟩, if_pos enough, ← whole]
      cases FrameKind.ofCode? code with
      | none => rfl
      | some kind => simp only [on_bind, on_peek_append, on_skip_append, on_pure]
    · rw [Bytes.splitExact?_of_short (Nat.lt_of_not_le enough), if_neg enough]
  · simp only [scanFrame, on_bind, on_remaining, on_ensure, long,
      takeFrame_of_short (Nat.lt_of_not_le long), if_false]

theorem read?_scanFrames (count : Nat) (bytes : Bytes) :
    (scanFrames count).read? bytes = some (takeFrames count bytes) := by
  induction count generalizing bytes with
  | zero => rfl
  | succ count ih =>
    rw [scanFrames, takeFrames, read?_bind, on_scanFrame]
    cases takeFrame bytes with
    | error error => rfl
    | ok taken =>
      obtain ⟨frame, left⟩ := taken
      show (scanFrames count >>= fun frames => pure (frame :: frames)).read? left =
        some (takeFrames count left >>= fun frames => .ok (frame :: frames))
      rw [read?_bind_pure, ih]
      cases takeFrames count left <;> rfl

/-- Seventeen octets have the shape of a header, whatever they are. -/
theorem exists_header {bytes : Bytes} (long : 17 ≤ bytes.length) :
    ∃ front frameSize flag hash count rest, front.length = 4 ∧
      bytes = front ++ (Bytes.le32 frameSize ++
        flag :: (Bytes.le32 hash ++ (Bytes.le32 count ++ rest))) := by
  obtain ⟨front, tail, rfl, whole⟩ : ∃ front tail, bytes = front ++ tail ∧ front.length = 4 :=
    ⟨_, _, (List.take_append_drop 4 bytes).symm, List.length_take_of_le (by omega)⟩
  rw [List.length_append, whole] at long
  obtain ⟨frameSize, tail, rfl, nine⟩ :=
    Bytes.exists_eq_le32_append (Nat.le_of_add_le_add_left long : 9 + 4 ≤ tail.length)
  obtain ⟨flag, tail, rfl⟩ := List.exists_cons_of_length_pos (Nat.zero_lt_of_lt nine)
  obtain ⟨hash, tail, rfl, four⟩ :=
    Bytes.exists_eq_le32_append (Nat.le_of_succ_le_succ nine : 4 + 4 ≤ tail.length)
  obtain ⟨count, rest, rfl, -⟩ := Bytes.exists_eq_le32_append (four : 0 + 4 ≤ tail.length)
  exact ⟨front, frameSize, flag, hash, count, rest, whole, rfl⟩

/-- A header that cannot be there is refused at once. -/
theorem takeHeader?_of_short {bytes : Bytes} (short : bytes.length < 17) :
    takeHeader? bytes = none := by
  refine Option.eq_none_iff_forall_ne_some.mpr fun taken read => ?_
  obtain ⟨flag, hash, -, rfl⟩ := takeHeader?_eq_some.mp read
  simp only [mark, Bytes.le32, List.length_append, List.length_cons] at short
  omega

/-- Without the mark there is no header. -/
theorem takeHeader?_of_ne {front rest : Bytes} (long : front.length = 4) (other : front ≠ mark) :
    takeHeader? (front ++ rest) = none := by
  refine Option.eq_none_iff_forall_ne_some.mpr fun taken read => ?_
  obtain ⟨flag, hash, -, same⟩ := takeHeader?_eq_some.mp read
  exact other (List.append_inj same long).1

theorem on_scanHeader (bytes : Bytes) :
    scanHeader.on bytes = some (match takeHeader? bytes with
      | none => .error .missingStreamHeader
      | some (frameSize, entryHash, count, rest) => .ok ((frameSize, entryHash, count), rest)) := by
  by_cases long : 17 ≤ bytes.length
  · obtain ⟨front, frameSize, flag, hash, count, rest, whole, rfl⟩ := exists_header long
    simp only [scanHeader, on_bind, on_remaining, on_ensure, long, if_true, ← whole,
      on_peek_append]
    by_cases marked : front = mark
    · subst marked
      simp only [if_true, on_skip_append, on_word_le32, on_octet_cons, on_pure, takeHeader?_mark]
    · simp only [marked, if_false, takeHeader?_of_ne whole marked]
  · simp only [scanHeader, on_bind, on_remaining, on_ensure, long, if_false,
      takeHeader?_of_short (Nat.lt_of_not_le long)]

/-- **Reading a stream with a cursor** stays within the bytes and comes to the same. -/
theorem read?_scan (bytes : Bytes) : scan.read? bytes = some (parse bytes) := by
  rw [scan, read?_bind, on_scanHeader, parse]
  cases takeHeader? bytes with
  | none => rfl
  | some header =>
    obtain ⟨frameSize, entryHash, count, rest⟩ := header
    refine (read?_bind_pure _ (Stream.mk frameSize entryHash) rest).trans ?_
    rw [read?_scanFrames]
    show _ = some (takeFrames count.toNat rest >>= fun frames =>
      Except.ok (Stream.mk frameSize entryHash frames))
    cases takeFrames count.toNat rest <;> rfl

/-- **Streams on the wire.** The reader accepts exactly the stored forms, each as the stream that it
is the stored form of; it never reads past the end, whatever it is given; and it reads back every
stream that has fewer than `2 ^ 32` frames of fewer than `2 ^ 32` bytes each, whatever follows. -/
theorem parse_iff_storedIn :
    (∀ bytes stream, parse bytes = .ok stream ↔ stream.StoredIn bytes) ∧
    (∀ bytes, scan.read? bytes = some (parse bytes)) ∧
    ∀ stream : Stream, stream.frames.length < UInt32.size →
      (∀ frame ∈ stream.frames, frame.payload.length < UInt32.size) →
      ∀ trailing, parse (stream.toBytes ++ trailing) = .ok stream :=
  ⟨fun _ _ => parse_eq_ok, read?_scan, fun _ few short => parse_toBytes ⟨few, short⟩⟩

/-- A stream of an empty key frame and an inter frame, stored with seven as its flag: no writer does
so, yet it is a stored form of that stream. Cut short, it is refused. -/
theorem parse_iff_storedIn_twoFrames :
    let stream : Stream := ⟨64, some 1, [⟨.key, []⟩, ⟨.inter, [9]⟩]⟩
    let bytes : Bytes := mark ++ [64, 0, 0, 0, 7, 1, 0, 0, 0, 2, 0, 0, 0] ++
      [0, 0, 0, 0, 0, 1, 1, 0, 0, 0, 9]
    stream.StoredIn (bytes ++ [3]) ∧ parse (stream.toBytes ++ [3]) = .ok stream ∧
      scan.read? (bytes.dropLast) = some (.error .truncatedFrame) := by
  intro stream bytes
  obtain ⟨format, within, back⟩ := parse_iff_storedIn
  refine ⟨(format _ _).mp (by decide), back stream (by decide) (by decide) [3], ?_⟩
  rw [within]
  decide

end Stream

end Transcode
