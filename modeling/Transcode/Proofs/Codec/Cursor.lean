/-
**Reading without looking.** A `Cursor` moves over octets in memory as a program does that checks
how much is left by itself: it takes what it is told to take, and if there is not as much it has
read past the end, after which there is nothing to come back to.

* `Cursor.read?` runs a cursor over a byte string; `none` stands for reading past the end.
* Each way to move on is described by what stands in front of the cursor (`on_octet_cons`,
  `on_word_le32`, `on_longWord_le64`, `on_peek_append`, `on_skip_append`).
-/
import Transcode.Codec.Basic
import Transcode.Proofs.Bytes

namespace Transcode

/-- Reads from what is left of a byte string. It may refuse what it reads, and it may read past the
end. -/
abbrev Cursor (α : Type) : Type :=
  StateT Bytes (ExceptT Malformation Option) α

namespace Cursor

variable {α β : Type}

/-- What comes of the cursor at the start of the bytes, and what it has left; nothing does if it
reads past the end. -/
def on (cursor : Cursor α) (bytes : Bytes) : Option (Except Malformation (α × Bytes)) :=
  (cursor.run bytes).run

/-- What comes of the cursor, whatever it has left. -/
def read? (cursor : Cursor α) (bytes : Bytes) : Option (Except Malformation α) :=
  (cursor.on bytes).map fun result => result.map Prod.fst

/-! ### Moves -/

/-- Reading past the end. -/
def overrun : Cursor α :=
  fun _ => ExceptT.mk none

/-- How many octets are left. -/
def remaining : Cursor Nat := do
  return (← get).length

/-- The next octets, which stay where they are. -/
def peek (count : Nat) : Cursor Bytes := do
  let bytes ← get
  if count ≤ bytes.length then return bytes.take count else overrun

/-- Moves on. -/
def skip (count : Nat) : Cursor Unit := do
  let bytes ← get
  if count ≤ bytes.length then set (bytes.drop count) else overrun

/-- Takes one octet. -/
def octet : Cursor UInt8 := do
  let octet :: rest ← get | overrun
  set rest
  return octet

/-- Takes a 32-bit word, least significant octet first. -/
def word : Cursor UInt32 :=
  fun bytes => ExceptT.mk ((Bytes.takeWord32? bytes).map .ok)

/-- Takes a 64-bit word, least significant octet first. -/
def longWord : Cursor UInt64 :=
  fun bytes => ExceptT.mk ((Bytes.takeWord64? bytes).map .ok)

/-- All that is left, which stays where it is. -/
def peekAll : Cursor Bytes :=
  get

/-- Refuses to go on unless the condition holds. -/
def ensure (condition : Prop) [Decidable condition] (refusal : Malformation) : Cursor Unit :=
  if condition then pure () else throw refusal

/-! ### What stands in front -/

/-- **One cursor after the other.** -/
theorem on_bind (cursor : Cursor α) (next : α → Cursor β) (bytes : Bytes) :
    (cursor >>= next).on bytes =
      match cursor.on bytes with
      | some (.ok (value, rest)) => (next value).on rest
      | some (.error error) => some (.error error)
      | none => none := by
  show (Option.bind (cursor.on bytes) fun result => ExceptT.bindCont _ result) = _
  rcases cursor.on bytes with _ | _ | _ <;> rfl

theorem read?_bind (cursor : Cursor α) (next : α → Cursor β) (bytes : Bytes) :
    (cursor >>= next).read? bytes =
      match cursor.on bytes with
      | some (.ok (value, rest)) => (next value).read? rest
      | some (.error error) => some (.error error)
      | none => none := by
  rw [read?, on_bind]
  rcases cursor.on bytes with _ | _ | _ <;> rfl

/-- A cursor whose value is then put to use. -/
theorem read?_bind_pure (cursor : Cursor α) (use : α → β) (bytes : Bytes) :
    (cursor >>= fun value => pure (use value)).read? bytes =
      (cursor.read? bytes).map fun result => result.map use := by
  rw [read?_bind, read?]
  rcases cursor.on bytes with _ | _ | _ <;> rfl

@[simp]
theorem on_pure (value : α) (bytes : Bytes) :
    on (pure value : Cursor α) bytes = some (.ok (value, bytes)) :=
  rfl

theorem on_ensure (condition : Prop) [Decidable condition] (refusal : Malformation)
    (bytes : Bytes) : (ensure condition refusal).on bytes =
      if condition then some (.ok ((), bytes)) else some (.error refusal) := by
  unfold ensure
  split <;> rfl

@[simp]
theorem on_remaining (bytes : Bytes) : remaining.on bytes = some (.ok (bytes.length, bytes)) :=
  rfl

@[simp]
theorem on_peek_append (taken rest : Bytes) :
    (peek taken.length).on (taken ++ rest) = some (.ok (taken, taken ++ rest)) := by
  have enough : taken.length ≤ (taken ++ rest).length := by simp
  show on (if taken.length ≤ (taken ++ rest).length then
    pure ((taken ++ rest).take taken.length) else overrun) (taken ++ rest) = _
  rw [if_pos enough, List.take_left]
  rfl

@[simp]
theorem on_skip_append (taken rest : Bytes) :
    (skip taken.length).on (taken ++ rest) = some (.ok ((), rest)) := by
  have enough : taken.length ≤ (taken ++ rest).length := by simp
  show on (if taken.length ≤ (taken ++ rest).length then
    set ((taken ++ rest).drop taken.length) else overrun) (taken ++ rest) = _
  rw [if_pos enough, List.drop_left]
  rfl

@[simp]
theorem on_octet_cons (value : UInt8) (rest : Bytes) :
    octet.on (value :: rest) = some (.ok (value, rest)) :=
  rfl

@[simp]
theorem on_word_le32 (value : UInt32) (rest : Bytes) :
    word.on (Bytes.le32 value ++ rest) = some (.ok (value, rest)) := by
  show (Bytes.takeWord32? (Bytes.le32 value ++ rest)).map Except.ok = _
  rw [Bytes.takeWord32?_le32]
  rfl

@[simp]
theorem on_longWord_le64 (value : UInt64) (rest : Bytes) :
    longWord.on (Bytes.le64 value ++ rest) = some (.ok (value, rest)) := by
  show (Bytes.takeWord64? (Bytes.le64 value ++ rest)).map Except.ok = _
  rw [Bytes.takeWord64?_le64]
  rfl

end Cursor

end Transcode
