/-
**The ledger in memory.** Its view is `MemoryLedger.get?`, the artifact in a slot: two ledgers with
the same view behave alike, and each operation is determined by what it does to the view
(`get?_insert`, `get?_remove`).
-/
import Transcode.Association
import Transcode.Ledger.Basic

namespace Transcode

/-- Filled slots with their artifacts, each slot at most once. -/
structure MemoryLedger where
  entries : List (Key × Artifact)
  deriving Repr

namespace MemoryLedger

/-- No slot is filled. -/
def empty : MemoryLedger :=
  ⟨[]⟩

/-- The artifact in a slot. -/
def get? (ledger : MemoryLedger) (key : Key) : Option Artifact :=
  ledger.entries.lookup key

/-- Empties a slot. -/
def remove (ledger : MemoryLedger) (key : Key) : MemoryLedger :=
  ⟨ledger.entries.filter fun entry => entry.1 ≠ key⟩

/-- Fills a slot, whatever it holds. -/
def insert (ledger : MemoryLedger) (key : Key) (artifact : Artifact) : MemoryLedger :=
  ⟨(key, artifact) :: (ledger.remove key).entries⟩

/-- The number of filled slots. -/
def size (ledger : MemoryLedger) : Nat :=
  ledger.entries.length

/-- The filled slots. -/
def keys (ledger : MemoryLedger) : KeySet :=
  KeySet.ofList (ledger.entries.map Prod.fst)

@[simp]
theorem get?_empty (key : Key) : empty.get? key = none :=
  rfl

theorem get?_remove (ledger : MemoryLedger) (key other : Key) :
    (ledger.remove key).get? other = if other = key then none else ledger.get? other :=
  Association.lookup_filter_ne ledger.entries key other

theorem get?_insert (ledger : MemoryLedger) (key other : Key) (artifact : Artifact) :
    (ledger.insert key artifact).get? other =
      if other = key then some artifact else ledger.get? other :=
  Association.lookup_rebind ledger.entries key other artifact

theorem mem_keys {ledger : MemoryLedger} {key : Key} :
    key ∈ ledger.keys ↔ (ledger.get? key).isSome := by
  rw [keys, KeySet.mem_ofList, get?, List.lookup_isSome_iff, List.mem_map]
  exact exists_congr fun entry => and_congr_right fun _ => by rw [beq_iff_eq, eq_comm]

/-! ### Operations -/

/-- Fills an empty slot. An artifact that does not belong there is refused first. -/
def put (ledger : MemoryLedger) (key : Key) (artifact : Artifact) :
    Except LedgerError MemoryLedger := do
  Ledger.checkFit key artifact
  if (ledger.get? key).isSome then .error (.duplicateKey key)
  else .ok (ledger.insert key artifact)

/-- Fills a slot, whatever it holds. -/
def overwrite (ledger : MemoryLedger) (key : Key) (artifact : Artifact) :
    Except LedgerError MemoryLedger := do
  Ledger.checkFit key artifact
  .ok (ledger.insert key artifact)

/-- The artifact in a slot that must be filled. -/
def get (ledger : MemoryLedger) (key : Key) : Except LedgerError Artifact :=
  match ledger.get? key with
  | some artifact => .ok artifact
  | none => .error (.notFound key)

/-- The outcome of a change, and the ledger after it: a failed change leaves it as it was. -/
def commit (ledger : MemoryLedger) :
    Except LedgerError MemoryLedger → Except LedgerError Unit × MemoryLedger
  | .ok changed => (.ok (), changed)
  | .error error => (.error error, ledger)

/-- The answer to an operation, and the ledger after it. -/
def answer (ledger : MemoryLedger) : (op : Ledger.Op) → op.Answer × MemoryLedger
  | .contains key => (.ok (ledger.get? key).isSome, ledger)
  | .keys => (.ok ledger.keys, ledger)
  | .get key => (ledger.get key, ledger)
  | .put key artifact => ledger.commit (ledger.put key artifact)
  | .overwrite key artifact => ledger.commit (ledger.overwrite key artifact)

end MemoryLedger

end Transcode
