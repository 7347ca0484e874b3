/-
**What single operations do to the ledger in memory**, as its users see it: the answer, and the
artifact that each slot holds afterwards.

* Filling an empty slot (`MemoryLedger.answer_put_of_none`) and filling any slot
  (`MemoryLedger.answer_overwrite`) change no other slot; a taken slot is refused and stays as it is
  (`MemoryLedger.answer_put_of_some`).
* `MemoryLedger.Has` says that a slot is filled, which no operation undoes
  (`MemoryLedger.Has.answer`); `MemoryLedger.hasAll` looks at several slots, and
  `MemoryLedger.Within` compares them all with a map.
* `MemoryLedger.Typed` ledgers hold in each slot what belongs there, and remain so whatever is asked
  of them (`MemoryLedger.Typed.answer`).
* `MemoryLedger.length_keys` counts the filled slots by any list of them.
-/
import Transcode.Proofs.Ledger.KeySet
import Transcode.Ledger.Memory

namespace Transcode.MemoryLedger

variable {ledger : MemoryLedger} {key : Key} {artifact : Artifact}

theorem answer_get_of_some (found : ledger.get? key = some artifact) :
    ledger.answer (.get key) = (.ok artifact, ledger) := by
  simp [answer, get, found]

/-- An artifact that does not belong in the slot is refused first. -/
theorem answer_put_of_misfit (misfit : artifact.fits key = false) :
    ledger.answer (.put key artifact) =
      (.error (.corrupt key (.payloadMismatch key.kind.payload)), ledger) := by
  simp [answer, put, Ledger.checkFit, misfit, commit, bind, Except.bind]

theorem answer_put_of_none (fit : artifact.fits key = true) (absent : ledger.get? key = none) :
    ledger.answer (.put key artifact) = (.ok (), ledger.insert key artifact) := by
  simp [answer, put, Ledger.checkFit, fit, absent, commit, bind, Except.bind]

theorem answer_put_of_some (fit : artifact.fits key = true) {held : Artifact}
    (found : ledger.get? key = some held) :
    ledger.answer (.put key artifact) = (.error (.duplicateKey key), ledger) := by
  simp [answer, put, Ledger.checkFit, fit, found, commit, bind, Except.bind]

theorem answer_overwrite_of_misfit (misfit : artifact.fits key = false) :
    ledger.answer (.overwrite key artifact) =
      (.error (.corrupt key (.payloadMismatch key.kind.payload)), ledger) := by
  simp [answer, overwrite, Ledger.checkFit, misfit, commit, bind, Except.bind]

theorem answer_overwrite (fit : artifact.fits key = true) :
    ledger.answer (.overwrite key artifact) = (.ok (), ledger.insert key artifact) := by
  simp [answer, overwrite, Ledger.checkFit, fit, commit, bind, Except.bind]

theorem get?_insert_self (ledger : MemoryLedger) (key : Key) (artifact : Artifact) :
    (ledger.insert key artifact).get? key = some artifact := by
  simp [get?_insert]

theorem get?_insert_of_ne (ledger : MemoryLedger) {key other : Key} (differs : other ≠ key)
    (artifact : Artifact) : (ledger.insert key artifact).get? other = ledger.get? other := by
  simp [get?_insert, differs]

/-- The slot is filled. -/
def Has (ledger : MemoryLedger) (key : Key) : Prop :=
  (ledger.get? key).isSome

theorem has_iff_exists : ledger.Has key ↔ ∃ artifact, ledger.get? key = some artifact :=
  Option.isSome_iff_exists

theorem has_congr {later : MemoryLedger} (same : later.get? key = ledger.get? key) :
    later.Has key ↔ ledger.Has key := by
  rw [Has, Has, same]

theorem has_insert {other : Key} :
    (ledger.insert key artifact).Has other ↔ other = key ∨ ledger.Has other := by
  unfold Has
  rw [get?_insert]
  split <;> simp_all

/-- The list of slots lacks a member just if a slot that is needed is empty. -/
theorem firstMissing_keys_eq_none {needed : KeySet} :
    needed.firstMissing ledger.keys = none ↔ ∀ key ∈ needed, ledger.Has key := by
  rw [KeySet.firstMissing_eq_none]
  exact forall₂_congr fun key _ => mem_keys

/-- **What comes of a put**: the artifact does not belong in the slot, the slot is taken, or it is
filled. -/
theorem answer_put_cases (ledger : MemoryLedger) (key : Key) (artifact : Artifact) :
    ledger.answer (.put key artifact) =
        (.error (.corrupt key (.payloadMismatch key.kind.payload)), ledger) ∨
      (ledger.Has key ∧
        ledger.answer (.put key artifact) = (.error (.duplicateKey key), ledger)) ∨
      ledger.answer (.put key artifact) = (.ok (), ledger.insert key artifact) := by
  cases fit : artifact.fits key with
  | false => exact .inl (answer_put_of_misfit fit)
  | true =>
    cases held : ledger.get? key with
    | some other =>
      exact .inr (.inl ⟨has_iff_exists.mpr ⟨other, held⟩, answer_put_of_some fit held⟩)
    | none => exact .inr (.inr (answer_put_of_none fit held))

/-- What comes of an overwrite. -/
theorem answer_overwrite_cases (ledger : MemoryLedger) (key : Key) (artifact : Artifact) :
    ledger.answer (.overwrite key artifact) =
        (.error (.corrupt key (.payloadMismatch key.kind.payload)), ledger) ∨
      ledger.answer (.overwrite key artifact) = (.ok (), ledger.insert key artifact) := by
  cases fit : artifact.fits key with
  | false => exact .inl (answer_overwrite_of_misfit fit)
  | true => exact .inr (answer_overwrite fit)

/-- **No operation empties a slot.** -/
theorem Has.answer (held : ledger.Has key) (op : Ledger.Op) : (ledger.answer op).2.Has key := by
  cases op with
  | contains other => exact held
  | keys => exact held
  | get other => exact held
  | put other artifact =>
    rcases ledger.answer_put_cases other artifact with same | ⟨-, same⟩ | same <;> rw [same]
    · exact held
    · exact held
    · exact has_insert.mpr (.inr held)
  | overwrite other artifact =>
    rcases ledger.answer_overwrite_cases other artifact with same | same <;> rw [same]
    · exact held
    · exact has_insert.mpr (.inr held)

/-- Whether all of the slots are filled. -/
def hasAll (ledger : MemoryLedger) (keys : List Key) : Bool :=
  keys.all fun key => (ledger.get? key).isSome

theorem hasAll_congr {later : MemoryLedger} {keys : List Key}
    (same : ∀ key ∈ keys, later.get? key = ledger.get? key) :
    later.hasAll keys = ledger.hasAll keys := by
  rw [Bool.eq_iff_iff, hasAll, hasAll, List.all_eq_true, List.all_eq_true]
  exact forall₂_congr fun key member => by rw [same key member]

/-- The ledger holds artifacts of the map only, each in its slot. -/
def Within (ledger : MemoryLedger) (map : Key → Option Artifact) : Prop :=
  ∀ key artifact, ledger.get? key = some artifact → map key = some artifact

theorem within_empty (map : Key → Option Artifact) : Within .empty map :=
  fun _ _ held => by cases held

/-- Every slot holds what belongs there. -/
def Typed (ledger : MemoryLedger) : Prop :=
  ∀ key artifact, ledger.get? key = some artifact → artifact.fits key = true

theorem typed_empty : Typed .empty :=
  fun _ _ held => by cases held

theorem Typed.insert (typed : ledger.Typed) (fit : artifact.fits key = true) :
    (ledger.insert key artifact).Typed := by
  intro other held found
  rw [get?_insert] at found
  split at found
  · next same =>
    cases found
    exact same ▸ fit
  · exact typed other held found

/-- **What does not belong in its slot is never stored.** -/
theorem Typed.answer (typed : ledger.Typed) (op : Ledger.Op) : (ledger.answer op).2.Typed := by
  cases op with
  | contains key => exact typed
  | keys => exact typed
  | get key => exact typed
  | overwrite key artifact =>
    cases fit : artifact.fits key with
    | false => rwa [answer_overwrite_of_misfit fit]
    | true =>
      rw [answer_overwrite fit]
      exact typed.insert fit
  | put key artifact =>
    cases fit : artifact.fits key with
    | false => rwa [answer_put_of_misfit fit]
    | true =>
      cases held : ledger.get? key with
      | some other => rwa [answer_put_of_some fit held]
      | none =>
        rw [answer_put_of_none fit held]
        exact typed.insert fit

/-- The number of filled slots, by any list of them. -/
theorem length_keys {members : List Key} (distinct : members.Nodup)
    (filled : ∀ key, (ledger.get? key).isSome ↔ key ∈ members) :
    ledger.keys.length = members.length := by
  refine KeySet.length_ofList distinct fun key => ?_
  rw [← filled, ← mem_keys, keys, KeySet.mem_ofList]

end Transcode.MemoryLedger
