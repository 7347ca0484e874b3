/-
**Footprints of tasks.** A part of a run is `Within` a footprint if it looks at no other slots than
those that it may see, and fills fewer still.

* Two ledgers that are `Alike` in the slots that a request may see answer it alike, and all slots
  but its own it leaves alone (`answer_alike`).
* What a part of a run must be allowed to ask (`Run.Permits`) lies within the footprint that it has
  by `Stage.inputs` and `Stage.outputs` (`permits_within`).
* A task of a barrier stage looks at no slot that another task of its stage fills
  (`within_barrierTask`).
-/
import Transcode.Proofs.Run.Asked

namespace Transcode.Run

variable {run : Run} {ledger middle later : MemoryLedger} {seen own : Key → Prop}

/-- The two ledgers hold the same in the slots of the set. -/
def Alike (slots : Key → Prop) (ledger later : MemoryLedger) : Prop :=
  ∀ key, slots key → later.get? key = ledger.get? key

theorem Alike.refl (slots : Key → Prop) (ledger : MemoryLedger) : Alike slots ledger ledger :=
  fun _ _ => rfl

theorem Alike.trans {slots : Key → Prop} (first : Alike slots ledger middle)
    (second : Alike slots middle later) : Alike slots ledger later :=
  fun key inside => (second key inside).trans (first key inside)

/-- The request looks at slots that may be seen only, and fills none but its own. -/
def Within (seen own : Key → Prop) : Request → Prop
  | .ledger (.contains key) | .ledger (.get key) => seen key
  | .ledger .keys => ∀ key, seen key
  | .ledger (.put key _) | .ledger (.overwrite key _) => seen key ∧ own key
  | .codec _ => True

/-! ### Answers within a footprint -/

/-- Filling the same slot in both ledgers, which hold the same otherwise. -/
theorem alike_insert (alike : Alike seen ledger later) {key : Key} (mine : own key)
    (artifact : Artifact) :
    Alike seen (ledger.insert key artifact) (later.insert key artifact) ∧
      Alike (fun key => ¬ own key) later (later.insert key artifact) := by
  refine ⟨fun other inside => ?_, fun other foreign => ?_⟩
  · rw [MemoryLedger.get?_insert, MemoryLedger.get?_insert, alike other inside]
  · refine MemoryLedger.get?_insert_of_ne later ?_ artifact
    rintro rfl
    exact foreign mine

/-- **A ledger operation within a footprint** does not notice what is outside, and leaves it
alone. -/
theorem answer_alike {op : Ledger.Op} (within : Within seen own (.ledger op))
    (alike : Alike seen ledger later) :
    (later.answer op).1 = (ledger.answer op).1 ∧
      Alike seen (ledger.answer op).2 (later.answer op).2 ∧
      Alike (fun key => ¬ own key) later (later.answer op).2 := by
  have unchanged := Alike.refl (fun key => ¬ own key) later
  cases op with
  | contains key => exact ⟨by simp [MemoryLedger.answer, alike key within], alike, unchanged⟩
  | get key =>
    exact ⟨by simp [MemoryLedger.answer, MemoryLedger.get, alike key within], alike, unchanged⟩
  | keys =>
    have filled (ledger : MemoryLedger) (key : Key) :
        key ∈ ledger.entries.map Prod.fst ↔ (ledger.get? key).isSome :=
      KeySet.mem_ofList.symm.trans MemoryLedger.mem_keys
    refine ⟨congrArg Except.ok (KeySet.ofList_congr fun key => ?_), alike, unchanged⟩
    rw [filled, filled, alike key (within key)]
  | put key artifact =>
    cases fit : artifact.fits key with
    | false =>
      rw [MemoryLedger.answer_put_of_misfit fit, MemoryLedger.answer_put_of_misfit fit]
      exact ⟨rfl, alike, unchanged⟩
    | true =>
      cases held : ledger.get? key with
      | some artifact =>
        rw [MemoryLedger.answer_put_of_some fit held,
          MemoryLedger.answer_put_of_some fit ((alike key within.1).trans held)]
        exact ⟨rfl, alike, unchanged⟩
      | none =>
        rw [MemoryLedger.answer_put_of_none fit held,
          MemoryLedger.answer_put_of_none fit ((alike key within.1).trans held)]
        exact ⟨rfl, alike_insert alike within.2 artifact⟩
  | overwrite key artifact =>
    cases fit : artifact.fits key with
    | false =>
      rw [MemoryLedger.answer_overwrite_of_misfit fit,
        MemoryLedger.answer_overwrite_of_misfit fit]
      exact ⟨rfl, alike, unchanged⟩
    | true =>
      rw [MemoryLedger.answer_overwrite fit, MemoryLedger.answer_overwrite fit]
      exact ⟨rfl, alike_insert alike within.2 artifact⟩

/-! ### Parts of a run within their footprints -/

/-- **What a part of a run must be allowed to ask** is within the footprint that it says it has. -/
theorem permits_within (run : Run) (visible : ∀ key, own key → seen key) :
    run.Permits seen own (Within seen own) where
  contains _ := id
  get _ := id
  codec _ := trivial
  overwrite _ key mine _ := ⟨visible key mine, mine⟩
  put _ key mine _ := ⟨visible key mine, mine⟩

/-- What a task of a barrier stage looks at: slots of its own, and slots of other stages. -/
def SeenBy (stage : Stage) (chunk : ChunkIndex) (key : Key) : Prop :=
  key ∈ stage.outputs chunk ∨ key.kind.stage ≠ stage

/-- A barrier stage reads what other stages have stored. -/
theorem covers_seenBy {stage : Stage} (barrier : stage.isSerial = false) (chunk : ChunkIndex) :
    Covers (SeenBy stage chunk) (· ∈ stage.outputs chunk) stage chunk where
  reads key read := by
    refine .inr ?_
    cases stage <;> cases chunk <;> simp_all [Stage.inputs, Stage.isSerial]
    all_goals rcases read with rfl | rfl <;> simp [Kind.stage]
  looks _ := .inl
  fills _ := id

/-- **A task of a barrier stage** fills slots of its own and looks at no slot that another task of
the stage fills. -/
theorem within_barrierTask (stage : Stage) (chunk : ChunkIndex) :
    (run.barrierTask stage chunk).Asks
      (Within (SeenBy stage chunk) (· ∈ stage.outputs chunk)) := by
  have permits : run.Permits (SeenBy stage chunk) (· ∈ stage.outputs chunk) (Within _ _) :=
    permits_within run fun _ => .inl
  cases serial : stage.isSerial with
  | false => exact permits.barrierTask (covers_seenBy serial chunk)
  | true =>
    -- The serial stages have no such tasks: once these have looked for their outputs, they fail.
    refine permits.unlessStored (fun _ => .inl) trivial ?_
    cases stage <;> trivial

end Transcode.Run
