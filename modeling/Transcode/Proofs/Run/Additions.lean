/-
**Runs that only add.** A run that may not overwrite fills empty slots and leaves the others as they
are, whatever the codec does.

* `additions` is the conduct of a part of a run that fills empty slots of its own, and to which the
  slots reserved for it stay as they are.
* `Job.OnlyAdds` holds of jobs that keep to it; `onlyAdds_compute` says so of the tasks of the
  barrier stages.
* A resumed run looks at the slots that are there (`adds_canSkip`), so what it is going to do about
  a chunk can be foreseen.
-/
import Transcode.Proofs.Ledger.Memory
import Transcode.Proofs.Run.Job
import Transcode.Proofs.Run.Serves
import Transcode.Run.Coordinator

namespace Transcode.Run

variable {α β : Type}

/-- Filling empty slots of one's own. -/
def additions (own reserved : Key → Prop) : Conduct MemoryLedger where
  rely ledger later := ∀ key, reserved key → later.get? key = ledger.get? key
  guarantee ledger later := ∀ key,
    later.get? key = ledger.get? key ∨ (own key ∧ ledger.get? key = none)
  rely_refl _ _ _ := rfl
  rely_trans first second key mine := (second key mine).trans (first key mine)
  guarantee_refl _ _ := .inl rfl

theorem within_additions {own reserved wider larger : Key → Prop}
    (owned : ∀ key, own key → wider key) (kept : ∀ key, reserved key → larger key) :
    (additions own reserved).Within (additions wider larger) where
  rely allowed key mine := allowed key (kept key mine)
  guarantee guaranteed key := (guaranteed key).imp_right (And.imp_left (owned key))

/-- What is stored stays. -/
theorem within_of_additions {own reserved : Key → Prop} {ledger state later : MemoryLedger}
    (kept : (additions own reserved).guarantee state later) (before : ledger.Within state.get?) :
    ledger.Within later.get? := by
  intro key artifact held
  rcases kept key with same | ⟨-, absent⟩
  · rw [same]
    exact before key artifact held
  · rw [before key artifact held] at absent
    cases absent

/-- Codec calls may be answered in any way. -/
def AnyAnswer (call : Codec.Call) (_ : call.Answer) : Prop :=
  True

namespace Job

/-- What a job that only adds promises of its value. -/
abbrev Adds (own reserved : Key → Prop) (statement : α → MemoryLedger → Prop) (job : Job α)
    (ledger : MemoryLedger) : Prop :=
  job.Ensures (Serves AnyAnswer) (additions own reserved) statement (fun _ _ => True) ledger

/-- The job only adds. -/
def OnlyAdds (own reserved : Key → Prop) (job : Job α) : Prop :=
  ∀ ledger, job.Adds own reserved (fun _ _ => True) ledger

variable {own reserved : Key → Prop}

/-- A job that only adds, and then another. -/
theorem OnlyAdds.andThen {job : Job α} {after : α → Job β} {statement : β → MemoryLedger → Prop}
    (onlyAdds : job.OnlyAdds own reserved)
    (adds : ∀ value ledger, (after value).Adds own reserved statement ledger)
    (ledger : MemoryLedger) : (job >>= after).Adds own reserved statement ledger :=
  Ensures.andThen (onlyAdds ledger) fun value later _ => adds value later

theorem OnlyAdds.bind {job : Job α} {after : α → Job β} (onlyAdds : job.OnlyAdds own reserved)
    (rest : ∀ value, (after value).OnlyAdds own reserved) :
    (job >>= after).OnlyAdds own reserved :=
  onlyAdds.andThen rest

theorem onlyAdds_ofExcept (result : Except RunError α) :
    (ofExcept result).OnlyAdds own reserved := by
  intro ledger later _
  cases result <;> trivial

theorem onlyAdds_pure (value : α) : (pure value : Job α).OnlyAdds own reserved :=
  onlyAdds_ofExcept (.ok value)

theorem onlyAdds_throw (error : RunError) : (throw error : Job α).OnlyAdds own reserved :=
  onlyAdds_ofExcept (.error error)

theorem onlyAdds_interpret {op : Ledger.Op}
    (adds : ∀ ledger, (additions own reserved).guarantee ledger (MemoryLedger.answer ledger op).2)
    (read : op.Answer → Except RunError α) : (interpret op read).OnlyAdds own reserved := by
  intro ledger
  refine ensures_interpret fun later _ service serves => ⟨?_, fun final _ => ?_⟩
  · rw [serves.change]
    exact adds later
  · cases read (service.reply (.ledger op) later).answer <;> trivial

theorem onlyAdds_codec (call : Codec.Call) (blame : CodecError → RunError) :
    (codec call blame).OnlyAdds own reserved := by
  intro ledger
  refine ensures_codec fun later _ service serves => ⟨?_, fun final _ => ?_⟩
  · rw [serves.quiet]
    exact (additions own reserved).guarantee_refl later
  · cases ((service.reply (.codec call) later).answer : call.Answer) <;> trivial

end Job

variable {own reserved : Key → Prop} {run : Run}

/-- Where nobody else is at work, the slots of others stay as they are. -/
theorem Job.Ensures.framed {statement : α → MemoryLedger → Prop} {job : Job α}
    {ledger : MemoryLedger} (adds : job.Adds own (fun _ => True) statement ledger) :
    job.Adds own (fun _ => True) (fun value later => statement value later ∧
      ∀ key, ¬ own key → later.get? key = ledger.get? key) ledger := by
  refine adds.and_always (fun allowed before key other => ?_) (fun kept before key other => ?_)
    fun key _ => rfl
  · exact (allowed key trivial).trans (before key other)
  · exact ((kept key).resolve_right fun changed => other changed.1).trans (before key other)

/-- A job that only adds to part of the slots, and then another. -/
theorem Job.Adds.andThen {part : Key → Prop} {statement : α → MemoryLedger → Prop}
    {further : β → MemoryLedger → Prop} {job : Job α} {after : α → Job β} {ledger : MemoryLedger}
    (adds : job.Adds part (fun _ => True) statement ledger) (owned : ∀ key, part key → own key)
    (onward : ∀ value later, statement value later →
      (∀ key, ¬ part key → later.get? key = ledger.get? key) →
      (after value).Adds own (fun _ => True) further later) :
    (job >>= after).Adds own (fun _ => True) further ledger := by
  have framed : job.Adds _ _ _ ledger := Job.Ensures.framed adds
  refine Job.Ensures.andThen (framed.within (within_additions owned fun _ => id)) ?_
  exact fun value later ⟨holds, others⟩ => onward value later holds others

/-- What a plan that only adds promises of its value and the requests made. -/
abbrev Plan.Adds (own : Key → Prop)
    (statement : α → MemoryLedger → List (Exchange interface) → Prop) (plan : Plan α)
    (ledger : MemoryLedger) : Prop :=
  plan.Ensures (serving AnyAnswer) (additions own fun _ => True) statement (fun _ _ => True) ledger

theorem Plan.Ensures.framed {statement : α → MemoryLedger → List (Exchange interface) → Prop}
    {plan : Plan α} {ledger : MemoryLedger} (adds : plan.Adds own statement ledger) :
    plan.Adds own (fun value later trace => statement value later trace ∧
      ∀ key, ¬ own key → later.get? key = ledger.get? key) ledger := by
  refine adds.and_always (fun allowed before key other => ?_) (fun kept before key other => ?_)
    fun key _ => rfl
  · exact (allowed key trivial).trans (before key other)
  · exact ((kept key).resolve_right fun changed => other changed.1).trans (before key other)

/-- A plan that only adds to part of the slots, and then another. -/
theorem Plan.Adds.andThen {part : Key → Prop}
    {statement : α → MemoryLedger → List (Exchange interface) → Prop}
    {further : β → MemoryLedger → List (Exchange interface) → Prop} {plan : Plan α}
    {after : α → Plan β} {ledger : MemoryLedger} (adds : plan.Adds part statement ledger)
    (owned : ∀ key, part key → own key)
    (onward : ∀ value later trace, statement value later trace →
      (∀ key, ¬ part key → later.get? key = ledger.get? key) →
      (after value).Adds own (fun result final more => further result final (trace ++ more))
        later) :
    (plan >>= after).Adds own further ledger := by
  have framed : plan.Adds _ _ ledger := Plan.Ensures.framed adds
  refine Plan.Ensures.bind (fun _ _ _ _ _ => trivial)
    ((framed.within (within_additions owned fun _ => id)).mono ?_ fun _ _ => id)
  exact fun value later trace ⟨holds, others⟩ => onward value later trace holds others

/-- A look at the cancellation token, before a plan that only adds. -/
theorem Plan.adds_checkCancelled {stage : Stage}
    {further : α → MemoryLedger → List (Exchange interface) → Prop} {plan : Plan α}
    {ledger : MemoryLedger}
    (onward : ∀ later, (∀ key, later.get? key = ledger.get? key) →
      plan.Adds own further later) :
    (Plan.checkCancelled stage >>= fun _ => plan).Adds own further ledger := by
  refine Plan.Ensures.bind (fun _ _ _ _ _ => trivial) (Plan.ensures_checkCancelled
    (fun later begun => ?_) fun _ _ _ => trivial)
  exact onward later fun key => begun key trivial

theorem onlyAdds_bitstream (chunk : ChunkIndex) (kind : Kind) :
    (bitstream chunk kind).OnlyAdds own reserved :=
  (Job.onlyAdds_interpret (additions own reserved).guarantee_refl _).bind fun _ =>
    Job.onlyAdds_ofExcept _

theorem onlyAdds_state (chunk : ChunkIndex) (kind : Kind) :
    (state chunk kind).OnlyAdds own reserved :=
  (Job.onlyAdds_interpret (additions own reserved).guarantee_refl _).bind fun _ =>
    Job.onlyAdds_ofExcept _

/-- A slot is filled by `put` only if it is empty. -/
theorem guarantee_put {key : Key} (mine : own key) (artifact : Artifact) (ledger : MemoryLedger) :
    (additions own reserved).guarantee ledger (ledger.answer (.put key artifact)).2 := by
  cases fit : artifact.fits key with
  | false =>
    rw [MemoryLedger.answer_put_of_misfit fit]
    exact (additions own reserved).guarantee_refl ledger
  | true =>
    cases held : ledger.get? key with
    | none =>
      rw [MemoryLedger.answer_put_of_none fit held]
      intro other
      by_cases same : other = key
      · exact .inr ⟨same ▸ mine, same ▸ held⟩
      · exact .inl (MemoryLedger.get?_insert_of_ne ledger same artifact)
    | some artifact =>
      rw [MemoryLedger.answer_put_of_some fit held]
      exact (additions own reserved).guarantee_refl ledger

theorem onlyAdds_store (adding : run.policy ≠ .overwrite) {key : Key} (mine : own key)
    (artifact : Artifact) : (run.store key artifact).OnlyAdds own reserved := by
  unfold store
  split
  · next policy => exact absurd policy adding
  · exact Job.onlyAdds_interpret (guarantee_put mine artifact) _
  · exact Job.onlyAdds_interpret (guarantee_put mine artifact) _

theorem onlyAdds_storeLineage (adding : run.policy ≠ .overwrite) {lineage : Lineage}
    {chunk : ChunkIndex} (stream : own ⟨chunk, lineage.stream⟩)
    (state : own ⟨chunk, lineage.state⟩) (encoded : Encoded) :
    (run.storeLineage lineage chunk encoded).OnlyAdds own reserved :=
  (onlyAdds_store adding stream _).bind fun _ => onlyAdds_store adding state _

theorem onlyAdds_encodeLineage (adding : run.policy ≠ .overwrite) {lineage : Lineage}
    {chunk : ChunkIndex} (stream : own ⟨chunk, lineage.stream⟩)
    (state : own ⟨chunk, lineage.state⟩) :
    (run.encodeLineage lineage chunk).OnlyAdds own reserved := by
  cases chunk with
  | zero =>
    exact (onlyAdds_bitstream _ _).bind fun _ => (onlyAdds_state _ _).bind fun _ =>
      onlyAdds_storeLineage adding stream state _
  | succ previous =>
    exact (onlyAdds_state _ _).bind fun _ => (onlyAdds_bitstream _ _).bind fun _ =>
      (Job.onlyAdds_ofExcept _).bind fun _ => (Job.onlyAdds_codec _ _).bind fun _ =>
        onlyAdds_storeLineage adding stream state _

/-- **What a task of a barrier stage computes, it adds** to its own slots. -/
theorem onlyAdds_compute (adding : run.policy ≠ .overwrite) {stage : Stage} {chunk : ChunkIndex}
    (owned : ∀ key ∈ stage.outputs chunk, own key) :
    (run.compute stage chunk).OnlyAdds own reserved := by
  cases stage with
  | baselineEncode =>
    exact (Job.onlyAdds_ofExcept _).bind fun _ => (Job.onlyAdds_codec _ _).bind fun _ =>
      onlyAdds_store adding (owned _ (by simp [Stage.outputs])) _
  | stateExtraction =>
    exact (onlyAdds_bitstream _ _).bind fun _ => (Job.onlyAdds_codec _ _).bind fun _ =>
      onlyAdds_store adding (owned _ (by simp [Stage.outputs])) _
  | encodeGivenStateV0 =>
    exact onlyAdds_encodeLineage adding (owned _ (by simp [Stage.outputs, Lineage.v0]))
      (owned _ (by simp [Stage.outputs, Lineage.v0]))
  | encodeGivenStateV1 =>
    exact onlyAdds_encodeLineage adding (owned _ (by simp [Stage.outputs, Lineage.v1]))
      (owned _ (by simp [Stage.outputs, Lineage.v1]))
  | rebase => exact Job.onlyAdds_throw _
  | merge => exact Job.onlyAdds_throw _

/-! ### Looking before adding -/

/-- A resumed run looks whether all of the slots are filled. -/
theorem adds_canSkip (resumes : run.policy = .resume) {keys : List Key}
    (kept : ∀ key ∈ keys, reserved key) {statement : Bool → MemoryLedger → Prop}
    {ledger : MemoryLedger}
    (holds : ∀ later, (additions own reserved).rely ledger later →
      statement (ledger.hasAll keys) later) :
    (run.canSkip keys).Adds own reserved statement ledger := by
  unfold canSkip
  rw [if_pos resumes]
  induction keys generalizing ledger with
  | nil => exact Job.ensures_pure holds
  | cons key rest ih =>
    have others : ∀ other ∈ rest, reserved other := fun other member =>
      kept other (List.mem_cons_of_mem _ member)
    refine Job.Ensures.bind (Job.ensures_interpret fun later allowed service serves => ?_)
    rw [serves.change, serves.ledger]
    refine ⟨(additions own reserved).guarantee_refl later, fun final more => ?_⟩
    have onward := (additions own reserved).rely_trans allowed more
    show Job.Ensures _ _ statement _
      (if (later.get? key).isSome then allStored rest else pure false) final
    rw [allowed key (kept key List.mem_cons_self)]
    cases found : (ledger.get? key).isSome with
    | false =>
      refine Job.ensures_pure fun last again => ?_
      have result := holds last ((additions own reserved).rely_trans onward again)
      rwa [MemoryLedger.hasAll, List.all_cons, found] at result
    | true =>
      refine ih others fun last again => ?_
      have result := holds last ((additions own reserved).rely_trans onward again)
      rw [MemoryLedger.hasAll, List.all_cons, found, Bool.true_and, ← MemoryLedger.hasAll] at result
      rwa [MemoryLedger.hasAll_congr fun other member => onward other (others other member)]

end Transcode.Run
