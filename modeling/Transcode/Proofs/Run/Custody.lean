/-
**Nothing that was seen in the ledger is missed later**, whatever kind of ledger it is, as long as
all who use it leave in place what can be read.

* `Custody` says what that takes of the services and of all who use the ledger at the same time. In
  an exact ledger, moreover, whatever it says it has can be read.
* `Job.Secures` holds of a job that never fails for an empty slot, and says which slots can be read
  once it is over.
* `secures_barrierTask` — the task of a chunk whose inputs can be read never misses one, and in an
  exact ledger its outputs can be read afterwards; `secures_seed` and `secures_extend` say so of the
  chain.
* `Custody.ended_isFound` and `secures_pool` — what this means for a barrier stage.
-/
import Transcode.Proofs.Run.Barriers

namespace Transcode

/-- The error does not say that a slot is empty. -/
def RunError.IsFound (error : RunError) : Prop :=
  ∀ key, error ≠ .notFound key

theorem RunError.isFound_ofLedger {error : LedgerError} (found : ∀ key, error ≠ .notFound key) :
    (ofLedger error).IsFound := by
  cases error with
  | notFound key => exact absurd rfl (found key)
  | _ => exact fun key same => by cases same

theorem RunError.isFound_ofCodec (chunk : ChunkIndex) (stage : Stage) (cause : CodecError) :
    (ofCodec chunk stage cause).IsFound := by
  unfold ofCodec
  split <;> exact nofun

namespace Run

variable {σ α β : Type}

/-- A failed ledger operation that reports no empty slot. -/
theorem isFound_of_mapError {answer : Except LedgerError α} {error : RunError}
    (found : ∀ key, answer ≠ .error (.notFound key))
    (failed : answer.mapError RunError.ofLedger = .error error) : error.IsFound := by
  cases answer with
  | ok value => cases failed
  | error cause =>
    cases failed
    exact RunError.isFound_ofLedger fun key same => found key (congrArg Except.error same)

theorem eq_ok_of_mapError {answer : Except LedgerError α} {value : α}
    (fine : answer.mapError RunError.ofLedger = .ok value) : answer = .ok value := by
  cases answer with
  | ok other => exact congrArg Except.ok (Except.ok.inj fine)
  | error cause => cases fine

/-! ### Custody -/

/-- **All who use the ledger leave in place what is held**, and the ledger reports no slot as empty
that is held. An exact ledger has nothing else: what it says it has, and what was put there, is
held. -/
structure Custody (services : Service interface σ → Prop) (conduct : Conduct σ)
    (held : Key → σ → Prop) (exact : Prop) : Prop where
  stays : ∀ {state later : σ}, conduct.rely state later → ∀ key, held key state → held key later
  relies : ∀ {state later : σ}, conduct.guarantee state later → conduct.rely state later
  keeps : ∀ {service : Service interface σ}, services service → ∀ request state,
    conduct.guarantee state (service.reply request state).state
  found : ∀ {service : Service interface σ}, services service → ∀ {op : Ledger.Op} {state : σ}
    {slot : Key}, ((service.reply (.ledger op) state).answer : op.Answer) =
      .error (.notFound slot) → ∃ key, op = .get key ∧ ¬ held key state
  shows : exact → ∀ {service : Service interface σ}, services service → ∀ {key : Key} {state : σ},
    ((service.reply (.ledger (.contains key)) state).answer : Except LedgerError Bool) =
      .ok true → held key state
  puts : exact → ∀ {service : Service interface σ}, services service → ∀ {key : Key}
    {artifact : Artifact} {state : σ},
    ((service.reply (.ledger (.put key artifact)) state).answer : Except LedgerError Unit) =
        .ok () ∨
      (∃ slot, ((service.reply (.ledger (.put key artifact)) state).answer :
        Except LedgerError Unit) = .error (.duplicateKey slot)) →
      held key (service.reply (.ledger (.put key artifact)) state).state
  overwrites : exact → ∀ {service : Service interface σ}, services service → ∀ {key : Key}
    {artifact : Artifact} {state : σ},
    ((service.reply (.ledger (.overwrite key artifact)) state).answer : Except LedgerError Unit) =
        .ok () →
      held key (service.reply (.ledger (.overwrite key artifact)) state).state

/-- **A job that never fails for an empty slot**; once it is over, the slots that its value tells
are held. -/
abbrev Job.Secures (services : Service interface σ → Prop) (conduct : Conduct σ)
    (held : Key → σ → Prop) (keys : α → Key → Prop) (job : Job α) (state : σ) : Prop :=
  job.Ensures services conduct (fun value later => ∀ key, keys value key → held key later)
    (fun error _ => error.IsFound) state

/-- A plan that never fails for an empty slot. -/
abbrev Plan.Secures (setting : Setting interface σ) (conduct : Conduct σ) (held : Key → σ → Prop)
    (keys : α → Key → Prop) (plan : Plan α) (state : σ) : Prop :=
  plan.Ensures setting conduct (fun value later _ => ∀ key, keys value key → held key later)
    (fun error _ => error.IsFound) state

variable {services : Service interface σ → Prop} {conduct : Conduct σ} {held : Key → σ → Prop}
  {exact : Prop} {required : Key → Prop} {run : Run} {state : σ}

theorem Job.Secures.mono {keys fewer : α → Key → Prop} {job : Job α}
    (secures : job.Secures services conduct held keys state)
    (within : ∀ value key, fewer value key → keys value key) :
    job.Secures services conduct held fewer state :=
  Job.Ensures.mono secures (fun value _ all key mine => all key (within value key mine))
    fun _ _ => id

theorem Job.Secures.andThen {keys : α → Key → Prop} {further : β → Key → Prop} {job : Job α}
    {after : α → Job β} (secures : job.Secures services conduct held keys state)
    (onward : ∀ value later, (∀ key, keys value key → held key later) →
      (after value).Secures services conduct held further later) :
    (job >>= after).Secures services conduct held further state :=
  Job.Ensures.andThen secures onward

section Custody

variable (custody : Custody services conduct held exact)
include custody

/-- Tasks that leave in place what is held may work side by side. -/
theorem Custody.compatible (chunks : List ChunkIndex) :
    conduct.Compatible (fun _ => conduct) chunks :=
  ⟨fun _ _ => ⟨id, id⟩, fun _ _ _ _ _ => custody.relies⟩

/-- An answer leaves in place what is held. -/
theorem Custody.step {service : Service interface σ} (serves : services service)
    (request : Request) {key : Key} (here : held key state) :
    held key (service.reply request state).state :=
  custody.stays (custody.relies (custody.keeps serves request state)) key here

/-- An operation that reads nothing but what is held. -/
theorem Custody.isFound {service : Service interface σ} (serves : services service)
    {op : Ledger.Op} (reads : ∀ key, op = .get key → held key state) {error : RunError}
    (failed : ((service.reply (.ledger op) state).answer : op.Answer).mapError RunError.ofLedger =
      .error error) : error.IsFound := by
  refine isFound_of_mapError (fun slot missing => ?_) failed
  obtain ⟨key, rfl, absent⟩ := custody.found serves missing
  exact absent (reads key rfl)

/-! ### Single actions -/

theorem secures_pure {keys : α → Key → Prop} {value : α}
    (kept : ∀ key, keys value key → held key state) :
    (pure value : Job α).Secures services conduct held keys state :=
  Job.ensures_pure fun _ allowed key told => custody.stays allowed key (kept key told)

variable (kept : ∀ key, required key → held key state)
include kept

theorem secures_ofExcept {result : Except RunError α}
    (found : ∀ error, result = .error error → error.IsFound) :
    (Job.ofExcept result).Secures services conduct held (fun _ => required) state := by
  intro later allowed
  cases result with
  | ok value => exact fun key needed => custody.stays allowed key (kept key needed)
  | error error => exact found error rfl

theorem secures_codec {call : Codec.Call} {blame : CodecError → RunError}
    (found : ∀ cause, (blame cause).IsFound) :
    (Job.codec call blame).Secures services conduct held (fun _ => required) state := by
  refine Job.ensures_codec fun later allowed service serves =>
    ⟨custody.keeps serves _ later, fun final more => ?_⟩
  cases ((service.reply (.codec call) later).answer : call.Answer) with
  | ok value =>
    exact fun key needed => custody.stays more key
      (custody.step serves _ (custody.stays allowed key (kept key needed)))
  | error cause => exact found cause

/-- An operation that reports no empty slot, and after which some more slots are held. -/
theorem secures_interpret {op : Ledger.Op} {read : op.Answer → Except RunError α}
    (more : α → Key → Prop)
    (found : ∀ later, (∀ key, required key → held key later) → ∀ service, services service →
      ∀ error, read (service.reply (.ledger op) later).answer = .error error → error.IsFound)
    (gained : ∀ later service, services service → ∀ value,
      read (service.reply (.ledger op) later).answer = .ok value →
        ∀ key, more value key → held key (service.reply (.ledger op) later).state) :
    (Job.interpret op read).Secures services conduct held
      (fun value key => required key ∨ more value key) state := by
  refine Job.ensures_interpret fun later allowed service serves =>
    ⟨custody.keeps serves _ later, fun final others => ?_⟩
  have before (key : Key) (needed : required key) : held key later :=
    custody.stays allowed key (kept key needed)
  cases result : read (service.reply (.ledger op) later).answer with
  | ok value =>
    rintro key (needed | new)
    · exact custody.stays others key (custody.step serves _ (before key needed))
    · exact custody.stays others key (gained later service serves value result key new)
  | error error => exact found later before service serves error result

theorem secures_contains (key : Key) :
    (Job.ledger (.contains key)).Secures services conduct held
      (fun seen other => required other ∨ (exact ∧ seen = true ∧ other = key)) state := by
  refine secures_interpret custody kept _ (fun later _ service serves error failed => ?_) ?_
  · exact custody.isFound serves (fun _ same => by cases same) failed
  · rintro later service serves seen fine other ⟨all, rfl, rfl⟩
    exact custody.step serves _ (custody.shows all serves (eq_ok_of_mapError fine))

theorem secures_get {key : Key} (needed : required key) :
    (Job.ledger (.get key)).Secures services conduct held (fun _ => required) state := by
  refine Job.Secures.mono (secures_interpret custody kept (fun _ _ => False)
    (fun later before service serves error failed => ?_) fun _ _ _ _ _ _ => False.elim)
    fun _ _ => .inl
  refine custody.isFound serves ?_ failed
  rintro _ ⟨⟩
  exact before key needed

theorem secures_bitstream {chunk : ChunkIndex} {kind : Kind} (needed : required ⟨chunk, kind⟩) :
    (bitstream chunk kind).Secures services conduct held (fun _ => required) state := by
  refine (secures_get custody kept needed).andThen fun artifact later kept => ?_
  refine secures_ofExcept custody kept fun error failed => ?_
  cases artifact <;> cases failed
  exact fun key same => by cases same

theorem secures_state {chunk : ChunkIndex} {kind : Kind} (needed : required ⟨chunk, kind⟩) :
    (Run.state chunk kind).Secures services conduct held (fun _ => required) state := by
  refine (secures_get custody kept needed).andThen fun artifact later kept => ?_
  refine secures_ofExcept custody kept fun error failed => ?_
  cases artifact <;> cases failed
  exact fun key same => by cases same

theorem secures_raw (chunk : ChunkIndex) :
    (Job.ofExcept (run.raw chunk)).Secures services conduct held (fun _ => required) state := by
  refine secures_ofExcept custody kept fun error failed => ?_
  unfold raw at failed
  split at failed <;> cases failed
  exact fun key same => by cases same

/-- In an exact ledger, what is seen to be there is held. -/
theorem secures_allStored (keys : List Key) :
    (allStored keys).Secures services conduct held
      (fun all other => required other ∨ (exact ∧ all = true ∧ other ∈ keys)) state := by
  induction keys generalizing required state with
  | nil => exact secures_pure custody fun other told => kept other (by simpa using told)
  | cons key rest ih =>
    refine (secures_contains custody kept key).andThen fun seen later kept => ?_
    cases seen with
    | false =>
      exact secures_pure custody fun other told => kept other (told.imp_right fun never => by
        cases never.2.1)
    | true =>
      refine (ih kept).mono fun all other told => ?_
      rcases told with needed | ⟨exactly, rfl, member⟩
      · exact .inl (.inl needed)
      · rcases List.mem_cons.mp member with rfl | member
        · exact .inl (.inr ⟨exactly, rfl, rfl⟩)
        · exact .inr ⟨exactly, rfl, member⟩

theorem secures_canSkip (keys : List Key) :
    (run.canSkip keys).Secures services conduct held
      (fun skips other => required other ∨ (exact ∧ skips = true ∧ other ∈ keys)) state := by
  unfold canSkip
  split
  · exact secures_allStored custody kept keys
  · exact secures_pure custody fun other told => kept other (told.resolve_right fun never => by
      cases never.2.1)

/-- An artifact is put into its slot, or another is there. -/
theorem secures_put {key : Key} {artifact : Artifact}
    {read : (Ledger.Op.put key artifact).Answer → Except RunError Unit}
    (fine : ∀ answer, read answer = .ok () →
      answer = .ok () ∨ ∃ slot, answer = .error (.duplicateKey slot))
    (fails : ∀ answer error, read answer = .error error →
      answer.mapError RunError.ofLedger = .error error) :
    (Job.interpret (.put key artifact) read).Secures services conduct held
      (fun _ other => required other ∨ (exact ∧ other = key)) state := by
  refine secures_interpret custody kept _ (fun later _ service serves error failed => ?_) ?_
  · exact custody.isFound serves (fun _ same => by cases same) (fails _ _ failed)
  · rintro later service serves _ stored other ⟨exactly, rfl⟩
    exact custody.puts exactly serves (fine _ stored)

/-- **Whatever the policy**, in an exact ledger a slot is held once it is stored. -/
theorem secures_store (key : Key) (artifact : Artifact) :
    (run.store key artifact).Secures services conduct held
      (fun _ other => required other ∨ (exact ∧ other = key)) state := by
  unfold store
  split
  · refine secures_interpret custody kept _ (fun later _ service serves error failed => ?_) ?_
    · exact custody.isFound serves (fun _ same => by cases same) failed
    · rintro later service serves _ stored other ⟨exactly, rfl⟩
      exact custody.overwrites exactly serves (eq_ok_of_mapError stored)
  · exact secures_put custody kept (fun _ stored => .inl (eq_ok_of_mapError stored))
      fun _ _ => id
  · refine secures_put custody kept (fun answer stored => ?_) fun answer error failed => ?_
    · split at stored
      · exact .inr ⟨_, rfl⟩
      · exact .inl (eq_ok_of_mapError stored)
    · split at failed
      · cases failed
      · exact failed

/-! ### Barrier tasks -/

theorem secures_storeLineage (lineage : Lineage) (chunk : ChunkIndex) (encoded : Encoded) :
    (run.storeLineage lineage chunk encoded).Secures services conduct held
      (fun _ other => required other ∨
        (exact ∧ other ∈ [(⟨chunk, lineage.stream⟩ : Key), ⟨chunk, lineage.state⟩])) state := by
  refine (secures_store custody kept _ _).andThen fun _ later kept => ?_
  refine (secures_store custody kept _ _).mono fun _ other told => ?_
  simp only [List.mem_cons, List.not_mem_nil, or_false] at told
  tauto

theorem secures_encodeLineage {lineage : Lineage} (proper : lineage = .v0 ∨ lineage = .v1)
    {chunk : ChunkIndex} (needed : ∀ key ∈ lineage.stage.inputs chunk, required key) :
    (run.encodeLineage lineage chunk).Secures services conduct held
      (fun _ other => required other ∨ (exact ∧ other ∈ lineage.stage.outputs chunk)) state := by
  have outputs : lineage.stage.outputs chunk =
      [⟨chunk, lineage.stream⟩, ⟨chunk, lineage.state⟩] := by
    rcases proper with rfl | rfl <;> rfl
  have inputs : lineage.stage.inputs chunk = match chunk with
      | 0 => [⟨0, .baseline⟩, ⟨0, .decodeState⟩]
      | previous + 1 => [⟨previous, lineage.predecessor⟩, ⟨previous + 1, .baseline⟩] := by
    rcases proper with rfl | rfl <;> cases chunk <;> rfl
  rw [inputs] at needed
  rw [outputs]
  cases chunk with
  | zero =>
    refine (secures_bitstream custody kept (needed _ (by simp))).andThen fun _ _ kept => ?_
    refine (secures_state custody kept (needed _ (by simp))).andThen fun _ _ kept => ?_
    exact secures_storeLineage custody kept _ _ _
  | succ previous =>
    refine (secures_state custody kept (needed _ (by simp))).andThen fun _ _ kept => ?_
    refine (secures_bitstream custody kept (needed _ (by simp))).andThen fun _ _ kept => ?_
    refine (secures_raw custody kept _).andThen fun _ _ kept => ?_
    refine (secures_codec custody kept (RunError.isFound_ofCodec _ _)).andThen fun _ _ kept => ?_
    exact secures_storeLineage custody kept _ _ _

theorem secures_compute {stage : Stage} {chunk : ChunkIndex}
    (needed : ∀ key ∈ stage.inputs chunk, required key) :
    (run.compute stage chunk).Secures services conduct held
      (fun _ other => required other ∨ (exact ∧ other ∈ stage.outputs chunk)) state := by
  cases stage with
  | baselineEncode =>
    refine (secures_raw custody kept chunk).andThen fun _ _ kept => ?_
    refine (secures_codec custody kept (RunError.isFound_ofCodec _ _)).andThen fun _ _ kept => ?_
    refine (secures_store custody kept _ _).mono fun _ other => ?_
    simp [Stage.outputs]
  | stateExtraction =>
    refine (secures_bitstream custody kept (needed _ (by simp [Stage.inputs]))).andThen
      fun _ _ kept => ?_
    refine (secures_codec custody kept (RunError.isFound_ofCodec _ _)).andThen fun _ _ kept => ?_
    refine (secures_store custody kept _ _).mono fun _ other => ?_
    simp [Stage.outputs]
  | encodeGivenStateV0 => exact secures_encodeLineage custody kept (.inl rfl) needed
  | encodeGivenStateV1 => exact secures_encodeLineage custody kept (.inr rfl) needed
  | rebase | merge =>
    intro later allowed key same
    cases same

/-- **The task of a chunk** whose inputs are held never fails for an empty slot. -/
theorem secures_barrierTask {stage : Stage} {chunk : ChunkIndex}
    (needed : ∀ key ∈ stage.inputs chunk, required key) :
    (run.barrierTask stage chunk).Secures services conduct held
      (fun _ other => required other ∨ (exact ∧ other ∈ stage.outputs chunk)) state := by
  refine (secures_canSkip custody kept _).andThen fun skips later kept => ?_
  cases skips with
  | true => exact secures_pure custody fun other told => kept other (told.imp_right fun mine =>
      ⟨mine.1, rfl, mine.2⟩)
  | false =>
    refine (secures_compute custody (fun key needed => kept key (.inl needed)) needed).andThen
      fun _ _ kept => ?_
    exact secures_pure custody kept

/-! ### The chain -/

/-- What is stored last may be forgotten. -/
theorem secures_keep (key : Key) (artifact : Artifact) (value : α) :
    (run.store key artifact >>= fun _ => pure value).Secures services conduct held
      (fun _ => required) state :=
  (secures_store custody kept key artifact).andThen fun _ _ kept =>
    secures_pure custody fun key needed => kept key (.inl needed)

section Chain

variable (exactly : exact)
include exactly

/-- **A task of the chain that looks for its outputs first** can read them if they are there. -/
theorem secures_unlessStored {keys : α → Key → Prop} {outputs : List Key} {stored made : Job α}
    (takes : ∀ later, (∀ key, required key ∨ key ∈ outputs → held key later) →
      stored.Secures services conduct held keys later)
    (makes : ∀ later, (∀ key, required key → held key later) →
      made.Secures services conduct held keys later) :
    (run.canSkip outputs >>= fun skips => if skips then stored else made).Secures services conduct
      held keys state := by
  refine (secures_canSkip custody kept outputs).andThen fun skips later kept => ?_
  cases skips with
  | true => exact takes later fun key told => kept key (told.imp_right fun mine =>
      ⟨exactly, rfl, mine⟩)
  | false => exact makes later fun key needed => kept key (.inl needed)

theorem secures_takeOverState (needed : required ⟨0, .encodeV1State⟩) :
    run.takeOverState.Secures services conduct held (fun _ => required) state := by
  refine secures_unlessStored custody kept exactly (fun later kept => ?_) fun later kept => ?_
  · refine (secures_state custody kept (.inr (List.mem_singleton_self _))).andThen
      fun _ _ kept => ?_
    exact secures_pure custody fun key needed => kept key (.inl needed)
  · refine (secures_state custody kept needed).andThen fun _ _ kept => ?_
    exact secures_keep custody kept _ _ _

theorem secures_takeOverStream (needed : required ⟨0, .encodeV1⟩) :
    run.takeOverStream.Secures services conduct held (fun _ => required) state := by
  refine secures_unlessStored custody kept exactly (fun later kept => ?_) fun later kept => ?_
  · refine (secures_bitstream custody kept (.inr (List.mem_singleton_self _))).andThen
      fun _ _ kept => ?_
    exact secures_pure custody fun key needed => kept key (.inl needed)
  · refine (secures_bitstream custody kept needed).andThen fun _ _ kept => ?_
    exact secures_keep custody kept _ _ _

/-- The chain over the first chunk. -/
theorem secures_seed (needed : ∀ kind ∈ [Kind.encodeV1State, .encodeV1], required ⟨0, kind⟩) :
    run.seed.Secures services conduct held (fun _ => required) state := by
  refine (secures_takeOverState custody kept exactly (needed _ (by simp))).andThen
    fun _ _ kept => ?_
  refine (secures_takeOverStream custody kept exactly (needed _ (by simp))).andThen
    fun _ _ kept => ?_
  exact secures_pure custody kept

theorem secures_rebaseOnto {previous : ChunkIndex} {newState : StateHandle}
    (old : required ⟨previous, .encodeV0State⟩) (stream : required ⟨previous + 1, .encodeV1⟩) :
    (run.rebaseOnto previous newState).Secures services conduct held (fun _ => required) state := by
  refine secures_unlessStored custody kept exactly (fun later kept => ?_) fun later kept => ?_
  · refine (secures_bitstream custody kept (.inr (by simp [Stage.outputs]))).andThen
      fun _ _ kept => ?_
    refine (secures_state custody kept (.inr (by simp [Stage.outputs]))).andThen
      fun _ _ kept => ?_
    exact secures_pure custody fun key needed => kept key (.inl needed)
  · refine (secures_state custody kept old).andThen fun _ _ kept => ?_
    refine (secures_bitstream custody kept stream).andThen fun _ _ kept => ?_
    refine (secures_raw custody kept _).andThen fun _ _ kept => ?_
    refine (secures_codec custody kept fun _ _ same => by cases same).andThen fun _ _ kept => ?_
    refine (secures_store custody kept _ _).andThen fun _ _ kept => ?_
    exact secures_keep custody (fun key needed => kept key (.inl needed)) _ _ _

theorem secures_mergeOnto (chunk : ChunkIndex) (output rebased : Bitstream) :
    (run.mergeOnto chunk output rebased).Secures services conduct held (fun _ => required)
      state := by
  refine secures_unlessStored custody kept exactly (fun later kept => ?_) fun later kept => ?_
  · refine (secures_bitstream custody kept (.inr (List.mem_singleton_self _))).andThen
      fun _ _ kept => ?_
    exact secures_pure custody fun key needed => kept key (.inl needed)
  · refine (secures_codec custody kept fun _ _ same => by cases same).andThen fun _ _ kept => ?_
    exact secures_keep custody kept _ _ _

/-- **The chain over one more chunk** reads, besides what it is handed, what the barrier stages have
left. -/
theorem secures_extend {previous : ChunkIndex} {link : Link}
    (old : required ⟨previous, .encodeV0State⟩) (stream : required ⟨previous + 1, .encodeV1⟩) :
    (run.extend previous link).Secures services conduct held (fun _ => required) state := by
  refine (secures_rebaseOnto custody kept exactly old stream).andThen fun _ _ kept => ?_
  refine (secures_mergeOnto custody kept exactly _ _ _).andThen fun _ _ kept => ?_
  exact secures_pure custody kept

end Chain

end Custody

/-! ### Barrier stages -/

theorem result_ne_notFound {pool : Pool interface}
    (found : ∀ chunk error, (chunk, .failed error) ∈ pool.ended → error.IsFound) (key : Key) :
    pool.result ≠ .error (.notFound key) := by
  intro failed
  rcases Pool.result_eq_error.mp failed with ⟨_, ⟨chunk, ending⟩, _, shape, reason, -⟩ |
    ⟨-, -, same⟩
  · cases ending with
    | finished outcome => cases reason
    | panicked => cases reason
    | failed error => exact found chunk error (by simp [shape]) key (Option.some.inj reason)
  · cases same

section Pools

variable {setting : Setting interface σ} {stage : Stage}
  (custody : Custody setting.services conduct held exact)
  (needed : ∀ key ∈ stage.barrierInputs run.count, required key)
include custody needed

/-- What the tasks of a barrier stage promise whose inputs are held. -/
theorem promises_barrierTask (kept : ∀ key, required key → held key state) :
    ∀ chunk ∈ run.indices, ((run.barrierTask stage chunk).task stage).Ensures setting.services
      conduct (Conclusion stage
        (fun _ later => ∀ key, required key ∨ (exact ∧ key ∈ stage.outputs chunk) → held key later)
        fun error _ => error.IsFound) state := fun chunk member =>
  (secures_barrierTask custody kept fun key read =>
    needed key (Stage.mem_barrierInputs.mpr ⟨chunk, List.mem_range.mp member, read⟩)).task stage

/-- **No task of a barrier stage** over held inputs ever fails for an empty slot. -/
theorem Custody.ended_isFound {world world' : World σ}
    (kept : ∀ key, required key → held key world.state)
    (fires : world.cancelled = true → setting.interruptible) {trace : List (Exchange interface)}
    {flow : Flow interface (Except RunError StageSummary)}
    (path : Flow.Path setting conduct.rely (Flow.ofPool (run.stagePool stage)) world trace flow
      world') :
    ∃ pool, (∀ chunk error, (chunk, .failed error) ∈ pool.ended → error.IsFound) ∧
      (flow = .stage pool .done ∨ flow = .done pool.result) := by
  obtain ⟨traces, pool, account, shape⟩ := path.account_of_pool (custody.compatible run.indices)
    List.nodup_range (promises_barrierTask custody needed kept) fires
  refine ⟨pool, fun chunk error member => ?_, shape.imp_right And.left⟩
  exact (account.ended chunk _ member).1 world'.state (conduct.rely_refl world'.state)

/-- **A barrier stage** over held inputs never fails for an empty slot, and in an exact ledger all
of its outputs are held once it has succeeded. -/
theorem secures_pool (kept : ∀ key, required key → held key state) :
    Plan.Secures setting conduct held
      (fun _ key => required key ∨ (exact ∧ ∃ chunk < run.count, key ∈ stage.outputs chunk))
      (ExceptT.mk (Flow.ofPool (Pool.start stage run.indices fun chunk =>
        (run.barrierTask stage chunk).task stage))) state := by
  let still (later : σ) : Prop := ∀ key, required key → held key later
  have framed : Flow.Ensures setting conduct (fun result later trace => _ ∧ still later)
      (Flow.ofPool (Pool.start stage run.indices fun chunk =>
        (run.barrierTask stage chunk).task stage)) state :=
    Flow.Ensures.and_always (Flow.ensures_ofPool (custody.compatible run.indices)
        List.nodup_range (promises_barrierTask custody needed kept))
      (fun allowed kept key needed => custody.stays allowed key (kept key needed))
      (fun step kept key needed => custody.stays (custody.relies step) key (kept key needed)) kept
  refine framed.mono ?_
  rintro result later trace ⟨⟨traces, pool, account, idle, -, rfl⟩, kept⟩
  have found (chunk : ChunkIndex) (error : RunError)
      (member : (chunk, .failed error) ∈ pool.ended) : error.IsFound := by
    exact (account.ended chunk _ member).1 later (conduct.rely_refl later)
  cases ended : pool.result with
  | error error => exact fun key same => result_ne_notFound found key (same ▸ ended)
  | ok summary =>
    obtain ⟨outcomes, finished, -⟩ := account.finished_of_ok List.nodup_range idle ended
    rintro key (needed | ⟨exactly, chunk, inside, output⟩)
    · exact kept key needed
    · exact (finished chunk (List.mem_range.mpr inside)).1 key (.inr ⟨exactly, output⟩)

end Pools

end Run

end Transcode
