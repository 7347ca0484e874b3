/-
**Cancellation is safe.** Where the codec answers every call, the only thing that can end a run
early is the cancellation token; and whenever it fires, what was begun is finished and nothing else
is begun.

* `Orderly` is what any part of such a run shows once it is over: it has left alone what it does not
  own, and every task that it started has finished and stored its outputs.
* `chronicle_stagePlans` — barrier stages are orderly, and are cut short only by the token.
* `chronicle_chainFrom` — the chain stores the outputs of the chunks before which it found the token
  unfired, and touches no other chunk; `chronicle_gate` counts the look before the chain for the
  first chunk.
* `chronicle_plan` puts the two together, and `winds_up` says what follows from the moment on in
  which the token fires.
-/
import Transcode.Proofs.Run.Completion
import Transcode.Proofs.Run.Unfailing
import Transcode.Proofs.Schedule.Chronicle
import Transcode.Proofs.Schedule.Record

namespace Transcode.Run

open Transcode.Flow (Chronicle)
open Moment

variable {α β : Type} {run : Run} {own : Key → Prop} {world world' : World MemoryLedger}
  {moments : List (Moment interface)} {origin ledger later : MemoryLedger}

/-- Two plans in a row that have come to an end: the first has failed, or the second follows its
value. -/
theorem Plan.chronicle_bind {services : Service interface MemoryLedger → Prop} {plan : Plan α}
    {after : α → Plan β} {result : Except RunError β}
    (chronicle : Chronicle services (plan >>= after).run world moments (.done result) world') :
    (∃ error middle, result = .error error ∧ middle.state = world'.state ∧
        Chronicle services plan.run world moments (.done (.error error)) middle) ∨
      ∃ value middle early late, moments = early ++ late ∧
        Chronicle services plan.run world early (.done (.ok value)) middle ∧
        Chronicle services (after value).run middle late (.done result) world' := by
  obtain ⟨first, middle, early, late, rfl, chronicle, rest⟩ := Chronicle.done_bind chronicle
  cases first with
  | ok value => exact .inr ⟨value, middle, early, late, rfl, chronicle, rest⟩
  | error error =>
    obtain ⟨rfl, same, still⟩ := Chronicle.of_done rest
    cases same
    exact .inl ⟨error, middle, rfl, still.symm, by rwa [List.append_nil]⟩

/-- A plan that has come to its end, and what is made of its value. -/
theorem Plan.chronicle_map {services : Service interface MemoryLedger → Prop} {plan : Plan α}
    {make : α → β} {result : Except RunError β}
    (chronicle : Chronicle services (plan >>= fun value => pure (make value)).run world moments
      (.done result) world') :
    ∃ first middle, result = make <$> first ∧ middle.state = world'.state ∧
      Chronicle services plan.run world moments (.done first) middle := by
  rcases Plan.chronicle_bind chronicle with ⟨error, middle, rfl, still, first⟩ |
    ⟨value, middle, early, late, rfl, first, rest⟩
  · exact ⟨.error error, middle, rfl, still, first⟩
  · obtain ⟨rfl, same, still⟩ := Chronicle.of_done rest
    cases same
    exact ⟨.ok value, middle, rfl, still.symm, by rwa [List.append_nil]⟩

/-- A plan that looks at the token first, and ends at once if it has fired. -/
theorem Plan.chronicle_check {services : Service interface MemoryLedger → Prop} {stage : Stage}
    {after : Unit → Plan α} {result : Except RunError α}
    (chronicle : Chronicle services (Plan.checkCancelled stage >>= after).run world moments
      (.done result) world') :
    (moments = [look true] ∧ result = .error (.cancelled stage) ∧ world'.state = world.state) ∨
      ∃ middle late, moments = look false :: late ∧ middle.state = world.state ∧
        Chronicle services (after ()).run middle late (.done result) world' := by
  obtain ⟨cancelled, middle, late, rfl, same, rest⟩ := Chronicle.of_checkpoint chronicle
  cases cancelled with
  | false => exact .inr ⟨middle, late, rfl, same, rest⟩
  | true =>
    obtain ⟨rfl, ended, still⟩ := Chronicle.of_done rest
    cases ended
    exact .inl ⟨rfl, rfl, still.trans same⟩

/-! ### Parts that are over -/

/-- **What a part of a run shows** that is over. -/
structure Orderly (own : Key → Prop) (moments : List (Moment interface))
    (ledger later : MemoryLedger) : Prop extends Frames own ledger later where
  finishes : ∀ stage chunk, .act (.task stage chunk .start) ∈ moments → ∃ outcome,
    .act (.task stage chunk (.finish (.finished outcome))) ∈ moments ∧
      ∀ key ∈ stage.outputs chunk, later.Has key

theorem orderly_nil (own : Key → Prop) (ledger : MemoryLedger) : Orderly own [] ledger ledger :=
  ⟨.refl own ledger, fun _ _ never => absurd never List.not_mem_nil⟩

theorem orderly_look (own : Key → Prop) (cancelled : Bool) (ledger : MemoryLedger) :
    Orderly own [look cancelled] ledger ledger :=
  ⟨.refl own ledger, fun _ _ never => by cases List.mem_singleton.mp never⟩

theorem Orderly.mono {wider : Key → Prop} (orderly : Orderly own moments ledger later)
    (within : ∀ key, own key → wider key) : Orderly wider moments ledger later where
  keeps := orderly.keeps
  others key other := orderly.others key fun mine => other (within key mine)
  finishes := orderly.finishes

theorem Orderly.append {more : List (Moment interface)} {further wider : Key → Prop}
    {middle : MemoryLedger} (first : Orderly own moments ledger middle)
    (second : Orderly further more middle later)
    (within : ∀ key, own key ∨ further key → wider key) :
    Orderly wider (moments ++ more) ledger later where
  keeps key held := second.keeps key (first.keeps key held)
  others key other := (second.others key fun mine => other (within key (.inr mine))).trans
    (first.others key fun mine => other (within key (.inl mine)))
  finishes stage chunk started := by
    rcases List.mem_append.mp started with early | late
    · obtain ⟨outcome, ended, stored⟩ := first.finishes stage chunk early
      exact ⟨outcome, List.mem_append_left _ ended,
        fun key output => second.keeps key (stored key output)⟩
    · obtain ⟨outcome, ended, stored⟩ := second.finishes stage chunk late
      exact ⟨outcome, List.mem_append_right _ ended, stored⟩

/-- What is done along the chronicle of a run that cannot fail. -/
theorem course_of_chronicle {flow flow' : Flow interface α}
    (chronicle : Chronicle (Serves NeverFails) flow world moments flow' world') :
    Flow.Course (serving NeverFails) Eq flow world (events moments) flow' world' :=
  Chronicle.course trivial chronicle

/-- Whatever a part of a run does not own, it leaves alone. -/
theorem framed_of_chronicle {flow flow' : Flow interface α}
    {statement : α → MemoryLedger → List (Exchange interface) → Prop}
    (ensures : flow.Ensures (serving NeverFails) (tending own fun _ => True) statement world.state)
    (chronicle : Chronicle (Serves NeverFails) flow world moments flow' world') :
    Frames own world.state world'.state ∧ (world.state.Typed → world'.state.Typed) := by
  let framed (state : MemoryLedger) : Prop :=
    Frames own world.state state ∧ (world.state.Typed → state.Typed)
  suffices framed world'.state from this
  exact (Flow.Ensures.within ensures (Conduct.within_alone _)).always (fun _ => trivial)
    (fun same => same ▸ id) (fun kept before => ⟨before.1.step kept.1, kept.2 ∘ before.2⟩)
    ⟨.refl own world.state, id⟩ (course_of_chronicle chronicle).path

/-- **A job that cannot fail**, as a part of the run. -/
theorem chronicle_ofJob {job : Job α} {statement : α → MemoryLedger → Prop}
    {result : Except RunError α}
    (succeeds : job.Succeeds own (fun _ => True) statement world.state)
    (chronicle : Chronicle (Serves NeverFails) (Plan.ofJob job).run world moments (.done result)
      world') :
    Orderly own moments world.state world'.state ∧ passes moments = 0 ∧
      ∃ value, result = .ok value ∧ statement value world'.state := by
  have ensures : Plan.Ensures (serving NeverFails) _ _ _ _ world.state :=
    Plan.ensures_ofJob succeeds
  have course := course_of_chronicle chronicle
  obtain ⟨trace, own, -⟩ := Flow.Course.of_task course
  refine ⟨⟨(framed_of_chronicle ensures chronicle).1, fun stage chunk started => ?_⟩,
    (Chronicle.rest_of_task chronicle).1, ?_⟩
  · have member := mem_events.mpr started
    rw [own] at member
    obtain ⟨exchange, -, never⟩ := List.mem_map.mp member
    cases never
  · have verdict := (Flow.Ensures.within ensures (Conduct.within_alone _) world rfl
      (fun _ => trivial) _ _ _ course.path).2 _ rfl
    cases result with
    | ok value => exact ⟨value, rfl, verdict.1⟩
    | error error => exact verdict.elim

/-- A job that cannot fail, and what comes after it. -/
theorem chronicle_thenJob {job : Job α} {after : α → Plan β} {statement : α → MemoryLedger → Prop}
    {result : Except RunError β}
    (succeeds : job.Succeeds own (fun _ => True) statement world.state)
    (chronicle : Chronicle (Serves NeverFails) (Plan.ofJob job >>= after).run world moments
      (.done result) world') :
    ∃ value middle early late, moments = early ++ late ∧
      Orderly own early world.state middle.state ∧ passes early = 0 ∧
      statement value middle.state ∧
      Chronicle (Serves NeverFails) (after value).run middle late (.done result) world' := by
  rcases Plan.chronicle_bind chronicle with ⟨error, middle, -, -, first⟩ |
    ⟨value, middle, early, late, rfl, first, rest⟩
  · obtain ⟨-, -, value, never, -⟩ := chronicle_ofJob succeeds first
    cases never
  · obtain ⟨orderly, unseen, value, same, holds⟩ := chronicle_ofJob succeeds first
    cases same
    exact ⟨value, middle, early, late, rfl, orderly, unseen, holds, rest⟩

/-- A part of a run that finds stored what it requires. -/
theorem chronicle_requiring {required : KeySet} {plan : Plan α} {result : Except RunError α}
    (held : ∀ key ∈ required, world.state.Has key) (typed : world.state.Typed)
    (chronicle : Chronicle (Serves NeverFails) (Plan.requiring required plan).run world moments
      (.done result) world') :
    ∃ middle early late, moments = early ++ late ∧
      Orderly (fun _ => False) early world.state middle.state ∧ passes early = 0 ∧
      Reaches (fun _ => True) (fun _ => False) world.state middle.state ∧
      Chronicle (Serves NeverFails) plan.run middle late (.done result) world' := by
  have begun : Reaches (fun _ => True) (fun _ => False) world.state world.state :=
    ⟨.nothing _ world.state, typed⟩
  have looks : (firstMissing required).Succeeds (fun _ => False) (fun _ => True) _ world.state :=
    succeeds_firstMissing begun held
  obtain ⟨_, middle, early, late, rfl, orderly, unseen, ⟨reached, rfl⟩, rest⟩ :=
    chronicle_thenJob looks chronicle
  exact ⟨middle, early, late, rfl, orderly, unseen, reached, rest⟩

/-! ### Barrier stages -/

variable {stage : Stage}

/-- **The tasks of a barrier stage**: those that were started have finished, and unless the token
has fired, all were started. -/
theorem chronicle_pool (barrier : stage.isSerial = false) (typed : world.state.Typed)
    (prepared : ∀ chunk < run.count, Prepared run stage chunk world.state)
    {result : Except RunError StageSummary}
    (chronicle : Chronicle (Serves NeverFails) (Flow.ofPool (Pool.start stage run.indices
      fun chunk => (run.barrierTask stage chunk).task stage)) world moments (.done result) world') :
    Orderly (FilledBy run stage) moments world.state world'.state ∧ passes moments = 0 ∧
      ((∃ summary, result = .ok summary) ∧
          Reaches (fun _ => True) (FilledBy run stage) world.state world'.state ∨
        result = .error (.cancelled stage)) := by
  have promises (chunk : ChunkIndex) (member : chunk ∈ run.indices) :=
    (supplies_barrierTask (fun _ => id) (fun _ => id) barrier
      (prepared chunk (List.mem_range.mp member))).task stage
  have course := course_of_chronicle chronicle
  obtain ⟨started, traces, pool, account, idle, rfl⟩ := Flow.Course.account_of_pool
    (compatible_tending run stage) List.nodup_range promises (fun _ => trivial) course
  obtain ⟨frames, kept⟩ := framed_of_chronicle
    (Flow.ensures_ofPool (compatible_tending run stage) List.nodup_range promises) chronicle
  have only := (course.of_pool List.nodup_range).1
  refine ⟨⟨frames, fun place chunk member => ?_⟩, (Chronicle.rest_of_pool chronicle).1, ?_⟩
  · have event := mem_events.mpr member
    obtain ⟨_, _, _, same⟩ := only _ event
    cases same
    obtain ⟨ending, ended, holds⟩ := started chunk event
    obtain ⟨outcome, rfl, reached⟩ := holds.exists_outcome
    exact ⟨outcome, mem_events.mp ended, reached.adds⟩
  · cases ended : pool.result with
    | ok summary =>
      obtain ⟨outcomes, finished, -⟩ := account.finished_of_ok List.nodup_range idle ended
      refine .inl ⟨⟨summary, rfl⟩, frames.gains ?_, kept typed⟩
      rintro key ⟨present, rfl, inside⟩
      exact (finished key.chunk (List.mem_range.mpr inside)).1.adds key
        (mem_outputs_iff.mpr ⟨rfl, rfl, present⟩)
    | error error =>
      refine .inr (congrArg Except.error ?_)
      rcases Pool.result_eq_error.mp ended with ⟨_, ⟨chunk, ending⟩, _, shape, reason, -⟩ |
        ⟨-, -, rfl⟩
      · -- No task fails.
        obtain ⟨outcome, rfl, -⟩ := Conclusion.exists_outcome
          ((account.ended chunk ending (by simp [shape])).1 _ (Conduct.rely_refl _ _))
        cases reason
      · exact congrArg _ account.sameStage

/-- A barrier stage that finds stored what it needs. -/
theorem chronicle_stagePlan (barrier : stage.isSerial = false) (typed : world.state.Typed)
    (prepared : ∀ chunk < run.count, Prepared run stage chunk world.state)
    {result : Except RunError StageSummary}
    (chronicle : Chronicle (Serves NeverFails) (run.stagePlan stage).run world moments
      (.done result) world') :
    Orderly (FilledBy run stage) moments world.state world'.state ∧ passes moments = 0 ∧
      ((∃ summary, result = .ok summary) ∧
          Reaches (fun _ => True) (FilledBy run stage) world.state world'.state ∨
        result = .error (.cancelled stage)) := by
  have required (key : Key) (member : key ∈ stage.barrierInputs run.count) :
      world.state.Has key := by
    obtain ⟨chunk, inside, read⟩ := Stage.mem_barrierInputs.mp member
    exact (prepared chunk inside).inputs key read (Stage.isSerial_of_mem_inputs barrier read)
  rw [stagePlan_eq run barrier] at chronicle
  obtain ⟨middle, early, late, rfl, looked, unseen, same, rest⟩ :=
    chronicle_requiring required typed chronicle
  have prepared (chunk : ChunkIndex) (inside : chunk < run.count) :
      Prepared run stage chunk middle.state :=
    (prepared chunk inside).after same (fun _ _ => trivial) fun _ _ => id
  obtain ⟨orderly, unheard, ended⟩ := chronicle_pool barrier same.typed prepared rest
  refine ⟨looked.append orderly (by simp), ?_, ended.imp_left fun ⟨summary, reached⟩ => ?_⟩
  · rw [passes_append, unseen, unheard]
  · exact ⟨summary, same.trans reached (by simp)⟩

/-- A strict run begins with a ledger that holds none of its outputs. -/
def Unspoiled (run : Run) (ledger : MemoryLedger) : Prop :=
  run.policy = .strict → ∀ key ∈ runKeys run.count, ¬ ledger.Has key

/-- Once the stages before it are over, every task of a stage is prepared. -/
theorem prepared_of_passed (unspoiled : run.Unspoiled origin) {place : Nat}
    (reached : Reaches (fun _ => True) (Passed run.count place) origin ledger)
    (inputs : ∀ chunk, ∀ key ∈ stage.inputs chunk, key.kind.stage.isSerial = false →
      key.kind.stage.place < place)
    (outputs : place ≤ stage.place) {chunk : ChunkIndex} (inside : chunk < run.count) :
    Prepared run stage chunk ledger where
  inside := inside
  typed := reached.typed
  inputs key read early := by
    obtain ⟨le, present⟩ := Stage.le_of_mem_inputs read
    exact reached.adds key ⟨present, inputs chunk key read early, Nat.lt_of_le_of_lt le inside⟩
  vacant strict key output held := by
    obtain ⟨rfl, rfl, present⟩ := mem_outputs_iff.mp output
    rcases reached.only key trivial held with before | passed
    · exact unspoiled strict key (mem_runKeys_iff.mpr ⟨inside, present⟩) before
    · exact Nat.not_lt_of_le outputs passed.2.1

/-- A barrier stage after those before it: its tasks are prepared, and only the token cuts it
short. -/
theorem chronicle_nextStage (unspoiled : run.Unspoiled origin) (barrier : stage.isSerial = false)
    (reached : Reaches (fun _ => True) (Passed run.count stage.place) origin world.state)
    {result : Except RunError StageSummary}
    (chronicle : Chronicle (Serves NeverFails) (run.stagePlan stage).run world moments
      (.done result) world') :
    Orderly (fun key => key.kind.stage.isSerial = false) moments world.state world'.state ∧
      passes moments = 0 ∧
      ((∃ summary, result = .ok summary) ∧
          Reaches (fun _ => True) (Passed run.count (stage.place + 1)) origin world'.state ∨
        result = .error (.cancelled stage) ∧
          ∀ key, Passed run.count stage.place key → world'.state.Has key) := by
  have prepared (chunk : ChunkIndex) (inside : chunk < run.count) :
      Prepared run stage chunk world.state :=
    prepared_of_passed unspoiled reached
      (fun _ _ read _ => Stage.place_lt_of_mem_inputs barrier read) (Nat.le_refl _) inside
  obtain ⟨orderly, unseen, ended⟩ := chronicle_stagePlan barrier reached.typed prepared chronicle
  refine ⟨orderly.mono fun key filled => filled.2.1 ▸ barrier, unseen, ended.imp ?_ ?_⟩
  · exact fun ⟨ok, filled⟩ => ⟨ok, reached.trans filled fun _ => passed_succ_iff⟩
  · exact fun same => ⟨same, fun key passed => orderly.keeps key (reached.adds key passed)⟩

/-- **The barrier stages**, one after another: only the token cuts one short, and then everything is
stored that comes before it. -/
theorem chronicle_stagePlans (unspoiled : run.Unspoiled origin) {stages : List Stage} (start : Nat)
    (order : stages.map Stage.place = List.range' start stages.length)
    (barriers : ∀ stage ∈ stages, stage.isSerial = false)
    (reached : Reaches (fun _ => True) (Passed run.count start) origin world.state)
    {result : Except RunError (List StageSummary)}
    (chronicle : Chronicle (Serves NeverFails) (run.stagePlans stages).run world moments
      (.done result) world') :
    Orderly (fun key => key.kind.stage.isSerial = false) moments world.state world'.state ∧
      passes moments = 0 ∧
      ((∃ summaries, result = .ok summaries) ∧
          Reaches (fun _ => True) (Passed run.count (start + stages.length)) origin world'.state ∨
        ∃ stage, result = .error (.cancelled stage) ∧
          ∀ key, Passed run.count stage.place key → world'.state.Has key) := by
  -- What the stages so far have filled is all that the next one needs.
  induction stages generalizing start world world' moments result with
  | nil =>
    obtain ⟨rfl, same, still⟩ := Chronicle.of_done chronicle
    cases same
    rw [still]
    exact ⟨orderly_nil _ _, rfl, .inl ⟨⟨[], rfl⟩, reached⟩⟩
  | cons stage rest ih =>
    obtain ⟨rfl, further⟩ := List.cons.inj order
    obtain ⟨barrier, others⟩ := List.forall_mem_cons.mp barriers
    rcases Plan.chronicle_bind chronicle with ⟨error, middle, rfl, still, first⟩ |
      ⟨summary, middle, early, late, rfl, first, course⟩
    · obtain ⟨orderly, unseen, ⟨⟨_, never⟩, -⟩ | ⟨same, stored⟩⟩ :=
        chronicle_nextStage unspoiled barrier reached first
      · cases never
      · cases same
        exact ⟨still ▸ orderly, unseen, .inr ⟨stage, rfl, still ▸ stored⟩⟩
    · obtain ⟨orderly, unseen, ⟨-, reached⟩ | ⟨never, -⟩⟩ :=
        chronicle_nextStage unspoiled barrier reached first
      · obtain ⟨onward, final, rfl, still, second⟩ := Plan.chronicle_map course
        obtain ⟨more, unheard, ended⟩ := ih (stage.place + 1) further others reached second
        rw [still] at more ended
        refine ⟨orderly.append more fun _ => Or.rec id id, ?_, ?_⟩
        · rw [passes_append, unseen, unheard]
        · rcases ended with ⟨⟨summaries, rfl⟩, finished⟩ | ⟨place, rfl, stored⟩
          · rw [List.length_cons, Nat.add_comm rest.length, ← Nat.add_assoc]
            exact .inl ⟨⟨_, rfl⟩, finished⟩
          · exact .inr ⟨place, rfl, stored⟩
      · cases never

/-! ### The chain -/

/-- The slots that the chain fills for some chunks in a row. -/
def Stretch (first length : Nat) (key : Key) : Prop :=
  ∃ chunk, first ≤ chunk ∧ chunk < first + length ∧ Linked chunk key

/-- Nothing keeps the chain from going over the chunks from `first` on. -/
def Poised (run : Run) (first : ChunkIndex) (ledger : MemoryLedger) : Prop :=
  ∀ stage : Stage, stage.isSerial = true → ∀ chunk, first ≤ chunk → chunk < run.count →
    Prepared run stage chunk ledger

theorem linked_iff {chunk : ChunkIndex} {key : Key} :
    Linked chunk key ↔ Chained key ∧ key.chunk = chunk := by
  obtain ⟨place, kind⟩ := key
  simp only [Linked, Chained, mem_outputs_iff]
  cases kind <;> simp [Kind.stage, Stage.isSerial, and_comm]

theorem Poised.after {first : ChunkIndex} (poised : run.Poised first ledger)
    (reached : Reaches (fun _ => True) (Linked first) ledger later) :
    run.Poised (first + 1) later := by
  intro stage serial chunk beyond inside
  refine (poised stage serial chunk (Nat.le_of_succ_le beyond) inside).after reached
    (fun _ _ => trivial) fun key output linked => ?_
  have same := (Stage.stage_and_chunk_of_mem_outputs output).2.symm.trans (linked_iff.mp linked).2
  exact Nat.ne_of_gt beyond same

theorem Poised.congr {first : ChunkIndex} (poised : run.Poised first ledger)
    (same : Reaches (fun _ => True) (fun _ => False) ledger later) : run.Poised first later :=
  fun stage serial chunk beyond inside =>
    (poised stage serial chunk beyond inside).after same (fun _ _ => trivial) fun _ _ => id

/-- **What the chain shows** that is over: for so many chunks it has filled its slots, and unless it
was cut short, these were all. -/
structure Extends (run : Run) (first passed : Nat) (moments : List (Moment interface))
    (ledger later : MemoryLedger) (result : Except RunError α) : Prop extends
    Orderly (Stretch first passed) moments ledger later where
  filled : ∀ key, Stretch first passed key → later.Has key
  ended : ((∃ value, result = .ok value) ∧ first + passed = run.count) ∨
    result = .error (.cancelled .rebase)

theorem not_stretch_zero (first : Nat) (key : Key) : ¬ Stretch first 0 key :=
  fun ⟨_, beyond, inside, _⟩ => Nat.not_lt_of_le beyond inside

namespace Extends

variable {first passed : Nat} {result : Except RunError α}

/-- The token has fired before the first chunk. -/
theorem cut (run : Run) (first : Nat) (ledger : MemoryLedger) :
    Extends run first 0 [look true] ledger ledger
      (.error (.cancelled .rebase) : Except RunError α) where
  toOrderly := orderly_look _ true ledger
  filled key never := (not_stretch_zero first key never).elim
  ended := .inr rfl

/-- A look at the token comes before the first chunk. -/
theorem look (extended : Extends run first passed moments ledger later result) :
    Extends run first passed (look false :: moments) ledger later result where
  toOrderly := (orderly_look _ false ledger).append extended.toOrderly fun _ => Or.rec id id
  filled := extended.filled
  ended := extended.ended

/-- It does not matter what the chain makes of its value. -/
theorem map (make : α → β) (extended : Extends run first passed moments ledger later result) :
    Extends run first passed moments ledger later (make <$> result) where
  toOrderly := extended.toOrderly
  filled := extended.filled
  ended := by
    rcases extended.ended with ⟨⟨value, rfl⟩, whole⟩ | rfl
    · exact .inl ⟨⟨_, rfl⟩, whole⟩
    · exact .inr rfl

/-- One more chunk at the front. -/
theorem cons {early late : List (Moment interface)} {middle : MemoryLedger}
    (orderly : Orderly (Linked first) early ledger middle)
    (filled : ∀ key, Linked first key → middle.Has key)
    (extended : Extends run (first + 1) passed late middle later result) :
    Extends run first (passed + 1) (early ++ late) ledger later result where
  toOrderly := orderly.append extended.toOrderly fun key => by
    rintro (linked | ⟨chunk, beyond, inside, linked⟩)
    · exact ⟨first, Nat.le_refl first, Nat.lt_add_of_pos_right (Nat.succ_pos passed), linked⟩
    · exact ⟨chunk, Nat.le_of_succ_le beyond, by omega, linked⟩
  filled := by
    rintro key ⟨chunk, beyond, inside, linked⟩
    rcases Nat.eq_or_lt_of_le beyond with rfl | beyond
    · exact extended.keeps key (filled key linked)
    · exact extended.filled key ⟨chunk, beyond, by omega, linked⟩
  ended := extended.ended.imp_left fun ⟨ok, whole⟩ => ⟨ok, by omega⟩

end Extends

/-- **The chain over the chunks that remain**: it has gone over as many as it has found the token
unfired before. -/
theorem chronicle_chainFrom {previous remaining : Nat} {link : Link}
    (length : previous + 1 + remaining = run.count) (poised : run.Poised (previous + 1) world.state)
    {result : Except RunError (List ChainStep)}
    (chronicle : Chronicle (Serves NeverFails) (run.chainFrom previous link remaining).run world
      moments (.done result) world') :
    Extends run (previous + 1) (passes moments) moments world.state world'.state result := by
  -- A chunk that is done leaves the chain poised for the next, whatever the link between them.
  induction remaining generalizing previous link world world' moments result with
  | zero =>
    obtain ⟨rfl, same, still⟩ := Chronicle.of_done chronicle
    cases same
    rw [still]
    exact ⟨orderly_nil _ _, fun key never => (not_stretch_zero _ key never).elim,
      .inl ⟨⟨[], rfl⟩, length⟩⟩
  | succ remaining ih =>
    rcases Plan.chronicle_check chronicle with ⟨rfl, rfl, still⟩ |
      ⟨begun, late, rfl, same, course⟩
    · rw [still]
      exact .cut run (previous + 1) world.state
    · rw [← same] at poised ⊢
      have inside : previous + 1 < run.count := by omega
      have succeeds := succeeds_extend (fun _ => id) (fun _ _ => trivial) link
        (poised .rebase rfl _ (Nat.le_refl _) inside) (poised .merge rfl _ (Nat.le_refl _) inside)
      obtain ⟨step, middle, early, late, rfl, orderly, unseen, reached, rest⟩ :=
        chronicle_thenJob succeeds course
      obtain ⟨further, final, rfl, still, course⟩ := Plan.chronicle_map rest
      have onward := ih (by omega) (poised.after reached) course
      rw [passes_cons, passes_append, unseen, Nat.zero_add, ← still]
      exact ((onward.cons orderly fun key => reached.adds key).map _).look

/-- **The whole chain**: it goes over the first chunk in any case. -/
theorem chronicle_chain (nonempty : 0 < run.count) (poised : run.Poised 0 world.state)
    (held : ∀ key ∈ chainInputs run.count, world.state.Has key)
    {result : Except RunError ChainResult}
    (chronicle : Chronicle (Serves NeverFails) run.chain.run world moments (.done result) world') :
    Extends run 0 (passes moments + 1) moments world.state world'.state result := by
  have typed := (poised .rebase rfl 0 (Nat.le_refl 0) nonempty).typed
  rw [chain_eq] at chronicle
  obtain ⟨begun, early, late, rfl, looked, unheard, same, course⟩ :=
    chronicle_requiring held typed chronicle
  have poised := poised.congr same
  have succeeds := succeeds_seed (fun _ => id) (fun _ _ => trivial)
    (poised .rebase rfl 0 (Nat.le_refl 0) nonempty) (poised .merge rfl 0 (Nat.le_refl 0) nonempty)
  obtain ⟨step, middle, first, late, rfl, orderly, unseen, reached, rest⟩ :=
    chronicle_thenJob succeeds course
  obtain ⟨further, final, rfl, still, course⟩ := Plan.chronicle_map rest
  have onward := chronicle_chainFrom (by omega) (poised.after reached) course
  have opened : Orderly (Linked 0) (early ++ first) world.state middle.state :=
    looked.append orderly fun _ => Or.rec False.elim id
  rw [passes_append, passes_append, unheard, unseen, Nat.zero_add, Nat.zero_add,
    ← List.append_assoc, ← still]
  exact (onward.cons opened fun key => reached.adds key).map _

/-- **The chain with the look at the token before it**: so it goes over as many chunks as the token
was found unfired. -/
theorem chronicle_gate (nonempty : 0 < run.count) (poised : run.Poised 0 world.state)
    (held : ∀ key ∈ chainInputs run.count, world.state.Has key) {make : ChainResult → α}
    {result : Except RunError α}
    (chronicle : Chronicle (Serves NeverFails) (Plan.checkCancelled .rebase >>= fun _ =>
      run.chain >>= fun chained => pure (make chained)).run world moments (.done result) world') :
    Extends run 0 (passes moments) moments world.state world'.state result := by
  rcases Plan.chronicle_check chronicle with ⟨rfl, rfl, still⟩ | ⟨begun, late, rfl, same, course⟩
  · rw [still]
    exact .cut run 0 world.state
  · obtain ⟨chained, final, rfl, still, course⟩ := Plan.chronicle_map course
    rw [← same] at poised held ⊢
    rw [passes_cons, ← still]
    exact ((chronicle_chain nonempty poised held course).map make).look

/-! ### The whole run -/

/-- **What a run shows** that is over: of the chain, it has touched the chunks alone before which it
has found the token unfired, and only the token has cut it short. -/
structure Closes (run : Run) (moments : List (Moment interface)) (ledger later : MemoryLedger)
    (result : Except RunError Result) : Prop extends
    Orderly (fun key => key.kind.stage.isSerial = false ∨ Stretch 0 (passes moments) key) moments
      ledger later where
  filled : ∀ key, Stretch 0 (passes moments) key → later.Has key
  ended : ((∃ value, result = .ok value) ∧ ∀ key ∈ runKeys run.count, later.Has key) ∨
    ∃ stage, result = .error (.cancelled stage) ∧
      ∀ key, Passed run.count stage.place key → later.Has key

/-- After the barrier stages, the chain finds stored what it needs. -/
theorem held_of_passed
    (reached : Reaches (fun _ => True) (Passed run.count Stage.barriers.length) origin ledger) :
    ∀ key ∈ chainInputs run.count, ledger.Has key :=
  fun key member => reached.adds key (passed_of_mem_chainInputs member)

/-- After the barrier stages, nothing keeps the chain from going over all chunks. -/
theorem poised_of_passed (unspoiled : run.Unspoiled origin)
    (reached : Reaches (fun _ => True) (Passed run.count Stage.barriers.length) origin ledger) :
    run.Poised 0 ledger := by
  intro stage serial chunk _ inside
  refine prepared_of_passed unspoiled reached (fun _ _ _ => Stage.place_lt_iff.mpr) ?_ inside
  refine Nat.le_of_not_lt fun earlier => ?_
  rw [Stage.place_lt_iff.mp earlier] at serial
  cases serial

/-- **A whole run** that never fails, wherever the token fires. -/
theorem chronicle_plan (nonempty : run.chunks ≠ []) (typed : world.state.Typed)
    (unspoiled : run.Unspoiled world.state) {result : Except RunError Result}
    (chronicle : Chronicle (Serves NeverFails) run.plan.run world moments (.done result) world') :
    Closes run moments world.state world'.state result := by
  obtain ⟨last, count⟩ := count_eq_succ nonempty
  have start : Reaches (fun _ => True) (Passed run.count 0) world.state world.state :=
    ⟨(Gains.nothing _ world.state).congr fun key => by simp [Passed], typed⟩
  unfold plan at chronicle
  rw [count] at chronicle
  rcases Plan.chronicle_bind chronicle with ⟨error, middle, rfl, still, first⟩ |
    ⟨summaries, middle, early, late, rfl, first, course⟩
  · obtain ⟨orderly, unseen, ⟨⟨_, never⟩, -⟩ | ⟨stage, same, stored⟩⟩ :=
      chronicle_stagePlans unspoiled 0 rfl (fun stage => Stage.mem_barriers.mp) start first
    · cases never
    · cases same
      rw [still] at orderly stored
      refine ⟨orderly.mono fun _ => .inl, fun key => ?_, .inr ⟨stage, rfl, stored⟩⟩
      rw [unseen]
      exact fun never => (not_stretch_zero 0 key never).elim
  · obtain ⟨orderly, unseen, ⟨-, reached⟩ | ⟨_, never, -⟩⟩ :=
      chronicle_stagePlans unspoiled 0 rfl (fun stage => Stage.mem_barriers.mp) start first
    · rw [Nat.zero_add] at reached
      have extended := chronicle_gate (count ▸ Nat.succ_pos last)
        (poised_of_passed unspoiled reached) (held_of_passed reached) course
      have stored (key : Key) (early : Passed run.count Stage.barriers.length key) :
          world'.state.Has key := extended.keeps key (reached.adds key early)
      have passed : passes (early ++ late) = passes late := by
        rw [passes_append, unseen, Nat.zero_add]
      refine ⟨orderly.append extended.toOrderly fun key => Or.imp_right (passed ▸ ·),
        fun key chained => extended.filled key (passed ▸ chained), ?_⟩
      rcases extended.ended with ⟨ok, whole⟩ | rfl
      · refine .inl ⟨ok, fun key mine => ?_⟩
        obtain ⟨inside, present⟩ := mem_runKeys_iff.mp mine
        cases serial : key.kind.stage.isSerial with
        | false => exact stored key ⟨present, Stage.place_lt_iff.mpr serial, inside⟩
        | true =>
          exact extended.filled key ⟨key.chunk, Nat.zero_le _, whole ▸ inside,
            linked_iff.mpr ⟨⟨serial, present⟩, rfl⟩⟩
      · exact .inr ⟨.rebase, rfl, stored⟩
    · cases never

/-- **How a run winds up** after the token has fired: `early` is what was done until then, `late`
what is done afterwards. -/
structure WindsUp (run : Run) (early late : List (Moment interface)) (ledger later : MemoryLedger)
    (result : Except RunError Result) : Prop where
  /-- No task of a barrier stage is started. -/
  starts : ∀ stage chunk, .act (.task stage chunk .start) ∉ late
  /-- The chain, which looks at the token before it, begins no chunk. -/
  looks : passes late = 0
  /-- Every task that was started finishes and has its outputs stored. -/
  finishes : ∀ stage chunk, .act (.task stage chunk .start) ∈ early →
    (∃ outcome, .act (.task stage chunk (.finish (.finished outcome))) ∈ early ++ late) ∧
      ∀ key ∈ stage.outputs chunk, later.Has key
  /-- Every chunk that the chain has begun has its outputs stored. -/
  links : ∀ chunk < passes early, ∀ key, Linked chunk key → later.Has key
  /-- No output of the chain is touched for any other chunk. -/
  spares : ∀ chunk, passes early ≤ chunk → ∀ key, Linked chunk key →
    later.get? key = ledger.get? key
  /-- The run ends well only if it has stored everything. -/
  complete : ∀ value, result = .ok value → ∀ stage : Stage, ∀ chunk < run.count,
    ∀ key ∈ stage.outputs chunk, later.Has key
  /-- Otherwise it was cancelled, in a stage before which everything is stored. -/
  cut : ∀ error, result = .error error → ∃ stage, error = .cancelled stage ∧
    ∀ earlier : Stage, earlier.place < stage.place → ∀ chunk < run.count,
      ∀ key ∈ earlier.outputs chunk, later.Has key
  /-- No outputs of a task are half stored that were not so before. -/
  whole : KeepsWhole ledger later

theorem serves_verbatim : Serves NeverFails (inMemory .verbatim) :=
  (serves_inMemory .verbatim).mono fun call answer same => by
    subst same
    cases call <;> exact ⟨_, rfl⟩

/-- However such a run ends, it leaves nothing half stored. -/
theorem keepsWhole_of_chronicle {result : Except RunError Result}
    (chronicle : Chronicle (Serves NeverFails) run.plan.run world moments (.done result) world') :
    KeepsWhole world.state world'.state := by
  have any {service : Service interface MemoryLedger} (serves : Serves NeverFails service) :
      Serves AnyAnswer service := serves.mono fun _ _ _ => trivial
  have course := course_of_chronicle chronicle
  have trades : Service.Trades (serving NeverFails).services (serving AnyAnswer).services
      fun _ => True :=
    fun service serves _ _ _ => ⟨service, any serves, rfl⟩
  have path : Flow.Path (serving AnyAnswer) Eq run.plan.run world _ (.done result) world' :=
    course.path.trade trades ⟨_, any serves_verbatim⟩ id fun _ _ => trivial
  have verdict := (Flow.Ensures.within (fills_plan run world.state) (Conduct.within_alone _) world
    rfl (fun _ => trivial) _ _ _ path).2 result rfl
  cases result with
  | ok value => exact verdict
  | error error => exact verdict

/-- **Cancellation is safe.** Take a run over at least one chunk with a codec that answers every
call, over any ledger that was made from the empty one, so that each artifact is of the kind of its
slot (a strict run finds none of its outputs there), and let the token have fired after any number
of its steps. Whatever the schedule, the run comes to an end, and it winds up: nothing is started
any more, and all that was started is finished and stored. -/
theorem winds_up (nonempty : run.chunks ≠ []) (typed : world.state.Typed)
    (unspoiled : run.Unspoiled world.state) (free : 0 < world.free)
    {early : List (Moment interface)} {flow : Flow interface (Except RunError Result)}
    {middle : World MemoryLedger}
    (before : Chronicle (Serves NeverFails) run.plan.run world early flow middle)
    (fired : middle.cancelled = true) :
    flow.EndsIn (Serves NeverFails) (fun _ _ => True) middle ∧
      ∀ late result last, Chronicle (Serves NeverFails) flow middle late (.done result) last →
        WindsUp run early late world.state last.state result := by
  have ends : flow.EndsIn (serving NeverFails).services (fun _ _ => True) middle :=
    Flow.endsIn_of_path ⟨_, serves_verbatim⟩ (before.permits (Nat.add_pos_left free _))
      fun _ _ _ _ => trivial
  refine ⟨ends, fun late result last after => ?_⟩
  obtain ⟨starts, looks⟩ := after.quiet fired
  have whole := before.append after
  have closes := chronicle_plan nonempty typed unspoiled whole
  have same : passes (early ++ late) = passes early := by rw [passes_append, looks]; rfl
  refine ⟨starts, looks, fun stage chunk started => ?_, fun chunk begun key linked => ?_,
    fun chunk unbegun key linked => ?_, ?_, ?_, keepsWhole_of_chronicle whole⟩
  · obtain ⟨outcome, ended, stored⟩ :=
      closes.finishes stage chunk (List.mem_append_left _ started)
    exact ⟨⟨outcome, ended⟩, stored⟩
  · exact closes.filled key ⟨chunk, Nat.zero_le _, by omega, linked⟩
  · refine closes.others key ?_
    obtain ⟨⟨serial, -⟩, rfl⟩ := linked_iff.mp linked
    rintro (barrier | ⟨chunk, -, inside, again⟩)
    · rw [serial] at barrier
      cases barrier
    · rw [(linked_iff.mp again).2] at unbegun
      omega
  · rintro value rfl stage chunk inside key output
    rcases closes.ended with ⟨-, stored⟩ | ⟨_, never, -⟩
    · exact stored key (mem_runKeys.mpr ⟨stage, chunk, inside, output⟩)
    · cases never
  · rintro error rfl
    rcases closes.ended with ⟨⟨_, never⟩, -⟩ | ⟨stage, same, stored⟩
    · cases never
    · cases same
      refine ⟨stage, rfl, fun earlier sooner chunk inside key output => ?_⟩
      obtain ⟨rfl, rfl, present⟩ := mem_outputs_iff.mp output
      exact stored key ⟨present, sooner, inside⟩

/-- The token fires when the first task of a strict run has been started: its baseline is stored in
the end, nothing is in the output, and the run says that it was cancelled. -/
theorem winds_up_twoChunks :
    let run : Run := ⟨"clip", twoChunks, .strict⟩
    ∃ (early late : List (Moment interface)) (flow : Flow interface (Except RunError Result))
      (result : Except RunError Result) (middle last : World MemoryLedger),
      Chronicle (Serves NeverFails) run.plan.run (World.fresh 2 .empty) early flow middle ∧
      middle.cancelled = true ∧ .act (.task .baselineEncode 0 .start) ∈ early ∧
      Chronicle (Serves NeverFails) flow middle late (.done result) last ∧
      WindsUp run early late .empty last.state result ∧ last.state.Has ⟨0, .baseline⟩ ∧
      last.state.get? ⟨0, .merged⟩ = none ∧ ∃ stage, result = .error (.cancelled stage) := by
  intro run
  have outset : Chronicle (Serves NeverFails) run.plan.run (World.fresh 2 .empty) [] _ _ := .start
  have early := ((outset.step (.ask serves_verbatim)).step (.stage (.start rfl rfl))).fire
  obtain ⟨ends, winds⟩ := winds_up (List.cons_ne_nil _ _) MemoryLedger.typed_empty
    (fun _ _ _ held => by cases held) (Flow.free_fresh 2 _) early rfl
  obtain ⟨late, result, last, after, -⟩ := ends.exists_chronicle
  have winds := winds late result last after
  have fate := winds.finishes .baselineEncode 0
    (List.mem_append_right _ (List.mem_singleton_self _))
  have unmerged : last.state.get? ⟨0, .merged⟩ = none :=
    winds.spares 0 (Nat.le_refl 0) _ (.inr (List.mem_singleton_self _))
  refine ⟨_, late, _, result, _, last, early, rfl,
    List.mem_append_right _ (List.mem_singleton_self _), after, winds,
    fate.2 _ (List.mem_singleton_self _), unmerged, ?_⟩
  cases result with
  | ok value =>
    have stored := winds.complete value rfl .merge 0 (by decide) _ (List.mem_singleton_self _)
    rw [MemoryLedger.Has, unmerged] at stored
    cases stored
  | error error =>
    obtain ⟨stage, rfl, -⟩ := winds.cut error rfl
    exact ⟨stage, rfl⟩

end Transcode.Run
