/-
**The record of a stage**: what each of its tasks has done, along every course.

* `Recorded` holds of a task that was started, asked its questions and ended, all on record.
* `Pool.Record` is the invariant of a stage: a chunk that waits has done nothing, and a task under
  way or ended has done what its requests say. Every step of the stage keeps it (`Record.step`).
* `Flow.Course.of_pool` — in a finished stage, every task is on record or was never started, and
  the result is gathered from the ends that are on record. What its tasks have promised they have
  kept (`Flow.Course.account_of_pool`).
-/
import Transcode.Proofs.Schedule.Course
import Transcode.Proofs.Schedule.Stage

namespace Transcode

variable {I : Interface} {σ α : Type}

/-- What a task has done that was started and has asked these questions. -/
def deedsOf (trace : List (Exchange I)) : List (Deed I) :=
  .start :: trace.map Deed.ask

/-- The task of a chunk was started, asked its questions and ended. -/
def Recorded (stage : Stage) (chunk : ChunkIndex) (task : Task I Ending) (events : List (Event I))
    (ending : Ending) : Prop :=
  ∃ trace, deeds stage chunk events = deedsOf trace ++ [.finish ending] ∧ task.Yields trace ending

namespace Recorded

variable {stage : Stage} {chunk : ChunkIndex} {task : Task I Ending} {events more : List (Event I)}
  {ending : Ending}

/-- What is on record of a task is so in any events with the same deeds of it. -/
theorem congr (recorded : Recorded stage chunk task events ending)
    (same : deeds stage chunk more = deeds stage chunk events) :
    Recorded stage chunk task more ending := by
  obtain ⟨trace, done, yields⟩ := recorded
  exact ⟨trace, same.trans done, yields⟩

theorem started (recorded : Recorded stage chunk task events ending) :
    .task stage chunk .start ∈ events := by
  obtain ⟨trace, done, -⟩ := recorded
  refine mem_deeds.mp ?_
  rw [done]
  exact List.mem_cons_self

end Recorded

namespace Pool

/-- The account of a stage whose tasks owe each other nothing. -/
abbrev Traced (setting : Setting I σ) (initial : Pool I) (origin : σ)
    (traces : ChunkIndex → List (Exchange I)) (pool : Pool I) (state : σ)
    (trace : List (Exchange I)) : Prop :=
  Account setting (fun _ => Conduct.lax) (fun _ _ _ => True) initial origin traces pool state trace

/-- **What is on record of a stage** whose tasks have made the requests `traces`. -/
structure Record (setting : Setting I σ) (initial : Pool I) (origin : σ)
    (events : List (Event I)) (traces : ChunkIndex → List (Exchange I)) (pool : Pool I)
    (state : σ) : Prop where
  account : Traced setting initial origin traces pool state (events.flatMap Event.exchanges)
  only : ∀ event ∈ events, ∃ chunk ∈ initial.waiting, ∃ deed,
    event = .task initial.stage chunk deed
  waiting : ∀ chunk ∈ pool.waiting, deeds initial.stage chunk events = []
  running : ∀ chunk task, (chunk, task) ∈ pool.running →
    deeds initial.stage chunk events = deedsOf (traces chunk)
  ended : ∀ chunk ending, (chunk, ending) ∈ pool.ended →
    deeds initial.stage chunk events = deedsOf (traces chunk) ++ [.finish ending]

namespace Record

variable {setting : Setting I σ} {initial pool pool' : Pool I} {origin : σ}
  {events : List (Event I)} {traces : ChunkIndex → List (Exchange I)} {world world' : World σ}

/-- One more event of a chunk. -/
theorem deeds_self_append (chunk : ChunkIndex) (stage : Stage) (deed : Deed I) :
    deeds stage chunk (events ++ [.task stage chunk deed]) =
      deeds stage chunk events ++ [deed] := by
  rw [deeds_append, deeds_self]

/-- The events of one chunk are nothing to another. -/
theorem deeds_append_of_ne {chunk other : ChunkIndex} (differs : chunk ≠ other) (stage : Stage)
    (deed : Deed I) :
    deeds stage other (events ++ [.task stage chunk deed]) = deeds stage other events := by
  rw [deeds_append, deeds_of_ne (fun same => differs same.2), List.append_nil]

/-- A chunk that is started. -/
theorem dispatch (distinct : initial.waiting.Nodup)
    (record : Record setting initial origin events traces pool world.state)
    {chunk : ChunkIndex} {rest : List ChunkIndex} (first : pool.waiting = chunk :: rest) :
    Record setting initial origin (events ++ [.task initial.stage chunk .start]) traces
      { pool with waiting := rest, running := pool.running ++ [(chunk, pool.work chunk)] }
      world.state := by
  have places := record.account.chunks.nodup_iff.mpr distinct
  rw [first, List.cons_append, List.cons_append, List.nodup_cons] at places
  have absent := places.1
  simp only [List.mem_append, List.mem_map, not_or, not_exists, not_and] at absent
  obtain ⟨⟨apartWaiting, apartRunning⟩, apartEnded⟩ := absent
  have waits : chunk ∈ pool.waiting := first ▸ List.mem_cons_self
  constructor
  case account =>
    rw [List.flatMap_append, List.flatMap_singleton]
    exact (List.append_nil _).symm ▸ record.account.dispatch
      (fun other _ => Task.ensures_lax setting.services _ origin) first
  case only =>
    refine List.forall_mem_append.mpr ⟨record.only, List.forall_mem_singleton.mpr ?_⟩
    exact ⟨chunk, record.account.mem_of_waiting waits, .start, rfl⟩
  case waiting =>
    intro other member
    have differs : chunk ≠ other := by
      rintro rfl
      exact apartWaiting member
    rw [deeds_append_of_ne differs]
    exact record.waiting other (first ▸ List.mem_cons_of_mem _ member)
  case running =>
    intro other task member
    rcases List.mem_append.mp member with old | new
    · rw [deeds_append_of_ne fun same => apartRunning _ old same.symm]
      exact record.running other task old
    · obtain ⟨rfl, rfl⟩ := Prod.mk.inj (List.mem_singleton.mp new)
      rw [deeds_self_append, record.waiting other waits, (record.account.waiting other waits).2]
      rfl
  case ended =>
    intro other ending member
    rw [deeds_append_of_ne fun same => apartEnded _ member same.symm]
    exact record.ended other ending member

section Running

variable {before after : List (ChunkIndex × Task I Ending)} {chunk : ChunkIndex}

/-- The running tasks but one, in a stage where that one has moved on. -/
theorem mem_running_of_split {task moved : Task I Ending} {other : ChunkIndex}
    {current : Task I Ending} (shape : pool.running = before ++ (chunk, task) :: after)
    (member : (other, current) ∈ before ++ (chunk, moved) :: after) :
    (other, current) = (chunk, moved) ∨
      (other, current) ∈ before ++ after ∧ (other, current) ∈ pool.running := by
  rw [shape]
  simp only [List.mem_append, List.mem_cons] at member ⊢
  tauto

/-- A task that has asked its next question. -/
theorem ask (distinct : initial.waiting.Nodup)
    (record : Record setting initial origin events traces pool world.state)
    {request : I.Request} {next : I.Answer request → Task I Ending}
    (shape : pool.running = before ++ (chunk, .ask request next) :: after)
    {service : Service I σ} (serves : setting.services service) :
    Record setting initial origin
      (events ++
        [.task initial.stage chunk (.ask ⟨request, (service.reply request world.state).answer⟩)])
      (Function.update traces chunk
        (traces chunk ++ [⟨request, (service.reply request world.state).answer⟩]))
      { pool with
        running := before ++ (chunk, next (service.reply request world.state).answer) :: after }
      (service.reply request world.state).state := by
  obtain ⟨apartWaiting, apartRunning, apartEnded⟩ :=
    record.account.ne_of_running distinct shape
  have own : (chunk, Task.ask request next) ∈ pool.running := by simp [shape]
  constructor
  case account =>
    rw [List.flatMap_append, List.flatMap_singleton]
    exact (record.account.ask (Conduct.compatible_lax _) distinct shape serves).2
  case only =>
    refine List.forall_mem_append.mpr ⟨record.only, List.forall_mem_singleton.mpr ?_⟩
    exact ⟨chunk, record.account.mem_of_running own, _, rfl⟩
  case waiting =>
    intro other member
    rw [deeds_append_of_ne (apartWaiting other member)]
    exact record.waiting other member
  case running =>
    intro other task member
    rcases mem_running_of_split shape member with same | ⟨others, old⟩
    · obtain ⟨rfl, rfl⟩ := Prod.mk.inj same
      rw [deeds_self_append, record.running other _ own, Function.update_self]
      simp [deedsOf]
    · have differs := apartRunning _ others
      rw [deeds_append_of_ne differs, Function.update_of_ne differs.symm]
      exact record.running other task old
  case ended =>
    intro other ending member
    have differs := apartEnded _ member
    rw [deeds_append_of_ne differs, Function.update_of_ne differs.symm]
    exact record.ended other ending member

/-- A task that has ended. -/
theorem conclude (distinct : initial.waiting.Nodup)
    (record : Record setting initial origin events traces pool world.state) {ending : Ending}
    (shape : pool.running = before ++ (chunk, .done ending) :: after) :
    Record setting initial origin (events ++ [.task initial.stage chunk (.finish ending)]) traces
      ({ pool with running := before ++ after }.conclude chunk ending world).1 world.state := by
  obtain ⟨apartWaiting, apartRunning, apartEnded⟩ :=
    record.account.ne_of_running distinct shape
  have own : (chunk, Task.done ending) ∈ pool.running := by simp [shape]
  constructor
  case account =>
    rw [List.flatMap_append, List.flatMap_singleton]
    exact (List.append_nil _).symm ▸ record.account.conclude shape world
  case only =>
    refine List.forall_mem_append.mpr ⟨record.only, List.forall_mem_singleton.mpr ?_⟩
    exact ⟨chunk, record.account.mem_of_running own, _, rfl⟩
  case waiting =>
    intro other member
    rw [deeds_append_of_ne (apartWaiting other member)]
    exact record.waiting other member
  case running =>
    intro other task member
    rw [deeds_append_of_ne (apartRunning _ member)]
    refine record.running other task ?_
    rw [shape]
    simp only [Pool.conclude, List.mem_append, List.mem_cons] at member ⊢
    tauto
  case ended =>
    intro other final member
    rcases List.mem_append.mp member with old | new
    · rw [deeds_append_of_ne (apartEnded _ old)]
      exact record.ended other final old
    · obtain ⟨rfl, rfl⟩ := Prod.mk.inj (List.mem_singleton.mp new)
      rw [deeds_self_append, record.running other _ own]

end Running

/-- **Every step of a stage keeps the record.** -/
theorem step (distinct : initial.waiting.Nodup)
    (record : Record setting initial origin events traces pool world.state) {event : Event I}
    (does : pool.Does setting.services world event pool' world') :
    ∃ traces', Record setting initial origin (events ++ [event]) traces' pool' world'.state := by
  have same := record.account.sameStage
  rcases does.cases with ⟨chunk, rest, first, rfl, rfl, rfl⟩ |
    ⟨before, chunk, request, next, after, service, serves, shape, rfl, rfl, rfl⟩ |
    ⟨before, chunk, ending, after, shape, rfl, concluded⟩
  · have kept := record.dispatch distinct first
    rw [← same] at kept
    exact ⟨traces, kept⟩
  · have kept := record.ask distinct shape serves
    rw [← same] at kept
    exact ⟨_, kept⟩
  · have kept := record.conclude distinct shape
    rw [← same] at kept
    cases concluded
    exact ⟨traces, kept⟩

end Record

end Pool

namespace Flow

variable {setting : Setting I σ} {stage : Stage} {chunks : List ChunkIndex}
  {work : ChunkIndex → Task I Ending} {world world' : World σ} {events : List (Event I)}

/-- What a stage has come to on the way to its result. -/
theorem Course.rest_of_pool (distinct : chunks.Nodup)
    {flow : Flow I (Except RunError StageSummary)}
    (course : Course setting Eq (ofPool (Pool.start stage chunks work)) world events flow world') :
    ∃ traces pool, Pool.Record setting (Pool.start stage chunks work) world.state events traces pool
        world'.state ∧
      (flow = .stage pool .done ∨ flow = .done pool.result ∧ pool.running = []) := by
  induction course with
  | start => 
    refine ⟨fun _ => [], _, ⟨.start _ _ _ stage chunks work world.state, ?_, ?_, ?_, ?_⟩, .inl rfl⟩
    · exact fun event member => absurd member List.not_mem_nil
    · exact fun chunk _ => rfl
    · exact fun chunk task member => absurd member List.not_mem_nil
    · exact fun chunk ending member => absurd member List.not_mem_nil
  | disturb _ allowed _ ih => exact allowed ▸ ih
  | step _ does ih =>
    obtain ⟨traces, pool, record, rfl | ⟨rfl, idle⟩⟩ := ih
    · cases does with
      | stage moved =>
        obtain ⟨traces', kept⟩ := record.step distinct moved
        exact ⟨traces', _, kept, .inl rfl⟩
      | settle settled =>
        rw [List.append_nil]
        refine ⟨traces, pool, record, .inr ⟨rfl, ?_⟩⟩
        simp only [Pool.isSettled, Bool.and_eq_true, List.isEmpty_iff] at settled
        exact settled.2
    · cases does

/-- **In a finished stage** every task is on record or was never started, nothing else has happened,
and an error is that of a task on record, or says that the stage was cut short. -/
theorem Course.of_pool (distinct : chunks.Nodup) {result : Except RunError StageSummary}
    (course : Course setting Eq (ofPool (Pool.start stage chunks work)) world events (.done result)
      world') :
    (∀ event ∈ events, ∃ chunk ∈ chunks, ∃ deed, event = .task stage chunk deed) ∧
      (∀ chunk, deeds stage chunk events = [] ∨
        ∃ ending, Recorded stage chunk (work chunk) events ending) ∧
      ∀ error, result = .error error → error = .cancelled stage ∨
        ∃ chunk ending, Pool.failure? stage ending = some error ∧
          Recorded stage chunk (work chunk) events ending := by
  obtain ⟨traces, pool, record, shape | ⟨shape, idle⟩⟩ := course.rest_of_pool distinct
  · cases shape
  cases shape
  have recorded (chunk : ChunkIndex) (ending : Ending) (member : (chunk, ending) ∈ pool.ended) :
      Recorded stage chunk (work chunk) events ending :=
    ⟨traces chunk, record.ended chunk ending member, (record.account.ended chunk ending member).2⟩
  refine ⟨record.only, fun chunk => ?_, fun error failed => ?_⟩
  · by_cases inside : chunk ∈ chunks
    · have places := record.account.places_of_idle idle
      rcases List.mem_append.mp (places.symm.subset inside) with waits | done
      · exact .inl (record.waiting chunk waits)
      · obtain ⟨⟨_, ending⟩, member, rfl⟩ := List.mem_map.mp done
        exact .inr ⟨ending, recorded _ ending member⟩
    · refine .inl (deeds_eq_nil fun deed member => inside ?_)
      obtain ⟨other, mine, _, same⟩ := record.only _ member
      cases same
      exact mine
  · have same := record.account.sameStage
    rcases Pool.result_eq_error.mp failed with ⟨_, ⟨chunk, ending⟩, _, shape, reason, -⟩ |
      ⟨-, -, rfl⟩
    · rw [same] at reason
      exact .inr ⟨chunk, ending, reason, recorded chunk ending (by simp [shape])⟩
    · exact .inl (congrArg _ same)

/-- A stage takes its result from a pool in which nothing runs. -/
theorem Course.settling {pool : Pool I} {flow : Flow I (Except RunError StageSummary)}
    (course : Course setting Eq (ofPool pool) world events flow world') :
    (∃ later, flow = .stage later .done) ∨
      ∃ later middle, Course setting Eq (ofPool pool) world events (.stage later .done) middle ∧
        middle.state = world'.state ∧ later.running = [] ∧ flow = .done later.result := by
  induction course with
  | start => exact .inl ⟨pool, rfl⟩
  | disturb _ allowed _ ih =>
    refine ih.imp_right fun ⟨later, middle, before, same, rest⟩ => ?_
    exact ⟨later, middle, before, same.trans allowed, rest⟩
  | step before does ih =>
    rcases ih with ⟨later, rfl⟩ | ⟨later, middle, _, _, _, rfl⟩
    · cases does with
      | stage moved => exact .inl ⟨_, rfl⟩
      | settle settled =>
        rw [List.append_nil]
        exact .inr ⟨later, _, before, rfl, List.isEmpty_iff.mp (Bool.and_eq_true_iff.mp settled).2,
          rfl⟩
    · cases does

/-- **A finished stage whose tasks make promises**: every task that was started has ended as it has
promised. -/
theorem Course.account_of_pool {whole : Conduct σ} {each : ChunkIndex → Conduct σ}
    {statement : ChunkIndex → Ending → σ → Prop} (compatible : whole.Compatible each chunks)
    (distinct : chunks.Nodup)
    (promises : ∀ chunk ∈ chunks, (work chunk).Ensures setting.services (each chunk)
      (statement chunk) world.state)
    (fires : world.cancelled = true → setting.interruptible)
    {result : Except RunError StageSummary}
    (course : Course setting Eq (ofPool (Pool.start stage chunks work)) world events (.done result)
      world') :
    (∀ chunk, .task stage chunk .start ∈ events → ∃ ending,
        .task stage chunk (.finish ending) ∈ events ∧ statement chunk ending world'.state) ∧
      ∃ traces pool, Pool.Account setting each statement (Pool.start stage chunks work) world.state
        traces pool world'.state (events.flatMap Event.exchanges) ∧
        pool.running = [] ∧ result = pool.result := by
  obtain ⟨_, never⟩ | ⟨pool, middle, before, same, idle, ended⟩ := course.settling
  · cases never
  cases ended
  obtain ⟨made, _, record, shape | ⟨never, -⟩⟩ := before.rest_of_pool distinct
  swap
  · cases never
  cases shape
  obtain ⟨traces, _, account, shape | ⟨never, -⟩⟩ := Path.account_of_pool compatible distinct
    promises fires (before.path.mono fun _ _ same => same ▸ whole.rely_refl _)
  swap
  · cases never
  cases shape
  rw [same] at account
  refine ⟨fun chunk started => ?_, traces, pool, account, idle, rfl⟩
  have active : .start ∈ deeds stage chunk events := mem_deeds.mpr started
  obtain ⟨part, inside, _, own⟩ := record.only _ started
  cases own
  rcases List.mem_append.mp ((record.account.places_of_idle idle).symm.subset inside) with
    waits | done
  · rw [show deeds stage chunk events = [] from record.waiting chunk waits] at active
    cases active
  · obtain ⟨⟨_, ending⟩, member, rfl⟩ := List.mem_map.mp done
    refine ⟨ending, mem_deeds.mp ?_, (account.ended _ ending member).1 _ ((each _).rely_refl _)⟩
    rw [show deeds stage _ events = _ from record.ended _ ending member]
    exact List.mem_append_right _ (List.mem_singleton_self _)

end Flow

end Transcode
