/-
**A stage accounts for its tasks.** A stage dispatches its chunks one after another and then waits
for the tasks it has started. Their ends are joined in an order of their own; the first failure
among them is the one that the stage reports.

* `Gathering` is a stage with the ends that it has joined so far, and `Gathering.Step` what may
  happen next: a task is started, asks or ends, an end is joined, the token fires, or permits come
  and go. `Gathering.History` is any sequence of such steps.
* `Gathering.Books` is the invariant: which chunks were started, which tasks ended and which ends
  were joined is all to be read from what happened. Every step keeps it (`Books.step`).
* A closed stage stays closed (`Step.isClosed`) and starts nothing (`History.started_eq_nil`).
* `Gathering.exists_return` — every stage can come to its return.
* `Gathering.accounts_for_every_task` puts the books and the result together.
-/
import Transcode.Proofs.Schedule.Record
import Transcode.Proofs.Schedule.Termination
import Transcode.Schedule.Drill

namespace Transcode

variable {I : Interface} {σ : Type}

/-! ### What happens in a stage -/

/-- What is on record of a step of a stage. -/
inductive Notice (I : Interface) where
  /-- A task does something. -/
  | work (event : Event I)
  /-- The stage joins a task that has ended. -/
  | join (chunk : ChunkIndex) (ending : Ending)

namespace Notice

/-- The chunks that were started, in order. -/
def started (notices : List (Notice I)) : List ChunkIndex :=
  notices.filterMap fun
    | .work (.task _ chunk .start) => some chunk
    | _ => none

/-- The tasks that ended, in order. -/
def ended (notices : List (Notice I)) : List (ChunkIndex × Ending) :=
  notices.filterMap fun
    | .work (.task _ chunk (.finish ending)) => some (chunk, ending)
    | _ => none

/-- The tasks that were joined, in order. -/
def joined (notices : List (Notice I)) : List (ChunkIndex × Ending) :=
  notices.filterMap fun
    | .join chunk ending => some (chunk, ending)
    | _ => none

theorem started_append (notices more : List (Notice I)) :
    started (notices ++ more) = started notices ++ started more :=
  List.filterMap_append ..

end Notice

/-- A stage with the ends that it has joined, in order. -/
structure Gathering (I : Interface) where
  pool : Pool I
  gathered : List (ChunkIndex × Ending)

namespace Gathering

open Notice

/-- A stage before anything is started. -/
def start (stage : Stage) (chunks : List ChunkIndex) (work : ChunkIndex → Task I Ending) :
    Gathering I :=
  ⟨Pool.start stage chunks work, []⟩

/-- **One step of a stage.** Its tasks are joined, in any order, once no chunk is to be started any
more. Permits and the state may change under its hands, and the token may fire. -/
inductive Step (services : Service I σ → Prop) (gathering : Gathering I) (world : World σ) :
    List (Notice I) → Gathering I → World σ → Prop
  | work {event : Event I} {pool' : Pool I} {world' : World σ}
      (does : gathering.pool.Does services world event pool' world') :
      Step services gathering world [.work event] ⟨pool', gathering.gathered⟩ world'
  | join {chunk : ChunkIndex} {ending : Ending} {rest : List (ChunkIndex × Ending)}
      (closed : gathering.pool.isClosed world = true)
      (outstanding : gathering.pool.ended.Perm (gathering.gathered ++ (chunk, ending) :: rest)) :
      Step services gathering world [.join chunk ending]
        ⟨gathering.pool, gathering.gathered ++ [(chunk, ending)]⟩ world
  | fire : Step services gathering world [] gathering { world with cancelled := true }
  | others {world' : World σ} (same : world'.cancelled = world.cancelled) :
      Step services gathering world [] gathering world'

/-- **Any sequence of steps of a stage**, with what is on record of them. -/
inductive History (services : Service I σ → Prop) (gathering : Gathering I) (world : World σ) :
    List (Notice I) → Gathering I → World σ → Prop
  | start : History services gathering world [] gathering world
  | step {notices now : List (Notice I)} {gathering' gathering'' : Gathering I}
      {world' world'' : World σ}
      (history : History services gathering world notices gathering' world')
      (step : Step services gathering' world' now gathering'' world'') :
      History services gathering world (notices ++ now) gathering'' world''

/-- The stage returns: no chunk is to be started, no task is under way, and every end is joined.
The result goes by the ends in the order in which they were joined. -/
structure Returns (gathering : Gathering I) (world : World σ)
    (result : Except RunError StageSummary) : Prop where
  settled : gathering.pool.isSettled world = true
  complete : gathering.gathered.Perm gathering.pool.ended
  value : result = { gathering.pool with ended := gathering.gathered }.result

variable {services : Service I σ → Prop} {gathering gathering' : Gathering I}
  {world world' : World σ} {notices : List (Notice I)}

theorem History.append (history : History services gathering world notices gathering' world')
    {more : List (Notice I)} {gathering'' : Gathering I} {world'' : World σ}
    (further : History services gathering' world' more gathering'' world'') :
    History services gathering world (notices ++ more) gathering'' world'' := by
  induction further with
  | start => rwa [List.append_nil]
  | step _ step ih =>
    rw [← List.append_assoc]
    exact ih.step step

/-! ### Closed stages -/

/-- **A closed stage stays closed.** -/
theorem Step.isClosed {now : List (Notice I)}
    (step : Step services gathering world now gathering' world')
    (closed : gathering.pool.isClosed world = true) :
    gathering'.pool.isClosed world' = true := by
  cases step with
  | work does =>
    rcases does.cases with ⟨chunk, rest, shape, rfl, rfl, rfl⟩ |
      ⟨before, chunk, request, next, after, service, _, _, _, rfl, rfl⟩ |
      ⟨before, chunk, ending, after, _, _, concluded⟩
    · cases does with
      | start _ started =>
        rw [Pool.isClosed_of_dispatch started] at closed
        cases closed
    · simp only [Pool.isClosed, World.serve, Bool.or_eq_true] at closed ⊢
      exact closed.imp_right Or.inl
    · cases concluded
      simp only [Pool.isClosed, World.release, Bool.or_eq_true] at closed ⊢
      exact closed.imp_left (Or.imp_right Or.inl)
  | join => exact closed
  | fire => simp [Pool.isClosed]
  | others same => simpa [Pool.isClosed, same] using closed

/-- **A closed stage starts nothing.** -/
theorem History.started_eq_nil
    (history : History services gathering world notices gathering' world')
    (closed : gathering.pool.isClosed world = true) :
    started notices = [] ∧ gathering'.pool.isClosed world' = true := by
  induction history with
  | start => exact ⟨rfl, closed⟩
  | step _ step ih =>
    refine ⟨?_, step.isClosed ih.2⟩
    rw [started_append, ih.1, List.nil_append]
    cases step with
    | work does =>
      cases does with
      | start first dispatched =>
        rw [Pool.isClosed_of_dispatch dispatched] at ih
        cases ih.2
      | ask => rfl
      | finish => rfl
    | join => rfl
    | fire => rfl
    | others => rfl

/-! ### The books of a stage -/

/-- **What a stage knows of its tasks** is what is on record of them. -/
structure Books (stage : Stage) (chunks : List ChunkIndex) (notices : List (Notice I))
    (gathering : Gathering I) : Prop where
  sameStage : gathering.pool.stage = stage
  dispatched : started notices ++ gathering.pool.waiting = chunks
  finished : ended notices = gathering.pool.ended
  joins : joined notices = gathering.gathered
  tasks : (gathering.pool.running.map Prod.fst ++ gathering.pool.ended.map Prod.fst).Perm
    (started notices)
  outstanding : ∃ rest, gathering.pool.ended.Perm (gathering.gathered ++ rest)
  halted : gathering.pool.halted = true ↔
    ∃ chunk error, (chunk, .failed error) ∈ gathering.pool.ended

namespace Books

variable {stage : Stage} {chunks : List ChunkIndex}

theorem start (stage : Stage) (chunks : List ChunkIndex) (work : ChunkIndex → Task I Ending) :
    Books stage chunks [] (Gathering.start stage chunks work) where
  sameStage := rfl
  dispatched := rfl
  finished := rfl
  joins := rfl
  tasks := .refl _
  outstanding := ⟨[], .refl _⟩
  halted := by simp [Gathering.start, Pool.start]

/-- A chunk is started. -/
theorem dispatch (books : Books stage chunks notices gathering) {chunk : ChunkIndex}
    {rest : List ChunkIndex} (shape : gathering.pool.waiting = chunk :: rest) :
    Books stage chunks (notices ++ [.work (.task gathering.pool.stage chunk .start)])
      ⟨{ gathering.pool with
          waiting := rest
          running := gathering.pool.running ++ [(chunk, gathering.pool.work chunk)] },
        gathering.gathered⟩ where
  sameStage := books.sameStage
  dispatched := by simpa [started, shape] using books.dispatched
  finished := by simpa [ended] using books.finished
  joins := by simpa [joined] using books.joins
  tasks := by
    rw [started_append, List.map_append, List.append_assoc]
    exact List.perm_middle.trans
      ((books.tasks.cons chunk).trans (List.perm_append_singleton chunk _).symm)
  outstanding := books.outstanding
  halted := books.halted

/-- A task asks. -/
theorem ask (books : Books stage chunks notices gathering)
    {before after : List (ChunkIndex × Task I Ending)} {chunk : ChunkIndex}
    {task later : Task I Ending} (shape : gathering.pool.running = before ++ (chunk, task) :: after)
    (exchange : Exchange I) :
    Books stage chunks (notices ++ [.work (.task gathering.pool.stage chunk (.ask exchange))])
      ⟨{ gathering.pool with running := before ++ (chunk, later) :: after },
        gathering.gathered⟩ where
  sameStage := books.sameStage
  dispatched := by simpa [started] using books.dispatched
  finished := by simpa [ended] using books.finished
  joins := by simpa [joined] using books.joins
  tasks := by simpa [started, shape] using books.tasks
  outstanding := books.outstanding
  halted := books.halted

/-- A task ends. -/
theorem finish (books : Books stage chunks notices gathering)
    {before after : List (ChunkIndex × Task I Ending)} {chunk : ChunkIndex} {task : Task I Ending}
    (shape : gathering.pool.running = before ++ (chunk, task) :: after) (ending : Ending)
    (world : World σ) :
    Books stage chunks (notices ++ [.work (.task gathering.pool.stage chunk (.finish ending))])
      ⟨({ gathering.pool with running := before ++ after }.conclude chunk ending world).1,
        gathering.gathered⟩ where
  sameStage := books.sameStage
  dispatched := by simpa [started, Pool.conclude] using books.dispatched
  finished := by simpa [ended, Pool.conclude] using books.finished
  joins := by simpa [joined] using books.joins
  tasks := by
    have tasks := books.tasks
    rw [shape, List.map_append, List.map_cons, List.append_assoc] at tasks
    simp only [Pool.conclude, started_append, List.map_append, List.append_assoc]
    refine List.Perm.trans (.append_left _ ?_) (tasks.trans (.of_eq (List.append_nil _).symm))
    rw [← List.append_assoc]
    exact List.perm_append_singleton chunk _
  outstanding := by
    obtain ⟨rest, outstanding⟩ := books.outstanding
    refine ⟨rest ++ [(chunk, ending)], ?_⟩
    rw [← List.append_assoc]
    exact outstanding.append_right _
  halted := by
    cases ending with
    | finished outcome => simpa [Pool.conclude] using books.halted
    | failed error =>
      exact ⟨fun _ => ⟨chunk, error, List.mem_append_right _ (List.mem_singleton_self _)⟩,
        fun _ => Bool.or_true _⟩
    | panicked => simpa [Pool.conclude] using books.halted

/-- **Every step keeps the books.** -/
theorem step (books : Books stage chunks notices gathering) {now : List (Notice I)}
    (step : Step services gathering world now gathering' world') :
    Books stage chunks (notices ++ now) gathering' := by
  cases step with
  | work does =>
    rcases does.cases with ⟨chunk, waiting, shape, rfl, -, rfl⟩ |
      ⟨before, chunk, request, next, after, service, -, shape, rfl, -, rfl⟩ |
      ⟨before, chunk, ending, after, shape, rfl, concluded⟩
    · exact books.dispatch shape
    · exact books.ask shape _
    · cases concluded
      exact books.finish shape ending world
  | @join chunk ending rest closed next =>
    exact {
      sameStage := books.sameStage
      dispatched := by simpa [started] using books.dispatched
      finished := by simpa [ended] using books.finished
      joins := by simpa [joined] using books.joins
      tasks := by simpa [started] using books.tasks
      outstanding := ⟨rest, by simpa using next⟩
      halted := books.halted }
  | fire => rwa [List.append_nil]
  | others same => rwa [List.append_nil]

/-- **The books are kept in every history.** -/
theorem of_history {work : ChunkIndex → Task I Ending}
    (history : History services (Gathering.start stage chunks work) world notices gathering
      world') :
    Books stage chunks notices gathering := by
  induction history with
  | start => exact start stage chunks work
  | step _ step ih => exact ih.step step

end Books

/-! ### Every stage returns -/

/-- A stage that is further on by a step of its own. -/
def Follows (later gathering : Gathering I) : Prop :=
  Prod.Lex Pool.Follows (· < ·)
    (later.pool, later.pool.ended.length - later.gathered.length)
    (gathering.pool, gathering.pool.ended.length - gathering.gathered.length)

theorem follows_wellFounded : WellFounded (Follows : Gathering I → Gathering I → Prop) :=
  InvImage.wf (fun gathering : Gathering I =>
    (gathering.pool, gathering.pool.ended.length - gathering.gathered.length))
    (WellFounded.prod_lex Pool.follows_wellFounded Nat.lt_wfRel.wf)

/-- **Every stage can come to its return**, if a permit is free or a task of its own holds one. -/
theorem exists_return (served : ∃ service, services service) {stage : Stage}
    {chunks : List ChunkIndex} (books : Books stage chunks notices gathering)
    (permits : 0 < world.free + gathering.pool.running.length) :
    ∃ more final last result, History services gathering world more final last ∧
      final.Returns last result := by
  -- As long as the pool can move, it does; once it has settled, what is left to join gets less.
  induction gathering using follows_wellFounded.induction generalizing notices world with
  | _ gathering ih =>
    obtain ⟨trace, later, world', step⟩ : ∃ trace later world',
        Flow.Step services (.stage gathering.pool Flow.done) world trace later world' :=
      Flow.exists_step served permits nofun
    have further := step.permits permits
    cases step with
    | stage moved =>
      obtain ⟨event, does, rfl⟩ := moved.does
      have own : Step services gathering world [.work event] _ _ := .work does
      obtain ⟨more, final, last, result, history, returns⟩ :=
        ih _ (Prod.Lex.left _ _ moved.follows) (books.step own) further
      exact ⟨_, final, last, result, (History.start.step own).append history, returns⟩
    | settle settled =>
      obtain ⟨rest, outstanding⟩ := books.outstanding
      cases rest with
      | nil =>
        rw [List.append_nil] at outstanding
        exact ⟨[], gathering, world, _, .start, settled, outstanding.symm, rfl⟩
      | cons entry rest =>
        have closed := (Bool.and_eq_true_iff.mp settled).1
        have own : Step services gathering world [.join entry.1 entry.2] _ _ :=
          .join closed outstanding
        have fewer : gathering.pool.ended.length - (gathering.gathered ++ [entry]).length <
            gathering.pool.ended.length - gathering.gathered.length := by
          have length := outstanding.length_eq
          simp only [List.length_append, List.length_cons, List.length_nil] at length ⊢
          omega
        obtain ⟨more, final, last, result, history, returns⟩ :=
          ih ⟨gathering.pool, gathering.gathered ++ [entry]⟩ (Prod.Lex.right _ fewer)
            (books.step own) permits
        exact ⟨_, final, last, result, (History.start.step own).append history, returns⟩

/-! ### What a stage returns -/

/-- **The account of a stage** at its return: what its result says of the tasks. -/
structure Accounts (stage : Stage) (chunks : List ChunkIndex) (notices : List (Notice I))
    (cancelled : Bool) (result : Except RunError StageSummary) : Prop where
  /-- Every task that was started has ended, and has done so once. -/
  ends : ((ended notices).map Prod.fst).Perm (started notices)
  /-- Every end was joined, and was so once. -/
  joins : (joined notices).Perm (ended notices)
  /-- The stage succeeds if every chunk was started and every task has finished. -/
  succeeds : (∃ summary, result = .ok summary) ↔
    started notices = chunks ∧ ∀ entry ∈ ended notices, ∃ outcome, entry.2 = .finished outcome
  /-- The summary counts the outcomes, and every chunk is counted once. -/
  counts : ∀ summary, result = .ok summary →
    summary.stage = stage ∧
    summary.completed = (ended notices).countP (fun entry => entry.2 = .finished .completed) ∧
    summary.skipped = (ended notices).countP (fun entry => entry.2 = .finished .skipped) ∧
    summary.completed + summary.skipped = chunks.length
  /-- The stage fails with the error of the first task joined that has one, a panic counting as an
  internal error; or no task failed, and the token has fired before every chunk was started. -/
  fails : ∀ error, result = .error error →
    (∃ before chunk ending after, joined notices = before ++ (chunk, ending) :: after ∧
      (ending = .failed error ∨ ending = .panicked ∧ error = .internal (.taskPanicked stage)) ∧
      ∀ earlier ∈ before, ∃ outcome, earlier.2 = .finished outcome) ∨
    (error = .cancelled stage ∧
      (∀ entry ∈ ended notices, ∃ outcome, entry.2 = .finished outcome) ∧
      cancelled = true ∧ started notices ≠ chunks)

/-- **The books of a stage that returns** are what its result goes by. -/
theorem Books.accounts {stage : Stage} {chunks : List ChunkIndex}
    (books : Books stage chunks notices gathering) {result : Except RunError StageSummary}
    (returns : gathering.Returns world result) :
    Accounts stage chunks notices world.cancelled result := by
  obtain ⟨settled, complete, value⟩ := returns
  obtain ⟨closed, idle⟩ := Bool.and_eq_true_iff.mp settled
  have tasks := books.tasks
  rw [List.isEmpty_iff.mp idle, List.map_nil, List.nil_append, ← books.finished] at tasks
  have joins : (joined notices).Perm (ended notices) := by rwa [books.joins, books.finished]
  have all : gathering.pool.waiting = [] ↔ started notices = chunks := by
    rw [← books.dispatched, List.self_eq_append_right]
  have fine : (∀ entry ∈ gathering.gathered, Pool.failure? gathering.pool.stage entry.2 = none) ↔
      ∀ entry ∈ ended notices, ∃ outcome, entry.2 = .finished outcome := by
    simp only [← books.joins, joins.mem_iff, Pool.failure?_eq_none]
  subst value
  refine ⟨tasks, joins, ?_, fun summary succeeded => ?_, fun error failed => ?_⟩
  · rw [← all, ← fine]
    constructor
    · rintro ⟨summary, succeeded⟩
      obtain ⟨finished, none, -⟩ := Pool.result_eq_ok.mp succeeded
      exact ⟨none, finished⟩
    · rintro ⟨none, finished⟩
      exact ⟨_, Pool.result_eq_ok.mpr ⟨finished, none, rfl⟩⟩
  · obtain ⟨finished, none, rfl⟩ := Pool.result_eq_ok.mp succeeded
    have counted (outcome : Outcome) :
        { gathering.pool with ended := gathering.gathered }.count outcome =
          (ended notices).countP fun entry => entry.2 = .finished outcome := by
      rw [← joins.countP_eq, books.joins, Pool.count]
    have length : gathering.gathered.length = chunks.length := by
      rw [← all.mp none, ← tasks.length_eq, List.length_map, ← joins.length_eq, books.joins]
    exact ⟨books.sameStage, counted _, counted _, (Pool.count_add_count finished).trans length⟩
  · rcases Pool.result_eq_error.mp failed with
      ⟨before, ⟨chunk, ending⟩, after, shape, reason, finished⟩ | ⟨finished, incomplete, rfl⟩
    · refine .inl ⟨before, chunk, ending, after, books.joins.trans shape, ?_,
        fun earlier member => ?_⟩
      · rw [← books.sameStage]
        exact Pool.failure?_eq_some.mp reason
      · exact Pool.failure?_eq_none.mp (finished earlier member)
    · refine .inr ⟨congrArg _ books.sameStage, fine.mp finished, ?_, mt all.mpr incomplete⟩
      -- Chunks are left and no task has failed, so it was the token that closed the stage.
      have unhalted : gathering.pool.halted ≠ true := by
        rw [ne_eq, books.halted]
        rintro ⟨chunk, error, member⟩
        obtain ⟨outcome, ⟨⟩⟩ := fine.mp finished _ (books.finished ▸ member)
      simpa [Pool.isClosed, unhalted, incomplete] using closed

/-- **Every stage accounts for its tasks**, whatever they do and in whatever order things happen.
The chunks that are started are the first ones of the list, each once. Once the token has fired or a
task has failed, none is started any more. What the stage returns says how its tasks ended, and it
can return from wherever it has got to. -/
theorem accounts_for_every_task (stage : Stage) (chunks : List ChunkIndex)
    (work : ChunkIndex → Task I Ending) {early late : List (Notice I)}
    {middle final : Gathering I} {between last : World σ}
    (before : History services (start stage chunks work) world early middle between)
    (after : History services middle between late final last) :
    started (early ++ late) <+: chunks ∧
    ((between.cancelled = true ∨ ∃ chunk error, (chunk, .failed error) ∈ ended early) →
      started late = []) ∧
    (∀ result, final.Returns last result →
      Accounts stage chunks (early ++ late) last.cancelled result) ∧
    ((∃ service, services service) → 0 < last.free + final.pool.running.length →
      ∃ more closing last' result, History services final last more closing last' ∧
        closing.Returns last' result) := by
  have books : Books stage chunks (early ++ late) final := .of_history (before.append after)
  refine ⟨⟨_, books.dispatched⟩, fun stopped => ?_, fun result => books.accounts,
    fun served => exists_return served books⟩
  refine (after.started_eq_nil ?_).1
  have sofar : Books stage chunks early middle := .of_history before
  rw [sofar.finished, ← sofar.halted] at stopped
  rcases stopped with fired | halted
  · simp [Pool.isClosed, fired]
  · simp [Pool.isClosed, halted]

/-- The token fires while the first of two chunks is under way: it is finished and joined, and the
stage reports that it was cut short. -/
theorem accounts_for_every_task_drill :
    ∃ (early late : List (Notice Drill.interface)) (middle final : Gathering Drill.interface)
      (between last : World (List ChunkIndex)),
      History (· = Drill.service)
        (start .baselineEncode [0, 1] fun chunk => Drill.task chunk (.finish .completed))
        (World.fresh 1 []) early middle between ∧
      History (· = Drill.service) middle between late final last ∧
      between.cancelled = true ∧ started early = [0] ∧ started late = [] ∧
      final.Returns last (.error (.cancelled .baselineEncode)) ∧
      Accounts .baselineEncode [0, 1] (early ++ late) true
        (.error (.cancelled .baselineEncode)) := by
  have outset : History (· = Drill.service)
    (start .baselineEncode [0, 1] fun chunk => Drill.task chunk (.finish .completed))
    (World.fresh 1 []) [] _ _ := .start
  have early := ((outset.step (.work (.start rfl rfl))).step
    (.work (.ask rfl (show _[0]? = some _ from rfl) rfl))).step .fire
  have onward : History (· = Drill.service)
    ⟨⟨.baselineEncode, fun chunk => Drill.task chunk (.finish .completed), [1],
      [(0, .done (.finished .completed))], [], false⟩, []⟩
    (⟨0, true, [0]⟩ : World (List ChunkIndex)) [] _ _ := .start
  have late := (onward.step (.work (.finish rfl (show _[0]? = some _ from rfl) rfl))).step
    (.join rfl (show List.Perm _ ([] ++ (0, .finished .completed) :: []) from .refl _))
  obtain ⟨-, stops, accounts, -⟩ := accounts_for_every_task _ _ _ early late
  exact ⟨_, _, _, _, _, _, early, late, rfl, rfl, stops (.inl rfl), ⟨rfl, .refl _, rfl⟩,
    accounts _ ⟨rfl, .refl _, rfl⟩⟩

end Gathering

end Transcode
