/-
**The loop that dispatches a stage**, taken apart at every place where it may be overtaken. For each
chunk it waits for a permit, looks at the token of its stage once more with the permit in hand, and
then either spawns the task or gives the permit back. Only when it has left this loop does it join
its tasks, and only where a panic is joined does the panic fire the token of the stage.

* `Dispatcher` is a stage with the place its loop is at (`Phase`), `Dispatcher.Step` what it may do
  next, and `Dispatcher.History` any sequence of such steps, together with what others do to the
  world.
* `Dispatcher.Sound` is the invariant of a loop: nothing is joined while it dispatches, and it stops
  dispatching for good.
* `Dispatcher.History.gathering` — taken together, the steps of a loop are steps of a `Gathering`,
  so the books of a stage are kept here too.
* `Dispatcher.stops_after_panic_iff` — a panic by itself stops no dispatch.
-/
import Transcode.Proofs.Schedule.Gathering

namespace Transcode

variable {I : Interface} {σ : Type}

/-- Where the loop of a stage is. -/
inductive Phase where
  /-- It waits for a permit for its next chunk. -/
  | dispatching
  /-- It holds a permit for which no task is spawned yet. -/
  | holding
  /-- It joins the tasks that it has spawned. -/
  | joining
  deriving DecidableEq, Repr

/-- A stage with the place its loop is at. -/
structure Dispatcher (I : Interface) where
  gathering : Gathering I
  phase : Phase

namespace Dispatcher

open Notice

/-- A stage whose loop is about to begin. -/
def start (stage : Stage) (chunks : List ChunkIndex) (work : ChunkIndex → Task I Ending) :
    Dispatcher I :=
  ⟨.start stage chunks work, .dispatching⟩

/-- The stage that is dispatched. -/
def pool (loop : Dispatcher I) : Pool I :=
  loop.gathering.pool

/-- Whether the token of the stage has fired: a task has failed, a panic was joined, or the token of
the run has fired. -/
def stopped (loop : Dispatcher I) (world : World σ) : Bool :=
  loop.pool.halted || loop.gathering.gathered.any (fun (_, ending) => ending = .panicked) ||
    world.cancelled

/-! ### Steps of the loop -/

/-- **One step of a stage**, of its loop or of one of its tasks. -/
inductive Step (services : Service I σ → Prop) (loop : Dispatcher I) (world : World σ) :
    List (Notice I) → Dispatcher I → World σ → Prop
  /-- The loop gets a permit for its next chunk. -/
  | acquire (waits : loop.phase = .dispatching) (more : loop.pool.waiting ≠ [])
      (free : 0 < world.free) :
      Step services loop world [] ⟨loop.gathering, .holding⟩ world.acquire
  /-- The permit goes to the task of the chunk. -/
  | spawn {chunk : ChunkIndex} {pool' : Pool I} {world' : World σ}
      (holds : loop.phase = .holding) (unstopped : loop.stopped world = false)
      (does : loop.pool.Does services world.release (.task loop.pool.stage chunk .start) pool'
        world') :
      Step services loop world [.work (.task loop.pool.stage chunk .start)]
        ⟨⟨pool', loop.gathering.gathered⟩, .dispatching⟩ world'
  /-- The token has fired in the meantime: the permit is given back. -/
  | giveBack (holds : loop.phase = .holding) (stops : loop.stopped world = true) :
      Step services loop world [] ⟨loop.gathering, .joining⟩ world.release
  /-- Every chunk has its task, or the token has fired. -/
  | stop (waits : loop.phase = .dispatching)
      (finished : loop.pool.waiting = [] ∨ loop.stopped world = true) :
      Step services loop world [] ⟨loop.gathering, .joining⟩ world
  /-- A task asks, or ends and gives its permit back. -/
  | work {chunk : ChunkIndex} {deed : Deed I} {pool' : Pool I} {world' : World σ}
      (started : deed ≠ .start)
      (does : loop.pool.Does services world (.task loop.pool.stage chunk deed) pool' world') :
      Step services loop world [.work (.task loop.pool.stage chunk deed)]
        ⟨⟨pool', loop.gathering.gathered⟩, loop.phase⟩ world'
  /-- A task that has ended is joined. -/
  | join {chunk : ChunkIndex} {ending : Ending} {rest : List (ChunkIndex × Ending)}
      (joins : loop.phase = .joining)
      (outstanding : loop.pool.ended.Perm (loop.gathering.gathered ++ (chunk, ending) :: rest)) :
      Step services loop world [.join chunk ending]
        ⟨⟨loop.pool, loop.gathering.gathered ++ [(chunk, ending)]⟩, .joining⟩ world

/-- **Any sequence of steps of a stage**, with what is on record of them. In between others may take
and give back permits and change the state, and the token of the run may fire. -/
inductive History (services : Service I σ → Prop) (loop : Dispatcher I) (world : World σ) :
    List (Notice I) → Dispatcher I → World σ → Prop
  | start : History services loop world [] loop world
  | step {notices now : List (Notice I)} {loop' loop'' : Dispatcher I} {world' world'' : World σ}
      (history : History services loop world notices loop' world')
      (step : Step services loop' world' now loop'' world'') :
      History services loop world (notices ++ now) loop'' world''
  | fire {notices : List (Notice I)} {loop' : Dispatcher I} {world' : World σ}
      (history : History services loop world notices loop' world') :
      History services loop world notices loop' { world' with cancelled := true }
  | others {notices : List (Notice I)} {loop' : Dispatcher I} {world' world'' : World σ}
      (history : History services loop world notices loop' world')
      (same : world''.cancelled = world'.cancelled) :
      History services loop world notices loop' world''

variable {services : Service I σ → Prop} {loop loop' : Dispatcher I} {world world' : World σ}
  {notices : List (Notice I)}

/-! ### What holds of a loop at every moment -/

/-- **What holds of a loop at every moment.** -/
structure Sound (loop : Dispatcher I) (world : World σ) : Prop where
  /-- Nothing is joined while chunks are dispatched. -/
  unjoined : loop.phase ≠ .joining → loop.gathering.gathered = []
  /-- Where tasks are joined, no chunk will be started any more. -/
  closed : loop.phase = .joining → loop.pool.isClosed world = true
  /-- A permit in hand is for a chunk. -/
  purpose : loop.phase = .holding → loop.pool.waiting ≠ []

theorem sound_start (stage : Stage) (chunks : List ChunkIndex) (work : ChunkIndex → Task I Ending)
    (world : World σ) : (start stage chunks work).Sound world :=
  ⟨fun _ => rfl, nofun, nofun⟩

/-- While chunks are dispatched, the token of the stage fires only for a failed task or with the
token of the run. -/
theorem Sound.stopped_eq (sound : loop.Sound world) (unjoined : loop.phase ≠ .joining) :
    loop.stopped world = (loop.pool.halted || world.cancelled) := by
  simp [stopped, sound.unjoined unjoined]

/-- A loop that has stopped is over. -/
theorem Sound.isClosed_of_stopped (sound : loop.Sound world) (unjoined : loop.phase ≠ .joining)
    (stops : loop.stopped world = true) : loop.pool.isClosed world = true := by
  rw [sound.stopped_eq unjoined] at stops
  rw [Pool.isClosed, Bool.or_assoc, stops, Bool.or_true]

/-- What a task does in between leaves the waiting chunks alone. -/
theorem waiting_of_does {pool pool' : Pool I} {chunk : ChunkIndex} {deed : Deed I}
    (started : deed ≠ .start)
    (does : pool.Does services world (.task pool.stage chunk deed) pool' world') :
    pool'.waiting = pool.waiting := by
  rcases does.cases with ⟨_, _, _, same, _⟩ | ⟨_, _, _, _, _, _, _, _, _, _, rfl⟩ |
    ⟨_, _, _, _, _, _, concluded⟩
  · cases same
    exact absurd rfl started
  · rfl
  · cases concluded
    rfl

/-- **Every step of a loop is a few steps of its stage**, and leaves the loop sound. -/
theorem Step.gathering {now : List (Notice I)} (sound : loop.Sound world)
    (step : Step services loop world now loop' world') :
    Gathering.History services loop.gathering world now loop'.gathering world' ∧
      loop'.Sound world' := by
  have here : Gathering.History services loop.gathering world [] loop.gathering world := .start
  cases step with
  | acquire waits more free =>
    exact ⟨here.step (.others rfl), fun _ => sound.unjoined (by simp [waits]),
      (fun joins => by cases joins), fun _ => more⟩
  | spawn holds unstopped does =>
    have unjoined := sound.unjoined (by simp [holds])
    have released : Gathering.History services loop.gathering world [] loop.gathering
      world.release := here.step (.others rfl)
    exact ⟨released.step (.work does), fun _ => unjoined, (fun joins => by cases joins),
      (fun holds => by cases holds)⟩
  | giveBack holds stops =>
    refine ⟨here.step (.others rfl), fun unjoined => absurd rfl unjoined, fun _ => ?_,
      (fun holds => by cases holds)⟩
    exact sound.isClosed_of_stopped (by simp [holds]) stops
  | stop waits finished =>
    refine ⟨here, fun unjoined => absurd rfl unjoined, fun _ => ?_,
      fun holds => by cases holds⟩
    rcases finished with done | stops
    · have done : loop.gathering.pool.waiting = [] := done
      simp [pool, Pool.isClosed, done]
    · exact sound.isClosed_of_stopped (by simp [waits]) stops
  | work started does =>
    have step : Gathering.Step services loop.gathering world _ _ _ := .work does
    refine ⟨here.step step, sound.unjoined, fun joins => ?_, fun holds => ?_⟩
    · exact step.isClosed (sound.closed joins)
    · exact (waiting_of_does started does).symm ▸ sound.purpose holds
  | join joins outstanding =>
    exact ⟨here.step (.join (sound.closed joins) outstanding), fun unjoined => absurd rfl unjoined,
      fun _ => sound.closed joins, fun holds => by cases holds⟩

/-- **The history of a loop is one of its stage**, with the same on record. -/
theorem History.gathering (sound : loop.Sound world)
    (history : History services loop world notices loop' world') :
    Gathering.History services loop.gathering world notices loop'.gathering world' ∧
      loop'.Sound world' := by
  induction history with
  | start => exact ⟨.start, sound⟩
  | step _ step ih =>
    obtain ⟨own, later⟩ := step.gathering ih.2
    exact ⟨ih.1.append own, later⟩
  | fire _ ih =>
    obtain ⟨history, sound⟩ := ih
    have step := history.step .fire
    rw [List.append_nil] at step
    exact ⟨step, sound.unjoined, fun _ => by simp [Pool.isClosed], sound.purpose⟩
  | others _ same ih =>
    obtain ⟨history, sound⟩ := ih
    have step := history.step (.others same)
    rw [List.append_nil] at step
    refine ⟨step, sound.unjoined, fun joins => ?_, sound.purpose⟩
    simpa [Pool.isClosed, same] using sound.closed joins

/-! ### Panics -/

/-- A permit in hand goes to the next chunk, if nothing stops the loop. -/
theorem Sound.exists_spawn_of_holding (services : Service I σ → Prop) (sound : loop.Sound world)
    (holds : loop.phase = .holding) (opened : loop.pool.isClosed world = false) :
    ∃ chunk final last, Step services loop world [.work (.task loop.pool.stage chunk .start)]
      final last := by
  obtain ⟨chunk, rest, shape⟩ := List.exists_cons_of_ne_nil (sound.purpose holds)
  simp only [Pool.isClosed, Bool.or_eq_false_iff] at opened
  obtain ⟨⟨-, unhalted⟩, uncancelled⟩ := opened
  have unstopped : loop.stopped world = false := by
    rw [sound.stopped_eq (by simp [holds]), unhalted, uncancelled, Bool.or_false]
  have started : loop.pool.dispatch world.release =
      some ({ loop.pool with
        waiting := rest, running := loop.pool.running ++ [(chunk, loop.pool.work chunk)] },
        world.release.acquire) := by
    simp [Pool.dispatch, shape, unhalted, World.release, uncancelled]
  exact ⟨chunk, _, _, .spawn holds unstopped (.start shape started)⟩

/-- **A loop that nothing stops can start its next chunk** as soon as a permit is free. -/
theorem Sound.exists_spawn (services : Service I σ → Prop) (sound : loop.Sound world)
    (opened : loop.pool.isClosed world = false) (free : 0 < world.free) :
    ∃ chunk final last, History services loop world [.work (.task loop.pool.stage chunk .start)]
      final last := by
  cases phase : loop.phase with
  | dispatching =>
    have more : loop.pool.waiting ≠ [] := fun none => by simp [Pool.isClosed, none] at opened
    have acquired : Step services loop world [] ⟨loop.gathering, .holding⟩ world.acquire :=
      .acquire phase more free
    obtain ⟨chunk, final, last, step⟩ :=
      (acquired.gathering sound).2.exists_spawn_of_holding services rfl opened
    exact ⟨chunk, final, last, (History.start.step acquired).step step⟩
  | holding =>
    obtain ⟨chunk, final, last, step⟩ := sound.exists_spawn_of_holding services phase opened
    exact ⟨chunk, final, last, History.start.step step⟩
  | joining =>
    rw [sound.closed phase] at opened
    cases opened

/-- A loop that nothing stops gets a permit and spawns the task of its next chunk. -/
theorem History.spawn {stage : Stage} {work : ChunkIndex → Task I Ending} {chunk : ChunkIndex}
    {rest : List ChunkIndex} {running : List (ChunkIndex × Task I Ending)}
    {ended : List (ChunkIndex × Ending)} {free : Nat} {state : σ}
    (history : History services loop world notices
      ⟨⟨⟨stage, work, chunk :: rest, running, ended, false⟩, []⟩, .dispatching⟩
      ⟨free + 1, false, state⟩) :
    History services loop world (notices ++ [.work (.task stage chunk .start)])
      ⟨⟨⟨stage, work, rest, running ++ [(chunk, work chunk)], ended, false⟩, []⟩, .dispatching⟩
      ⟨free, false, state⟩ := by
  have held := history.step (.acquire rfl (List.cons_ne_nil _ _) (Nat.succ_pos free))
  rw [List.append_nil] at held
  exact held.step (.spawn rfl rfl (.start rfl rfl))

/-- **A panicking task** leaves the loop as open as it was, and gives its permit back. -/
theorem Step.isClosed_of_panicked {stage : Stage} {chunk : ChunkIndex}
    (panics : Step services loop world [.work (.task stage chunk (.finish .panicked))] loop'
      world') :
    loop'.pool.isClosed world' = loop.pool.isClosed world ∧ 0 < world'.free := by
  cases panics with
  | work _ does =>
    rcases does.cases with ⟨_, _, _, same, _⟩ | ⟨_, _, _, _, _, _, _, _, same, _⟩ |
      ⟨before, _, ending, rest, _, same, concluded⟩
    · cases same
    · cases same
    · cases same
      cases concluded
      exact ⟨by simp [Pool.isClosed, World.release, pool], Nat.succ_pos _⟩

/-- **A panic by itself stops no dispatch.** After a panic no schedule starts another chunk if and
only if none would have done so without it: every chunk has its task already, a task has failed with
an error, or the token of the run has fired. The panic gives its permit back at once, but the
token of the stage is fired only where the panic is joined, when the loop is over. -/
theorem stops_after_panic_iff (stage : Stage) (chunks : List ChunkIndex)
    (work : ChunkIndex → Task I Ending) {early : List (Notice I)} {middle panicked : Dispatcher I}
    {between after : World σ} {chunk : ChunkIndex}
    (before : History services (start stage chunks work) world early middle between)
    (panics : Step services middle between [.work (.task stage chunk (.finish .panicked))] panicked
      after) :
    (∀ late final last, History services panicked after late final last → started late = []) ↔
      started early = chunks ∨ (∃ other error, (other, .failed error) ∈ ended early) ∨
        between.cancelled = true := by
  have history := before.step panics
  obtain ⟨-, sound⟩ := history.gathering (sound_start stage chunks work world)
  obtain ⟨sofar, -⟩ := before.gathering (sound_start stage chunks work world)
  have books : Gathering.Books stage chunks early middle.gathering := .of_history sofar
  have all : middle.pool.waiting = [] ↔ started early = chunks := by
    rw [← books.dispatched, List.self_eq_append_right]
    rfl
  obtain ⟨same, free⟩ := panics.isClosed_of_panicked
  have closed : panicked.pool.isClosed after = true ↔ started early = chunks ∨
      (∃ other error, (other, .failed error) ∈ ended early) ∨ between.cancelled = true := by
    rw [same, books.finished, ← books.halted, ← all]
    simp [Pool.isClosed, pool, or_assoc]
  rw [← closed]
  constructor
  · intro none
    by_contra more
    obtain ⟨next, final, last, further⟩ :=
      sound.exists_spawn services (Bool.eq_false_iff.mpr more) free
    exact absurd (none _ final last further) (by simp [started])
  · intro closed late final last further
    exact ((further.gathering sound).1.started_eq_nil closed).1

/-- One of three tasks fails and then another panics: the third chunk is not started any more. -/
theorem stops_after_panic_drill :
    let plan (chunk : ChunkIndex) : Drill.Plan :=
      if chunk = 0 then .panic else .fail (.cancelled .baselineEncode)
    ∃ (early : List (Notice Drill.interface)) (middle panicked : Dispatcher Drill.interface)
      (between after : World (List ChunkIndex)),
      History (· = Drill.service)
        (start .baselineEncode [0, 1, 2] fun chunk => Drill.task chunk (plan chunk))
        (World.fresh 2 []) early middle between ∧
      Step (· = Drill.service) middle between
        [.work (.task .baselineEncode 0 (.finish .panicked))] panicked after ∧
      (1, .failed (.cancelled .baselineEncode)) ∈ ended early ∧
      ∀ late final last, History (· = Drill.service) panicked after late final last →
        started late = [] := by
  intro plan
  have outset : History (· = Drill.service)
    (start .baselineEncode [0, 1, 2] fun chunk => Drill.task chunk (plan chunk))
    (World.fresh 2 []) [] _ _ := .start
  have failed := (outset.spawn.spawn.step
    (.work (by nofun) (.ask rfl (show _[1]? = some _ from rfl) rfl))).step
    (.work (by nofun) (.finish rfl (show _[1]? = some _ from rfl) rfl))
  have early := failed.step (.work (by nofun) (.ask rfl (show _[0]? = some _ from rfl) rfl))
  have panics : Step (· = Drill.service)
      ⟨⟨⟨.baselineEncode, fun chunk => Drill.task chunk (plan chunk), [2], [(0, .done .panicked)],
        [(1, .failed (.cancelled .baselineEncode))], true⟩, []⟩, .dispatching⟩
      (⟨1, false, [1, 0]⟩ : World (List ChunkIndex))
      [.work (.task .baselineEncode 0 (.finish .panicked))] _ _ :=
    .work (by nofun) (.finish rfl (show _[0]? = some _ from rfl) rfl)
  have recorded : (1, .failed (.cancelled .baselineEncode)) ∈
      [(1, Ending.failed (.cancelled .baselineEncode))] := List.mem_singleton_self _
  exact ⟨_, _, _, _, _, early, panics, recorded,
    (stops_after_panic_iff _ _ _ early panics).mpr (.inr (.inl ⟨1, _, recorded⟩))⟩

/-- With one worker the first task panics, and then the second chunk is started. -/
theorem dispatches_after_panic :
    let plan (chunk : ChunkIndex) : Drill.Plan :=
      if chunk = 0 then .panic else .finish .completed
    ∃ (early late : List (Notice Drill.interface)) (middle final : Dispatcher Drill.interface)
      (between last : World (List ChunkIndex)),
      History (· = Drill.service)
        (start .baselineEncode [0, 1] fun chunk => Drill.task chunk (plan chunk))
        (World.fresh 1 []) early middle between ∧
      History (· = Drill.service) middle between late final last ∧
      (0, .panicked) ∈ ended early ∧ started late = [1] := by
  intro plan
  have outset : History (· = Drill.service)
    (start .baselineEncode [0, 1] fun chunk => Drill.task chunk (plan chunk))
    (World.fresh 1 []) [] _ _ := .start
  have early := (outset.spawn.step
    (.work (by nofun) (.ask rfl (show _[0]? = some _ from rfl) rfl))).step
    (.work (by nofun) (.finish rfl (show _[0]? = some _ from rfl) rfl))
  have late : History (· = Drill.service)
    ⟨⟨⟨.baselineEncode, fun chunk => Drill.task chunk (plan chunk), [1], [], [(0, .panicked)],
      false⟩, []⟩, .dispatching⟩
    (⟨1, false, [0]⟩ : World (List ChunkIndex)) [] _ _ := .start
  exact ⟨_, _, _, _, _, _, early, late.spawn, List.mem_singleton_self _, rfl⟩

end Dispatcher

end Transcode
