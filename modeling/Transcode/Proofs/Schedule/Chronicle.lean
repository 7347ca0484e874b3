/-
**What a run does before and after the cancellation token fires.** A course says what was done, but
not what the run saw when it looked at the token. A `Chronicle` records both, and the token may fire
at any moment of it.

* `Flow.Chronicle.of_bind` takes the chronicle of two runs in a row apart; what is known of a course
  is known of a chronicle (`Flow.Chronicle.course`).
* `Flow.Chronicle.quiet` — once the token has fired, no task is started, and no look finds the token
  unfired.
* `Flow.Chronicle.rest_of_task` and `Flow.Chronicle.rest_of_pool` — only the run itself looks.
-/
import Transcode.Proofs.Schedule.Course
import Transcode.Proofs.Schedule.Termination

namespace Transcode

variable {I : Interface} {σ α β : Type}

/-- What is on record of a moment of a run. -/
inductive Moment (I : Interface) where
  | act (event : Event I)
  /-- The run looks whether the token has fired. -/
  | look (cancelled : Bool)

namespace Moment

/-- What was done, in order. -/
def events (moments : List (Moment I)) : List (Event I) :=
  moments.filterMap fun
    | act event => some event
    | look _ => none

/-- How often the run has found the token unfired. -/
def passes (moments : List (Moment I)) : Nat :=
  moments.countP fun
    | look false => true
    | _ => false

theorem events_append (moments more : List (Moment I)) :
    events (moments ++ more) = events moments ++ events more :=
  List.filterMap_append ..

theorem passes_append (moments more : List (Moment I)) :
    passes (moments ++ more) = passes moments + passes more :=
  List.countP_append ..

/-- The token is found unfired once more. -/
theorem passes_cons (moments : List (Moment I)) :
    passes (look false :: moments) = passes moments + 1 :=
  List.countP_cons_of_pos rfl

@[simp]
theorem events_map_act (events : List (Event I)) : Moment.events (events.map act) = events := by
  rw [Moment.events, List.filterMap_map]
  exact List.filterMap_some

@[simp]
theorem passes_map_act (events : List (Event I)) : passes (events.map act) = 0 := by
  rw [passes, List.countP_map, List.countP_eq_zero]
  exact fun _ _ never => Bool.false_ne_true never

theorem mem_events {event : Event I} {moments : List (Moment I)} :
    event ∈ events moments ↔ .act event ∈ moments := by
  rw [events, List.mem_filterMap]
  constructor
  · rintro ⟨moment, member, same⟩
    cases moment <;> cases same
    exact member
  · exact fun member => ⟨_, member, rfl⟩

end Moment

namespace Flow

open Moment

/-- What a run sees that looks at the token in its next step. -/
def looks (world : World σ) : Flow I α → List (Moment I)
  | checkpoint _ => [look world.cancelled]
  | _ => []

/-- **Any sequence of steps of a run**, with what is on record of them. The token may fire between
any two of them. -/
inductive Chronicle (services : Service I σ → Prop) (flow : Flow I α) (world : World σ) :
    List (Moment I) → Flow I α → World σ → Prop
  | start : Chronicle services flow world [] flow world
  | step {moments : List (Moment I)} {now : List (Event I)} {flow' flow'' : Flow I α}
      {world' world'' : World σ}
      (chronicle : Chronicle services flow world moments flow' world')
      (does : Does services flow' world' now flow'' world'') :
      Chronicle services flow world (moments ++ (flow'.looks world' ++ now.map act)) flow'' world''
  | fire {moments : List (Moment I)} {flow' : Flow I α} {world' : World σ}
      (chronicle : Chronicle services flow world moments flow' world') :
      Chronicle services flow world moments flow' { world' with cancelled := true }

namespace Chronicle

variable {services : Service I σ → Prop} {flow flow' : Flow I α} {world world' : World σ}
  {moments : List (Moment I)}

theorem append (chronicle : Chronicle services flow world moments flow' world')
    {more : List (Moment I)} {flow'' : Flow I α} {world'' : World σ}
    (rest : Chronicle services flow' world' more flow'' world'') :
    Chronicle services flow world (moments ++ more) flow'' world'' := by
  induction rest with
  | start => rwa [List.append_nil]
  | step _ does ih =>
    rw [← List.append_assoc]
    exact ih.step does
  | fire _ ih => exact ih.fire

/-- What is done along a chronicle is the course of the run. -/
theorem course {setting : Setting I σ} (fires : setting.interruptible)
    (chronicle : Chronicle setting.services flow world moments flow' world') :
    Course setting Eq flow world (events moments) flow' world' := by
  induction chronicle with
  | start => exact .start
  | @step _ now flow' _ world' _ _ does ih =>
    have seen : events (flow'.looks world') = [] := by cases flow' <;> rfl
    rw [events_append, events_append, seen, List.nil_append, events_map_act]
    exact ih.step does
  | fire _ ih => exact ih.disturb rfl fun _ => .inr fires

/-- **The chronicle of two runs in a row**: of the first alone, or of the first to its end and then
of the second. -/
theorem of_bind {after : α → Flow I β} {final : Flow I β}
    (chronicle : Chronicle services (flow.bind after) world moments final world') :
    (∃ first, final = first.bind after ∧ Chronicle services flow world moments first world') ∨
      ∃ value middle early late, moments = early ++ late ∧
        Chronicle services flow world early (.done value) middle ∧
        Chronicle services (after value) middle late final world' := by
  induction chronicle with
  | start => exact .inl ⟨flow, rfl, .start⟩
  | @step _ now _ _ world' _ _ does ih =>
    rcases ih with ⟨first, rfl, chronicle⟩ | ⟨value, middle, early, late, rfl, chronicle, rest⟩
    · rcases does_bind does with ⟨value, rfl⟩ | ⟨next, rfl, inner⟩
      · refine .inr ⟨value, _, _, _, rfl, chronicle, ?_⟩
        rw [← List.nil_append ((Flow.bind (.done value) after).looks world' ++ _)]
        exact .step .start does
      · have same : (first.bind after).looks world' = first.looks world' := by
          cases first with
          | done value => cases inner
          | ask request next => rfl
          | checkpoint next => rfl
          | stage pool next => rfl
        exact .inl ⟨next, rfl, same ▸ chronicle.step inner⟩
    · exact .inr ⟨value, middle, early, _, List.append_assoc .., chronicle, rest.step does⟩
  | fire _ ih =>
    rcases ih with ⟨first, rfl, chronicle⟩ | ⟨value, middle, early, late, rfl, chronicle, rest⟩
    · exact .inl ⟨first, rfl, chronicle.fire⟩
    · exact .inr ⟨value, middle, early, late, rfl, chronicle, rest.fire⟩

/-- Two runs in a row that have come to their end, taken apart. -/
theorem done_bind {after : α → Flow I β} {result : β}
    (chronicle : Chronicle services (flow.bind after) world moments (.done result) world') :
    ∃ value middle early late, moments = early ++ late ∧
      Chronicle services flow world early (.done value) middle ∧
      Chronicle services (after value) middle late (.done result) world' := by
  rcases chronicle.of_bind with ⟨first, shape, chronicle⟩ | split
  · cases first with
    | done value =>
      refine ⟨value, world', moments, [], (List.append_nil _).symm, chronicle, ?_⟩
      exact (show Flow.done result = after value from shape) ▸ .start
    | ask request next => cases shape
    | checkpoint next => cases shape
    | stage pool next => cases shape
  · exact split

/-- A finished run does nothing more. -/
theorem of_done {value : α}
    (chronicle : Chronicle services (.done value) world moments flow' world') :
    moments = [] ∧ flow' = .done value ∧ world'.state = world.state := by
  induction chronicle with
  | start => exact ⟨rfl, rfl, rfl⟩
  | step _ does ih =>
    obtain ⟨rfl, rfl, -⟩ := ih
    cases does
  | fire _ ih => exact ih

/-- What is left of a run that looks at the token first. -/
theorem rest_of_checkpoint {next : Bool → Flow I α}
    (chronicle : Chronicle services (.checkpoint next) world moments flow' world') :
    (flow' = .checkpoint next ∧ moments = [] ∧ world'.state = world.state) ∨
      ∃ cancelled middle late, moments = look cancelled :: late ∧ middle.state = world.state ∧
        Chronicle services (next cancelled) middle late flow' world' := by
  induction chronicle with
  | start => exact .inl ⟨rfl, rfl, rfl⟩
  | @step _ now _ _ world' _ _ does ih =>
    rcases ih with ⟨rfl, rfl, same⟩ | ⟨cancelled, middle, late, rfl, same, rest⟩
    · cases does with
      | checkpoint => exact .inr ⟨world'.cancelled, world', [], rfl, same, .start⟩
    · exact .inr ⟨cancelled, middle, _, rfl, same, rest.step does⟩
  | fire _ ih =>
    rcases ih with ⟨rfl, rfl, same⟩ | ⟨cancelled, middle, late, rfl, same, rest⟩
    · exact .inl ⟨rfl, rfl, same⟩
    · exact .inr ⟨cancelled, middle, late, rfl, same, rest.fire⟩

/-- A run that looks at the token, and goes on by what it has seen. -/
theorem of_checkpoint {next : Bool → Flow I α} {value : α}
    (chronicle : Chronicle services (.checkpoint next) world moments (.done value) world') :
    ∃ cancelled middle late, moments = look cancelled :: late ∧ middle.state = world.state ∧
      Chronicle services (next cancelled) middle late (.done value) world' := by
  rcases chronicle.rest_of_checkpoint with ⟨never, -⟩ | split
  · cases never
  · exact split

/-- A run without stages does not look at the token. -/
theorem rest_of_task {task : Task I α}
    (chronicle : Chronicle services (Flow.ofTask task) world moments flow' world') :
    passes moments = 0 ∧ ∃ current, flow' = Flow.ofTask current := by
  induction chronicle with
  | start => exact ⟨rfl, task, rfl⟩
  | fire _ ih => exact ih
  | step _ does ih =>
    obtain ⟨none, current, rfl⟩ := ih
    cases current with
    | done value => cases does
    | ask request next =>
      cases does with
      | ask serves => exact ⟨by rw [passes_append, none]; rfl, _, rfl⟩

/-- A stage does not look at the token either: its dispatch does. -/
theorem rest_of_pool {pool : Pool I} {flow : Flow I (Except RunError StageSummary)}
    (chronicle : Chronicle services (Flow.ofPool pool) world moments flow world') :
    passes moments = 0 ∧
      ((∃ later, flow = .stage later .done) ∨ ∃ result, flow = .done result) := by
  induction chronicle with
  | start => exact ⟨rfl, .inl ⟨pool, rfl⟩⟩
  | fire _ ih => exact ih
  | step _ does ih =>
    obtain ⟨none, ⟨later, rfl⟩ | ⟨result, rfl⟩⟩ := ih
    · cases does with
      | stage moved => exact ⟨by rw [passes_append, none]; rfl, .inl ⟨_, rfl⟩⟩
      | settle settled => exact ⟨by rw [passes_append, none]; rfl, .inr ⟨_, rfl⟩⟩
    · cases does

/-! ### After the token has fired -/

/-- The token never comes back. -/
theorem fired (chronicle : Chronicle services flow world moments flow' world')
    (fired : world.cancelled = true) : world'.cancelled = true := by
  induction chronicle with
  | start => exact fired
  | fire => rfl
  | step _ does ih =>
    cases does with
    | ask serves => simp [World.serve, ih]
    | checkpoint => exact ih
    | settle settled => exact ih
    | stage moved =>
      rcases moved.cases with ⟨_, _, _, _, rfl, _⟩ | ⟨_, _, _, _, _, _, _, _, _, rfl, _⟩ |
        ⟨_, _, _, _, _, _, concluded⟩
      · exact ih
      · simp [World.serve, ih]
      · cases concluded
        exact ih

/-- **Once the token has fired**, no task is started, and every look finds it fired. -/
theorem quiet (chronicle : Chronicle services flow world moments flow' world')
    (fired : world.cancelled = true) :
    (∀ stage chunk, .act (.task stage chunk .start) ∉ moments) ∧ passes moments = 0 := by
  induction chronicle with
  | start => exact ⟨fun _ _ => List.not_mem_nil, rfl⟩
  | fire _ ih => exact ih
  | @step _ now flow' _ world' _ before does ih =>
    obtain ⟨none, unseen⟩ := ih
    have fired := before.fired fired
    -- A stage looks at the token by itself before each dispatch, which is not on record.
    have idle (stage : Stage) (chunk : ChunkIndex) : .task stage chunk .start ∉ now := by
      intro member
      cases does with
      | ask serves => simp at member
      | checkpoint => simp at member
      | settle settled => simp at member
      | stage moved =>
        cases List.mem_singleton.mp member
        cases moved with
        | start first started =>
          have open' := Pool.isClosed_of_dispatch started
          simp [Pool.isClosed, fired] at open'
    have seen : passes (flow'.looks world') = 0 ∧
        ∀ event, .act event ∉ flow'.looks world' := by
      cases flow' <;> simp [looks, passes, fired]
    refine ⟨fun stage chunk member => ?_, ?_⟩
    · rcases List.mem_append.mp member with early | late
      · exact none stage chunk early
      · rcases List.mem_append.mp late with look | now
        · exact seen.2 _ look
        · obtain ⟨event, member, same⟩ := List.mem_map.mp now
          cases same
          exact idle stage chunk member
    · rw [passes_append, passes_append, unseen, seen.1, passes_map_act]

/-- A permit stays within reach. -/
theorem permits (chronicle : Chronicle services flow world moments flow' world')
    (permits : 0 < world.free + flow.holding) : 0 < world'.free + flow'.holding := by
  induction chronicle with
  | start => exact permits
  | step _ does ih => exact does.step.permits ih
  | fire _ ih => exact ih

end Chronicle

/-- Where every schedule comes to an end, one of them does. -/
theorem EndsIn.exists_chronicle {services : Service I σ → Prop} {statement : α → World σ → Prop}
    {flow : Flow I α} {world : World σ} (ends : EndsIn services statement flow world) :
    ∃ moments value world', Chronicle services flow world moments (.done value) world' ∧
      statement value world' := by
  induction ends with
  | @done value world holds => exact ⟨[], value, world, .start, holds⟩
  | step possible _ ih =>
    obtain ⟨_, _, _, step⟩ := possible
    obtain ⟨now, does, -⟩ := step.does
    obtain ⟨_, value, last, rest, holds⟩ := ih step
    exact ⟨_, value, last, (Chronicle.start.step does).append rest, holds⟩

end Flow

end Transcode
