/-
**Runs that share workers, and nothing else.** Each run has a place of its own in the state, and all
of them draw on one pool of permits. To each of them the others are nothing but permits that are not
free: what it does among them, it can do alone.

* `Flow.Orderly` holds of a run in which no tasks but those of the stage under way hold permits. Its
  steps neither make nor lose a permit (`Flow.Step.conserves`).
* `Company.Signed` is a path on which every request bears the name of the member that made it, and
  `Company.own` are the requests of one member.
* `Company.Signed.alone` — the part of a member is a path of its own, from a pool of workers that it
  has to itself, without any interference.
-/
import Mathlib.Algebra.BigOperators.Fin
import Transcode.Proofs.Schedule.Company

namespace Transcode

variable {I : Interface} {α β : Type}

/-! ### Permits -/

namespace Flow

/-- No stage of the run has been started. -/
def Unstarted : Flow I α → Prop
  | .done _ => True
  | .ask _ next => ∀ answer, Unstarted (next answer)
  | .checkpoint next => ∀ cancelled, Unstarted (next cancelled)
  | .stage pool next => pool.running = [] ∧ ∀ result, Unstarted (next result)

/-- At most the next stage of the run has been started. -/
def Orderly : Flow I α → Prop
  | .stage _ next => ∀ result, (next result).Unstarted
  | flow => flow.Unstarted

theorem Unstarted.orderly {flow : Flow I α} (unstarted : flow.Unstarted) : flow.Orderly := by
  cases flow with
  | stage pool next => exact unstarted.2
  | _ => exact unstarted

theorem Unstarted.holding {flow : Flow I α} (unstarted : flow.Unstarted) : flow.holding = 0 := by
  cases flow with
  | stage pool next => exact congrArg List.length unstarted.1
  | _ => rfl

theorem Unstarted.bind {flow : Flow I α} {after : α → Flow I β} (unstarted : flow.Unstarted)
    (rest : ∀ value, (after value).Unstarted) : (flow.bind after).Unstarted := by
  induction flow with
  | done value => exact rest value
  | ask request next ih => exact fun answer => ih answer (unstarted answer)
  | checkpoint next ih => exact fun cancelled => ih cancelled (unstarted cancelled)
  | stage pool next ih => exact ⟨unstarted.1, fun result => ih result (unstarted.2 result)⟩

theorem unstarted_ofTask (task : Task I α) : (ofTask task).Unstarted := by
  induction task with
  | done value => trivial
  | ask request next ih => exact ih

variable {σ : Type} {services : Service I σ → Prop} {flow flow' : Flow I α} {world world' : World σ}
  {trace : List (Exchange I)}

/-- **A step neither makes nor loses a permit**, and leaves the run orderly. -/
theorem Step.conserves (step : Step services flow world trace flow' world')
    (orderly : flow.Orderly) :
    flow'.Orderly ∧ world'.free + flow'.holding = world.free + flow.holding := by
  cases step with
  | @ask request next world service serves =>
    have rest := orderly (world.serve service request).1
    exact ⟨rest.orderly, congrArg _ rest.holding⟩
  | checkpoint =>
    have rest := orderly world.cancelled
    exact ⟨rest.orderly, congrArg _ rest.holding⟩
  | @settle pool _ _ settled =>
    have rest := orderly pool.result
    simp only [Pool.isSettled, Bool.and_eq_true, List.isEmpty_iff] at settled
    refine ⟨rest.orderly, ?_⟩
    rw [rest.holding, Flow.holding, settled.2, List.length_nil]
  | stage moved =>
    refine ⟨orderly, ?_⟩
    simp only [Flow.holding]
    rcases moved.cases with ⟨chunk, rest, _, _, _, free, _, rfl, rfl⟩ |
      ⟨before, chunk, request, next, after, service, _, shape, _, rfl, rfl⟩ |
      ⟨before, chunk, ending, after, shape, _, concluded⟩
    · simp only [World.acquire, List.length_append, List.length_singleton]
      omega
    · simp [shape, World.serve]
    · cases concluded
      simp only [World.release, shape, List.length_append, List.length_cons]
      omega

end Flow

/-! ### A part of the state for each place -/

section Focus

variable {ν τ : Type} [DecidableEq ν]

/-- Answers from the part of the state at a place. -/
def Service.focus (place : ν) (service : Service I τ) : Service I (ν → τ) where
  reply request state :=
    let reply := service.reply request (state place)
    ⟨reply.answer, Function.update state place reply.state, reply.cancels⟩

/-- A run in the part of the state at a place. -/
def Setting.focus (place : ν) (setting : Setting I τ) : Setting I (ν → τ) where
  services service := ∃ inner, setting.services inner ∧ service = inner.focus place
  interruptible := setting.interruptible
  cancels := by
    rintro _ ⟨inner, serves, rfl⟩ request state fired
    exact setting.cancels serves request (state place) fired

/-- What a run sees that has a place of the state to itself, and fewer others to share with. -/
structure World.Sees (place : ν) (world : World (ν → τ)) (solo : World τ) : Prop where
  state : solo.state = world.state place
  cancelled : solo.cancelled = world.cancelled
  free : world.free ≤ solo.free

variable {place : ν} {setting : Setting I τ} {world world' : World (ν → τ)} {solo : World τ}
  {trace : List (Exchange I)}

/-- An answer from a place, as it is seen there. -/
theorem World.Sees.serve (sees : world.Sees place solo) (inner : Service I τ)
    (request : I.Request) :
    (world.serve (inner.focus place) request).1 = (solo.serve inner request).1 ∧
      (world.serve (inner.focus place) request).2.Sees place (solo.serve inner request).2 := by
  obtain ⟨free, cancelled, state⟩ := solo
  obtain ⟨rfl, rfl, enough⟩ := sees
  refine ⟨rfl, ?_, rfl, enough⟩
  simp [World.serve, Service.focus]

/-- A task that moves on at a place of the state, as it is seen there. -/
theorem Pool.advance_focus {pool pool' : Pool I} {inner : Service I τ} {spot : Nat}
    (sees : world.Sees place solo)
    (moved : pool.advance (inner.focus place) spot world = some (pool', world')) :
    ∃ solo', pool.advance inner spot solo = some (pool', solo') ∧ world'.Sees place solo' ∧
      pool.exchanges (inner.focus place) spot world = pool.exchanges inner spot solo := by
  unfold Pool.advance Pool.exchanges at *
  split at moved
  · cases moved
  · next found =>
    cases moved
    rw [found]
    exact ⟨_, rfl, ⟨sees.state, sees.cancelled, Nat.add_le_add_right sees.free 1⟩, rfl⟩
  · next request next found =>
    obtain ⟨same, after⟩ := sees.serve inner request
    dsimp only at moved
    rw [same] at moved
    cases moved
    rw [found]
    exact ⟨_, rfl, after, by dsimp only; rw [same]⟩

/-- **A step at a place of the state** is a step of the run alone. -/
theorem Pool.Step.focus {pool pool' : Pool I}
    (step : pool.Step (setting.focus place).services world trace pool' world')
    (sees : world.Sees place solo) :
    ∃ solo', pool.Step setting.services solo trace pool' solo' ∧ world'.Sees place solo' := by
  cases step with
  | dispatch started =>
    unfold Pool.dispatch at started
    split at started
    · cases started
    · next chunk rest shape =>
      split at started
      · cases started
      · next open' =>
        cases started
        simp only [Bool.or_eq_true, decide_eq_true_eq, not_or, Bool.not_eq_true] at open'
        have able : solo.free ≠ 0 := Nat.ne_of_gt
          (Nat.lt_of_lt_of_le (Nat.pos_of_ne_zero open'.2) sees.free)
        refine ⟨solo.acquire, .dispatch ?_, sees.state, sees.cancelled,
          Nat.sub_le_sub_right sees.free 1⟩
        simp [Pool.dispatch, shape, open'.1.1, sees.cancelled, open'.1.2, able]
  | advance serves moved =>
    obtain ⟨inner, serves, rfl⟩ := serves
    obtain ⟨solo', advance, after, same⟩ := Pool.advance_focus sees moved
    exact ⟨solo', same ▸ .advance serves advance, after⟩

theorem Flow.Step.focus {flow flow' : Flow I α}
    (step : Flow.Step (setting.focus place).services flow world trace flow' world')
    (sees : world.Sees place solo) :
    ∃ solo', Flow.Step setting.services flow solo trace flow' solo' ∧ world'.Sees place solo' := by
  cases step with
  | @ask request _ _ _ serves =>
    obtain ⟨inner, serves, rfl⟩ := serves
    obtain ⟨same, after⟩ := sees.serve inner request
    rw [same]
    exact ⟨_, .ask serves, after⟩
  | checkpoint => exact ⟨solo, sees.cancelled ▸ .checkpoint, sees⟩
  | stage moved =>
    obtain ⟨solo', step, after⟩ := moved.focus sees
    exact ⟨solo', .stage step, after⟩
  | settle settled =>
    refine ⟨solo, .settle ?_, sees⟩
    simpa [Pool.isSettled, Pool.isClosed, sees.cancelled] using settled

/-- A step at one place of the state leaves all others as they are. -/
theorem Flow.Step.elsewhere {flow flow' : Flow I α}
    (step : Flow.Step (setting.focus place).services flow world trace flow' world') {other : ν}
    (differs : other ≠ place) : world'.state other = world.state other := by
  have untouched {state later : ν → τ} {trace : List (Exchange I)}
      (log : Log (setting.focus place).services state trace later) :
      later other = state other := by
    induction log with
    | nothing => rfl
    | ask _ serves request ih =>
      obtain ⟨inner, -, rfl⟩ := serves
      exact (Function.update_of_ne differs _ _).trans ih
  exact untouched step.log

end Focus

/-! ### Signed requests -/

namespace Company

variable {ι κ σ : Type} [DecidableEq ι]

/-- The requests of one member among those of all. -/
def own (member : ι) (signed : List (ι × Exchange I)) : List (Exchange I) :=
  signed.filterMap fun (who, exchange) => if who = member then some exchange else none

theorem own_append (member : ι) (signed more : List (ι × Exchange I)) :
    own member (signed ++ more) = own member signed ++ own member more :=
  List.filterMap_append ..

theorem own_self (member : ι) (trace : List (Exchange I)) :
    own member (trace.map (Prod.mk member)) = trace := by
  simp [own, List.filterMap_map]

theorem own_of_ne {member other : ι} (differs : other ≠ member) (trace : List (Exchange I)) :
    own member (trace.map (Prod.mk other)) = [] := by
  simp [own, List.filterMap_map, differs]

variable [DecidableEq κ]

/-- **Any sequence of steps of the members**, with the requests of all of them, each signed by the
member that made it. -/
inductive Signed (company : Company ι κ I σ) (flows : ι → Flow I α) (commons : Commons κ σ) :
    List (ι × Exchange I) → (ι → Flow I α) → Commons κ σ → Prop
  | start : Signed company flows commons [] flows commons
  | step {signed : List (ι × Exchange I)} {now : List (Exchange I)} {flows' : ι → Flow I α}
      {commons' : Commons κ σ} {flow : Flow I α} {world : World σ}
      (path : Signed company flows commons signed flows' commons') (member : ι)
      (step : Flow.Step (company.setting member).services (flows' member)
        (commons'.world (company.crew member)) now flow world) :
      Signed company flows commons (signed ++ now.map (Prod.mk member))
        (Function.update flows' member flow) (commons'.after (company.crew member) world)

theorem Signed.mono {company wider : Company ι κ I σ} (crews : company.crew = wider.crew)
    (within : ∀ member service, (company.setting member).services service →
      (wider.setting member).services service) {flows flows' : ι → Flow I α}
    {commons commons' : Commons κ σ} {signed : List (ι × Exchange I)}
    (path : company.Signed flows commons signed flows' commons') :
    wider.Signed flows commons signed flows' commons' := by
  induction path with
  | start => exact .start
  | step _ member step ih =>
    rw [crews] at step ⊢
    exact ih.step member (step.mono (within member))

/-- Where every schedule ends, there is one that does. -/
theorem EndsIn.exists_signed {company : Company ι κ I σ} {always : σ → Prop}
    {statement : (ι → α) → σ → List (Exchange I) → Prop} {trace : List (Exchange I)}
    {flows flows' : ι → Flow I α} {commons commons' : Commons κ σ} {signed : List (ι × Exchange I)}
    (ends : company.EndsIn always statement trace flows' commons')
    (path : company.Signed flows commons signed flows' commons') :
    ∃ (all : List (ι × Exchange I)) (values : ι → α) (final : Commons κ σ),
      company.Signed flows commons all (fun member => .done (values member)) final := by
  induction ends generalizing signed with
  | done => exact ⟨_, _, _, path⟩
  | step _ possible _ ih =>
    obtain ⟨_, _, _, move⟩ := possible
    have step := move
    obtain ⟨member, moved⟩ := move
    exact ih step (path.step member moved)

/-! ### Members with places of their own -/

variable {ν τ : Type} [DecidableEq ν]

/-- Runs that share one crew of workers, and no state. -/
def apart (setting : Setting I τ) (place : ι → ν) : Company ι Unit I (ν → τ) :=
  ⟨fun _ => (), fun member => setting.focus (place member)⟩

/-- **How the members stand** that began with all permits free: each is where it would be alone, and
no permit is lost. -/
structure Alone [Fintype ι] (setting : Setting I τ) (place : ι → ν) (workers : Nat)
    (states : ν → τ) (flows : ι → Flow I α) (signed : List (ι × Exchange I))
    (flows' : ι → Flow I α) (commons : Commons Unit (ν → τ)) : Prop where
  quiet : commons.cancelled () = false
  permits : commons.free () + ∑ member, (flows' member).holding = max workers 1
  orderly : ∀ member, (flows' member).Orderly
  alone : ∀ member, ∃ world,
    Flow.Path setting (fun _ _ => False) (flows member)
      (World.fresh workers (states (place member))) (own member signed) (flows' member) world ∧
    world.state = commons.state (place member) ∧ world.cancelled = false ∧
    world.free + (flows' member).holding = max workers 1

variable [Fintype ι] {setting : Setting I τ} {place : ι → ν} {workers : Nat} {states : ν → τ}
  {flows flows' : ι → Flow I α} {signed : List (ι × Exchange I)} {commons : Commons Unit (ν → τ)}

/-- The permits that tasks of the members hold, those of one of them apart. -/
theorem sum_holding (flows : ι → Flow I α) (member : ι) :
    ∑ other, (flows other).holding = (flows member).holding +
      ∑ other ∈ Finset.univ.erase member, (flows other).holding :=
  (Finset.add_sum_erase _ (fun other => (flows other).holding) (Finset.mem_univ member)).symm

/-- A step of one member is nothing to what the tasks of the others hold. -/
theorem sum_holding_update (flows : ι → Flow I α) (member : ι) (flow : Flow I α) :
    ∑ other, (Function.update flows member flow other).holding = flow.holding +
      ∑ other ∈ Finset.univ.erase member, (flows other).holding := by
  rw [sum_holding, Function.update_self]
  refine congrArg _ (Finset.sum_congr rfl fun other inside => ?_)
  rw [Function.update_of_ne (Finset.ne_of_mem_erase inside)]

omit [DecidableEq ν] in
/-- A member finds no more permits free among others than alone. -/
theorem Alone.sees (before : Alone setting place workers states flows signed flows' commons)
    (member : ι) {solo : World τ} (state : solo.state = commons.state (place member))
    (token : solo.cancelled = false)
    (free : solo.free + (flows' member).holding = max workers 1) :
    (commons.world ()).Sees (place member) solo where
  state := state
  cancelled := token.trans before.quiet.symm
  free := by
    have permits := before.permits
    rw [sum_holding flows' member] at permits
    show commons.free () ≤ solo.free
    omega

/-- A step of one of the members. -/
theorem Alone.step (still : ¬ setting.interruptible) (distinct : Function.Injective place)
    (before : Alone setting place workers states flows signed flows' commons) {member : ι}
    {now : List (Exchange I)} {flow : Flow I α} {world : World (ν → τ)}
    (step : Flow.Step (setting.focus (place member)).services (flows' member)
      (commons.world ()) now flow world) :
    Alone setting place workers states flows (signed ++ now.map (Prod.mk member))
      (Function.update flows' member flow) (commons.after () world) := by
  have conserved := step.conserves (before.orderly member)
  have quiet : world.cancelled = false := by
    have path : Flow.Path (setting.focus (place member)) Eq (flows' member) (commons.world ()) _
      flow world := .step .start step
    refine Bool.eq_false_iff.mpr fun fired => still (path.interruptible (fun early => ?_) fired)
    cases early.symm.trans before.quiet
  constructor
  case quiet => simpa [Commons.after] using quiet
  case permits =>
    have permits := before.permits
    have same : world.free + flow.holding = commons.free () + (flows' member).holding := conserved.2
    rw [sum_holding flows' member] at permits
    rw [sum_holding_update, Commons.free_after_self]
    omega
  case orderly =>
    intro other
    by_cases same : other = member
    · subst same
      rw [Function.update_self]
      exact conserved.1
    · rw [Function.update_of_ne same]
      exact before.orderly other
  case alone =>
    intro other
    obtain ⟨solo, path, state, token, free⟩ := before.alone other
    rw [own_append]
    by_cases same : other = member
    · subst same
      obtain ⟨solo', moved, after⟩ := step.focus (before.sees other state token free)
      rw [own_self, Function.update_self]
      refine ⟨solo', path.step moved, after.state, after.cancelled.trans quiet, ?_⟩
      exact (moved.conserves (before.orderly other)).2.trans free
    · have elsewhere : world.state (place other) = commons.state (place other) :=
        step.elsewhere fun shared => same (distinct shared)
      rw [own_of_ne (Ne.symm same), List.append_nil, Function.update_of_ne same]
      exact ⟨solo, path, state.trans elsewhere.symm, token, free⟩

/-- **What a member does among others, it can do alone.** -/
theorem Signed.alone (still : ¬ setting.interruptible) (distinct : Function.Injective place)
    (unstarted : ∀ member, (flows member).Unstarted)
    (path : (apart setting place).Signed flows (Commons.fresh (fun _ => workers) states) signed
      flows' commons) :
    Alone setting place workers states flows signed flows' commons := by
  induction path with
  | start =>
    refine ⟨rfl, ?_, fun member => (unstarted member).orderly, fun member => ?_⟩
    · simp [Commons.fresh, fun member => (unstarted member).holding]
    · exact ⟨_, .start, rfl, rfl, by rw [(unstarted member).holding]; rfl⟩
  | step _ member step ih => exact ih.step still distinct step

end Company

end Transcode
