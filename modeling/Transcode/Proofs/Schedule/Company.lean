/-
**Several runs side by side.** They share the state behind their services; the runs of one crew
also share a pool of workers and a cancellation token. Any run may take the next step.

* `Commons` is what all of them share, `Company` says who is in which crew and who answers whom, and
  `Company.Path` is any sequence of steps of its members.
* `Company.Path.member` — to each member the others are what it relies on, if every member's
  guarantee is something all others rely on. So what a run ensures alone, it ensures in company.
* `Company.EndsIn` says that all runs end as stated under every schedule, and that a property of the
  state holds at every moment; `Company.endsIn_of_path` reduces it to the schedules that end.
-/
import Mathlib.Data.Fintype.Basic
import Transcode.Proofs.Schedule.Ensures
import Transcode.Proofs.Schedule.Log
import Transcode.Proofs.Schedule.Termination

namespace Transcode

open Relation

/-! ### What is shared -/

/-- What runs side by side share: the free permits and the token of each crew, and one state. -/
structure Commons (κ σ : Type) where
  free : κ → Nat
  cancelled : κ → Bool
  state : σ

namespace Commons

variable {κ σ : Type}

/-- Crews of fresh workers; zero workers count as one. -/
def fresh (workers : κ → Nat) (state : σ) : Commons κ σ :=
  ⟨fun crew => max (workers crew) 1, fun _ => false, state⟩

/-- What a crew sees of it. -/
def world (commons : Commons κ σ) (crew : κ) : World σ :=
  ⟨commons.free crew, commons.cancelled crew, commons.state⟩

variable [DecidableEq κ]

/-- What becomes of it when a crew has taken a step in its world. -/
def after (commons : Commons κ σ) (crew : κ) (world : World σ) : Commons κ σ :=
  ⟨Function.update commons.free crew world.free,
    Function.update commons.cancelled crew world.cancelled, world.state⟩

@[simp]
theorem world_after_self (commons : Commons κ σ) (crew : κ) (world : World σ) :
    (commons.after crew world).world crew = world := by
  simp [Commons.world, after]

theorem free_after_self (commons : Commons κ σ) (crew : κ) (world : World σ) :
    (commons.after crew world).free crew = world.free :=
  Function.update_self ..

theorem free_after_of_ne (commons : Commons κ σ) {crew other : κ} (differs : other ≠ crew)
    (world : World σ) : (commons.after crew world).free other = commons.free other :=
  Function.update_of_ne differs _ _

theorem world_after_of_ne (commons : Commons κ σ) {crew other : κ} (differs : other ≠ crew)
    (world : World σ) :
    (commons.after crew world).world other =
      ⟨commons.free other, commons.cancelled other, world.state⟩ := by
  simp [Commons.world, after, differs]

end Commons

/-! ### Steps -/

/-- Runs side by side: the crew of each, and the circumstances under which it takes its steps. -/
structure Company (ι κ : Type) (I : Interface) (σ : Type) where
  crew : ι → κ
  setting : ι → Setting I σ

namespace Company

variable {ι κ : Type} [DecidableEq ι] [DecidableEq κ] {I : Interface} {σ α : Type}
  {company : Company ι κ I σ}

/-- One step of one member. -/
inductive Step (company : Company ι κ I σ) (flows : ι → Flow I α) (commons : Commons κ σ) :
    List (Exchange I) → (ι → Flow I α) → Commons κ σ → Prop
  | move (member : ι) {trace : List (Exchange I)} {flow : Flow I α} {world : World σ}
      (step : Flow.Step (company.setting member).services (flows member)
        (commons.world (company.crew member)) trace flow world) :
      Step company flows commons trace (Function.update flows member flow)
        (commons.after (company.crew member) world)

/-- **Any sequence of steps of the members**, with the requests of all of them in their order. -/
inductive Path (company : Company ι κ I σ) (flows : ι → Flow I α) (commons : Commons κ σ) :
    List (Exchange I) → (ι → Flow I α) → Commons κ σ → Prop
  | start : Path company flows commons [] flows commons
  | step {trace now : List (Exchange I)} {flows' flows'' : ι → Flow I α}
      {commons' commons'' : Commons κ σ}
      (path : Path company flows commons trace flows' commons')
      (step : company.Step flows' commons' now flows'' commons'') :
      Path company flows commons (trace ++ now) flows'' commons''

variable {flows flows' : ι → Flow I α} {commons commons' : Commons κ σ} {trace : List (Exchange I)}

/-! ### What members rely on -/

/-- **The members may work side by side**: whatever one of them guarantees, the others rely on; and
a token that one may fire is one that its crew is prepared for. -/
structure Agrees (company : Company ι κ I σ) (conduct : ι → Conduct σ) : Prop where
  apart : ∀ {member other}, member ≠ other → ∀ {state later : σ},
    (conduct other).guarantee state later → (conduct member).rely state later
  tokens : ∀ {member other}, company.crew member = company.crew other →
    (company.setting other).interruptible → (company.setting member).interruptible

section Promises

variable {conduct : ι → Conduct σ} {statement : ι → α → σ → List (Exchange I) → Prop}
  (agrees : company.Agrees conduct)
  (ensures : ∀ member, (flows member).Ensures (company.setting member) (conduct member)
    (statement member) commons.state)
  (fires : ∀ member, commons.cancelled (company.crew member) = true →
    (company.setting member).interruptible)
include agrees ensures fires

/-- **A member's part of a path** is a path of its own, in which the others do what it relies
on. -/
theorem Path.member (path : company.Path flows commons trace flows' commons') (member : ι) :
    ∃ own, Flow.Path (company.setting member) (conduct member).rely (flows member)
      (commons.world (company.crew member)) own (flows' member)
      (commons'.world (company.crew member)) := by
  induction path generalizing member with
  | start => exact ⟨[], .start⟩
  | @step trace now flows' _ commons' _ path step ih =>
    obtain ⟨other, moved⟩ := step
    obtain ⟨mine, before⟩ := ih member
    by_cases same : member = other
    · subst same
      rw [Function.update_self, Commons.world_after_self]
      exact ⟨_, before.step moved⟩
    · -- The others' step is a disturbance that this member relies on.
      obtain ⟨theirs, path⟩ := ih other
      have kept := (ensures other _ rfl (fires other) _ _ _ path).1 _ _ _ moved
      rw [Function.update_of_ne same]
      refine ⟨mine, before.disturb (agrees.apart same kept) fun fired => ?_⟩
      by_cases crew : company.crew member = company.crew other
      · rw [crew, Commons.world_after_self] at fired
        exact .inr (agrees.tokens crew ((path.step moved).interruptible (fires other) fired))
      · rw [Commons.world_after_of_ne _ crew] at fired
        exact .inl fired

/-- **What no member's guarantee breaks, holds at every moment.** -/
theorem Path.always {property : σ → Prop}
    (guaranteed : ∀ member {state later},
      (conduct member).guarantee state later → property state → property later)
    (holds : property commons.state) (path : company.Path flows commons trace flows' commons') :
    property commons'.state := by
  induction path with
  | start => exact holds
  | step path step ih =>
    obtain ⟨member, moved⟩ := step
    obtain ⟨_, own⟩ := path.member agrees ensures fires member
    exact guaranteed member ((ensures member _ rfl (fires member) _ _ _ own).1 _ _ _ moved) ih

/-- **What a member ensures of its end**, it ensures in company. -/
theorem Path.ended (path : company.Path flows commons trace flows' commons') {member : ι}
    {value : α} (finished : flows' member = .done value) :
    ∃ own, statement member value commons'.state own := by
  obtain ⟨own, mine⟩ := path.member agrees ensures fires member
  exact ⟨own, (ensures member _ rfl (fires member) _ _ _ mine).2 value finished⟩

end Promises

/-! ### Requests -/

/-- The requests of all members account for what has become of the state. -/
theorem Path.log {services : Service I σ → Prop}
    (within : ∀ member service, (company.setting member).services service → services service)
    (path : company.Path flows commons trace flows' commons') :
    Log services commons.state trace commons'.state := by
  induction path with
  | start => exact .nothing
  | step _ step ih =>
    obtain ⟨member, moved⟩ := step
    exact ih.append (moved.mono (within member)).log

/-- Members that ask only what is allowed have asked only what is allowed. -/
theorem Path.asks {allowed : I.Request → Prop} (asks : ∀ member, (flows member).Asks allowed)
    (path : company.Path flows commons trace flows' commons') :
    (∀ exchange ∈ trace, allowed exchange.1) ∧ ∀ member, (flows' member).Asks allowed := by
  induction path with
  | start => exact ⟨by simp, asks⟩
  | step _ step ih =>
    obtain ⟨member, moved⟩ := step
    obtain ⟨asked, rest⟩ := moved.asks (ih.2 member)
    refine ⟨List.forall_mem_append.mpr ⟨ih.1, asked⟩, fun other => ?_⟩
    by_cases same : other = member
    · rwa [same, Function.update_self]
    · rw [Function.update_of_ne same]
      exact ih.2 other

/-! ### All schedules -/

/-- The runs after a step of one of them. -/
def Follows (services : Service I σ → Prop) (later flows : ι → Flow I α) : Prop :=
  ∃ member flow, Flow.Follows services flow (flows member) ∧
    later = Function.update flows member flow

/-- **Finitely many runs take finitely many steps together.** -/
theorem follows_wellFounded [Fintype ι] (services : Service I σ → Prop) :
    WellFounded (Follows services : (ι → Flow I α) → (ι → Flow I α) → Prop) := by
  refine Subrelation.wf ?_ (InvImage.wf (fun flows => Finset.univ.val.map flows)
    (WellFounded.intro (Flow.acc_follows services)).cutExpand)
  rintro _ flows ⟨member, flow, further, rfl⟩
  refine ⟨{flow}, flows member, fun later only => ?_, ?_⟩
  · rw [Multiset.mem_singleton.mp only]
    exact further
  · have others : (Finset.univ.erase member).val.map (Function.update flows member flow) =
        (Finset.univ.erase member).val.map flows :=
      Multiset.map_congr rfl fun other inside =>
        Function.update_of_ne (Finset.ne_of_mem_erase inside) _ _
    have all := Multiset.cons_erase (Finset.mem_univ_val member)
    show Finset.univ.val.map (Function.update flows member flow) + {flows member} =
      Finset.univ.val.map flows + {flow}
    rw [← all, Multiset.map_cons, Multiset.map_cons, Function.update_self, ← Finset.erase_val,
      others, ← Multiset.singleton_add, ← Multiset.singleton_add]
    abel

/-- A permit of each crew is free, or held by a task of one of its members. -/
def Permits (company : Company ι κ I σ) (flows : ι → Flow I α) (commons : Commons κ σ) : Prop :=
  ∀ member, 0 < commons.free (company.crew member) ∨
    ∃ other, company.crew other = company.crew member ∧ 0 < (flows other).holding

/-- A step keeps a permit within the reach of each crew. -/
theorem Step.permits {now : List (Exchange I)} {later : ι → Flow I α} {commons' : Commons κ σ}
    (step : company.Step flows commons now later commons')
    (permits : company.Permits flows commons) : company.Permits later commons' := by
  obtain @⟨mover, _, flow, world, moved⟩ := step
  intro member
  by_cases crew : company.crew member = company.crew mover
  · rw [crew, Commons.free_after_self]
    have reach (within : 0 < commons.free (company.crew mover) + (flows mover).holding) :
        0 < world.free ∨ ∃ other, company.crew other = company.crew mover ∧
          0 < (Function.update flows mover flow other).holding :=
      (Nat.add_pos_iff_pos_or_pos.mp (moved.permits within)).imp_right fun holds =>
        ⟨mover, rfl, by rwa [Function.update_self]⟩
    rcases permits member with free | ⟨other, same, holds⟩
    · exact reach (Nat.add_pos_left (crew ▸ free) _)
    · by_cases own : other = mover
      · exact reach (Nat.add_pos_right _ (own ▸ holds))
      · exact .inr ⟨other, same.trans crew, by rwa [Function.update_of_ne own]⟩
  · rw [Commons.free_after_of_ne _ crew]
    refine (permits member).imp_right fun ⟨other, same, holds⟩ => ⟨other, same, ?_⟩
    have differs : other ≠ mover := fun own => crew (same ▸ own ▸ rfl)
    rwa [Function.update_of_ne differs]

/-- **Runs that are not all done can take a step**, if each crew has a permit within reach. -/
theorem exists_step (served : ∀ member, ∃ service, (company.setting member).services service)
    (permits : company.Permits flows commons)
    (unfinished : ¬ ∃ values : ι → α, flows = fun member => .done (values member)) :
    ∃ now later commons', company.Step flows commons now later commons' := by
  have moves {member : ι} (within : 0 < commons.free (company.crew member) + (flows member).holding)
      (unfinished : ∀ value, flows member ≠ .done value) :
      ∃ now later commons', company.Step flows commons now later commons' := by
    have within : 0 < (commons.world (company.crew member)).free + (flows member).holding := within
    obtain ⟨now, later, world, step⟩ := Flow.exists_step (served member) within unfinished
    exact ⟨now, _, _, .move member step⟩
  obtain ⟨member, open'⟩ : ∃ member, ∀ value, flows member ≠ .done value := by
    by_contra! finished
    choose values same using finished
    exact unfinished ⟨values, funext same⟩
  rcases permits member with free | ⟨other, -, holds⟩
  · exact moves (Nat.add_pos_left free _) open'
  · refine moves (Nat.add_pos_right _ holds) fun value done => ?_
    rw [done] at holds
    exact Nat.lt_irrefl 0 holds

/-- **Whatever the schedule, all runs come to an end, and there the statement holds** of their
values, of the state and of the requests made; and at every moment until then the state is as it is
always. -/
inductive EndsIn (company : Company ι κ I σ) (always : σ → Prop)
    (statement : (ι → α) → σ → List (Exchange I) → Prop) :
    List (Exchange I) → (ι → Flow I α) → Commons κ σ → Prop
  | done {trace : List (Exchange I)} {values : ι → α} {commons : Commons κ σ}
      (now : always commons.state) (holds : statement values commons.state trace) :
      EndsIn company always statement trace (fun member => .done (values member)) commons
  | step {trace : List (Exchange I)} {flows : ι → Flow I α} {commons : Commons κ σ}
      (now : always commons.state)
      (possible : ∃ more later commons', company.Step flows commons more later commons')
      (every : ∀ {more : List (Exchange I)} {later : ι → Flow I α} {commons' : Commons κ σ},
        company.Step flows commons more later commons' →
          EndsIn company always statement (trace ++ more) later commons') :
      EndsIn company always statement trace flows commons

theorem EndsIn.mono {always laxer : σ → Prop}
    {statement weaker : (ι → α) → σ → List (Exchange I) → Prop}
    (ends : company.EndsIn always statement trace flows commons)
    (moments : ∀ state, always state → laxer state)
    (implies : ∀ values state trace, statement values state trace → weaker values state trace) :
    company.EndsIn laxer weaker trace flows commons := by
  induction ends with
  | done now holds => exact .done (moments _ now) (implies _ _ _ holds)
  | step now possible _ ih => exact .step (moments _ now) possible ih

/-- All runs end as stated under every schedule if every path is as stated, and ends so. -/
theorem endsIn_of_path [Fintype ι]
    (served : ∀ member, ∃ service, (company.setting member).services service)
    {always : σ → Prop} {statement : (ι → α) → σ → List (Exchange I) → Prop}
    (permits : company.Permits flows commons)
    (now : ∀ trace flows' commons',
      company.Path flows commons trace flows' commons' → always commons'.state)
    (holds : ∀ trace values commons',
      company.Path flows commons trace (fun member => .done (values member)) commons' →
        statement values commons'.state trace) :
    company.EndsIn always statement [] flows commons := by
  let any (_ : Service I σ) : Prop := True
  suffices ∀ flows' : ι → Flow I α, Acc (Follows any) flows' → ∀ trace commons',
      company.Path flows commons trace flows' commons' → company.Permits flows' commons' →
      company.EndsIn always statement trace flows' commons' from
    this flows ((follows_wellFounded any).apply flows) [] commons .start permits
  intro flows' further
  induction further with
  | intro flows' _ ih =>
    intro trace commons' path permits
    by_cases finished : ∃ values : ι → α, flows' = fun member => .done (values member)
    · obtain ⟨values, rfl⟩ := finished
      exact .done (now _ _ _ path) (holds _ _ _ path)
    · refine .step (now _ _ _ path) (exists_step served permits finished) fun {_ later _} step => ?_
      refine ih later ?_ _ _ (path.step step) (step.permits permits)
      obtain ⟨member, moved⟩ := step
      exact ⟨member, _, ⟨_, _, _, moved.mono fun _ _ => trivial⟩, rfl⟩

end Company

end Transcode
