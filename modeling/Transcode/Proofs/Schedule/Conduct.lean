/-
**What a task promises while others are at work.** Between two questions of a task anything may
happen to the state that the others are allowed to do to it.

* `Conduct` says what a task relies on, and what it guarantees to the others in return.
* `Task.Ensures` holds of a task that keeps its guarantee with every question and ends as stated,
  whatever happens in between and whichever service answers. The statement it ends in is stable
  (`Task.Ensures.steady`), and a task that is followed by another is taken apart by
  `Task.Ensures.bind`.
* `Conduct.lax` relies on nothing and guarantees nothing, so every task keeps to it.
* `Task.Yields` relates a task to the values it can end in, with the questions and answers on the
  way there; it does not look at the state at all.
-/
import Transcode.Proofs.Schedule.Step

namespace Transcode

variable {I : Interface} {σ α β : Type}

/-- What part of a run relies on, and what it guarantees in return. -/
structure Conduct (σ : Type) where
  /-- What the others may do to the state. -/
  rely : σ → σ → Prop
  /-- What one step of this part may do to the state. -/
  guarantee : σ → σ → Prop
  rely_refl : ∀ state, rely state state
  rely_trans : ∀ {first second third}, rely first second → rely second third → rely first third
  guarantee_refl : ∀ state, guarantee state state

/-- A conduct is within another if it relies on no more and guarantees no less. -/
structure Conduct.Within (conduct other : Conduct σ) : Prop where
  rely : ∀ {state later}, other.rely state later → conduct.rely state later
  guarantee : ∀ {state later}, conduct.guarantee state later → other.guarantee state later

/-- The conduct where nobody else is at work. -/
def Conduct.alone (conduct : Conduct σ) : Conduct σ where
  rely := Eq
  guarantee := conduct.guarantee
  rely_refl _ := rfl
  rely_trans := Eq.trans
  guarantee_refl := conduct.guarantee_refl

theorem Conduct.within_alone (conduct : Conduct σ) : conduct.Within conduct.alone where
  rely same := same ▸ conduct.rely_refl _
  guarantee := id

/-- The conduct of those who rely on nothing and guarantee nothing. -/
def Conduct.lax : Conduct σ where
  rely _ _ := True
  guarantee _ _ := True
  rely_refl _ := trivial
  rely_trans _ _ := trivial
  guarantee_refl _ := trivial

namespace Task

/-- The task keeps its guarantee with every question, and ends as stated. -/
def Ensures (services : Service I σ → Prop) (conduct : Conduct σ) (statement : α → σ → Prop) :
    Task I α → σ → Prop
  | .done value, state => ∀ later, conduct.rely state later → statement value later
  | .ask request next, state => ∀ later, conduct.rely state later →
      ∀ service, services service →
        conduct.guarantee later (service.reply request later).state ∧
          Ensures services conduct statement (next (service.reply request later).answer)
            (service.reply request later).state

variable {services : Service I σ → Prop} {conduct : Conduct σ}

/-- What a task ensures, it still ensures after the others have been at work. -/
theorem Ensures.later {statement : α → σ → Prop} {task : Task I α} {state later : σ}
    (ensures : task.Ensures services conduct statement state)
    (allowed : conduct.rely state later) : task.Ensures services conduct statement later := by
  cases task with
  | done value => exact fun final more => ensures final (conduct.rely_trans allowed more)
  | ask request next => exact fun final more => ensures final (conduct.rely_trans allowed more)

theorem Ensures.mono {statement weaker : α → σ → Prop} {task : Task I α} {state : σ}
    (ensures : task.Ensures services conduct statement state)
    (implies : ∀ value state, statement value state → weaker value state) :
    task.Ensures services conduct weaker state := by
  induction task generalizing state with
  | done value => exact fun later allowed => implies _ _ (ensures later allowed)
  | ask request next ih =>
    intro later allowed service serves
    obtain ⟨kept, rest⟩ := ensures later allowed service serves
    exact ⟨kept, ih _ rest⟩

/-- **The statement that a task ends in is stable**: the others cannot undo it. -/
theorem Ensures.steady {statement : α → σ → Prop} {task : Task I α} {state : σ}
    (ensures : task.Ensures services conduct statement state) :
    task.Ensures services conduct
      (fun value state => ∀ later, conduct.rely state later → statement value later) state := by
  induction task generalizing state with
  | done value =>
    exact fun later allowed final more => ensures final (conduct.rely_trans allowed more)
  | ask request next ih =>
    intro later allowed service serves
    obtain ⟨kept, rest⟩ := ensures later allowed service serves
    exact ⟨kept, ih _ rest⟩

/-- A task followed by another, taken apart. -/
theorem Ensures.bind {statement : β → σ → Prop} {task : Task I α} {after : α → Task I β}
    {state : σ}
    (ensures : task.Ensures services conduct
      (fun value state => (after value).Ensures services conduct statement state) state) :
    (task.bind after).Ensures services conduct statement state := by
  induction task generalizing state with
  | done value => exact ensures state (conduct.rely_refl state)
  | ask request next ih =>
    intro later allowed service serves
    obtain ⟨kept, rest⟩ := ensures later allowed service serves
    exact ⟨kept, ih _ rest⟩

/-- A task may be given more room than it needs. -/
theorem Ensures.within {other : Conduct σ} {statement : α → σ → Prop} {task : Task I α}
    {state : σ} (ensures : task.Ensures services conduct statement state)
    (within : conduct.Within other) : task.Ensures services other statement state := by
  induction task generalizing state with
  | done value => exact fun later allowed => ensures later (within.rely allowed)
  | ask request next ih =>
    intro later allowed service serves
    obtain ⟨kept, rest⟩ := ensures later (within.rely allowed) service serves
    exact ⟨within.guarantee kept, ih _ rest⟩

/-- What no step breaks may be added to the statement. -/
theorem Ensures.and_always {statement : α → σ → Prop} {task : Task I α} {state : σ}
    (ensures : task.Ensures services conduct statement state) {property : σ → Prop}
    (relied : ∀ {state later}, conduct.rely state later → property state → property later)
    (guaranteed : ∀ {state later}, conduct.guarantee state later → property state →
      property later)
    (holds : property state) :
    task.Ensures services conduct (fun value state => statement value state ∧ property state)
      state := by
  induction task generalizing state with
  | done value => exact fun later allowed => ⟨ensures later allowed, relied allowed holds⟩
  | ask request next ih =>
    intro later allowed service serves
    obtain ⟨kept, rest⟩ := ensures later allowed service serves
    exact ⟨kept, ih _ rest (guaranteed kept (relied allowed holds))⟩

/-- Every task keeps to the conduct that asks nothing of it. -/
theorem ensures_lax (services : Service I σ → Prop) (task : Task I α) (state : σ) :
    task.Ensures services Conduct.lax (fun _ _ => True) state := by
  induction task generalizing state with
  | done value => exact fun later allowed => trivial
  | ask request next ih => exact fun later allowed service serves => ⟨trivial, ih _ _⟩

/-! ### Questions on the way to a value -/

/-- The task can end in the value after these questions and answers. -/
inductive Yields : Task I α → List (Exchange I) → α → Prop
  | done (value : α) : Yields (.done value) [] value
  | ask (request : I.Request) {next : I.Answer request → Task I α} (answer : I.Answer request)
      {trace : List (Exchange I)} {value : α} (rest : Yields (next answer) trace value) :
      Yields (.ask request next) (⟨request, answer⟩ :: trace) value

theorem Yields.of_done {value result : α} {trace : List (Exchange I)}
    (yields : (Task.done value).Yields trace result) : trace = [] ∧ result = value := by
  cases yields
  exact ⟨rfl, rfl⟩

/-- The way to a value through a task that is followed by another leads through a value of the
first. -/
theorem Yields.of_bind {task : Task I α} {after : α → Task I β} {trace : List (Exchange I)}
    {value : β} (yields : (task.bind after).Yields trace value) :
    ∃ first second middle, trace = first ++ second ∧ task.Yields first middle ∧
      (after middle).Yields second value := by
  induction task generalizing trace with
  | done middle => exact ⟨[], trace, middle, rfl, .done middle, yields⟩
  | ask request next ih =>
    cases yields with
    | ask _ answer rest =>
      obtain ⟨first, second, middle, rfl, here, there⟩ := ih _ rest
      exact ⟨⟨request, answer⟩ :: first, second, middle, rfl, .ask request answer here, there⟩

end Task

end Transcode
