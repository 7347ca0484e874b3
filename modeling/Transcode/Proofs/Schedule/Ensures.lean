/-
**What a run promises under every schedule.**

* `Flow.Ensures` holds of a run if each of its own steps keeps the guarantee, along every path, and
  if wherever a path ends the statement holds of the value, the state and the requests made.
* It is proved by an invariant over the paths (`Flow.ensures_of_invariant`), and one part of a run
  at a time: a task without stages (`Flow.ensures_ofTask`), a look at the cancellation token
  (`Flow.ensures_checkpoint`) and one run after another (`Flow.Ensures.bind`).
* A property of the state that no step breaks holds along every path (`Flow.Ensures.always`).
-/
import Transcode.Proofs.Schedule.Conduct

namespace Transcode.Flow

variable {I : Interface} {σ α β : Type} {setting : Setting I σ}

/-! ### Paths -/

/-- The token has fired only where it may fire. -/
theorem Path.interruptible {rely : σ → σ → Prop} {flow flow' : Flow I α} {world world' : World σ}
    {trace : List (Exchange I)} (path : Path setting rely flow world trace flow' world')
    (fires : world.cancelled = true → setting.interruptible) :
    world'.cancelled = true → setting.interruptible := by
  induction path with
  | start => exact fires
  | disturb _ _ more ih => exact fun fired => (more fired).elim ih id
  | step _ step ih =>
    cases step with
    | ask serves =>
      intro fired
      rcases Bool.or_eq_true _ _ ▸ fired with before | now
      · exact ih before
      · exact setting.cancels serves _ _ now
    | checkpoint => exact ih
    | settle _ => exact ih
    | stage moved =>
      rcases moved.cases with ⟨_, _, _, _, _, _, _, rfl, _⟩ |
        ⟨_, _, request, _, _, service, serves, _, _, rfl, _⟩ | ⟨_, _, _, _, _, _, concluded⟩
      · exact ih
      · intro fired
        rcases Bool.or_eq_true _ _ ▸ fired with before | now
        · exact ih before
        · exact setting.cancels serves _ _ now
      · cases concluded
        exact ih

/-- Paths in a row are a path. -/
theorem Path.append {rely : σ → σ → Prop} {flow flow' flow'' : Flow I α}
    {world world' world'' : World σ} {trace more : List (Exchange I)}
    (path : Path setting rely flow world trace flow' world')
    (rest : Path setting rely flow' world' more flow'' world'') :
    Path setting rely flow world (trace ++ more) flow'' world'' := by
  induction rest with
  | start => rwa [List.append_nil]
  | disturb _ allowed fires ih => exact ih.disturb allowed fires
  | step _ step ih =>
    rw [← List.append_assoc]
    exact ih.step step

/-! ### Promises -/

/-- **What a run promises**: its own steps keep the guarantee, and it ends as stated. -/
def Ensures (setting : Setting I σ) (conduct : Conduct σ)
    (statement : α → σ → List (Exchange I) → Prop) (flow : Flow I α) (state : σ) : Prop :=
  ∀ world : World σ, world.state = state → (world.cancelled = true → setting.interruptible) →
    ∀ trace flow' world', Path setting conduct.rely flow world trace flow' world' →
      (∀ now flow'' world'', Step setting.services flow' world' now flow'' world'' →
        conduct.guarantee world'.state world''.state) ∧
      ∀ value, flow' = .done value → statement value world'.state trace

variable {conduct : Conduct σ}

/-- **A promise is proved by an invariant** of what is left of the run, of the state and of the
requests made so far. -/
theorem ensures_of_invariant {statement : α → σ → List (Exchange I) → Prop}
    (invariant : Flow I α → σ → List (Exchange I) → Prop) {flow : Flow I α} {state : σ}
    (start : invariant flow state [])
    (step : ∀ {flow flow' : Flow I α} {world world' : World σ} {trace now : List (Exchange I)},
      invariant flow world.state trace → (world.cancelled = true → setting.interruptible) →
      Step setting.services flow world now flow' world' →
      conduct.guarantee world.state world'.state ∧
        invariant flow' world'.state (trace ++ now))
    (disturb : ∀ {flow : Flow I α} {state later : σ} {trace : List (Exchange I)},
      invariant flow state trace → conduct.rely state later → invariant flow later trace)
    (ended : ∀ {value : α} {state : σ} {trace : List (Exchange I)},
      invariant (.done value) state trace → statement value state trace) :
    flow.Ensures setting conduct statement state := by
  rintro world rfl fires trace flow' world' path
  have kept : invariant flow' world'.state trace := by
    induction path with
    | start => exact start
    | step path now ih => exact (step ih (path.interruptible fires) now).2
    | disturb _ allowed _ ih => exact disturb ih allowed
  refine ⟨fun now flow'' world'' moved => (step kept (path.interruptible fires) moved).1, ?_⟩
  rintro value rfl
  exact ended kept

/-- A promise after one step, for the rest of the requests. -/
theorem Ensures.step {statement : α → σ → List (Exchange I) → Prop} {flow flow' : Flow I α}
    {world world' : World σ} {now : List (Exchange I)}
    (ensures : flow.Ensures setting conduct statement world.state)
    (fires : world.cancelled = true → setting.interruptible)
    (step : Step setting.services flow world now flow' world') :
    conduct.guarantee world.state world'.state ∧
      flow'.Ensures setting conduct (fun value state trace => statement value state (now ++ trace))
        world'.state := by
  refine ⟨(ensures world rfl fires _ _ _ .start).1 _ _ _ step, ?_⟩
  intro world'' same fires' trace later final path
  have first : Path setting conduct.rely flow world ([] ++ now) flow' world'' :=
    (Path.step .start step).disturb (same ▸ conduct.rely_refl _) fun fired => .inr (fires' fired)
  exact ensures world rfl fires _ _ _ (first.append path)

/-- A promise after the others have been at work. -/
theorem Ensures.later {statement : α → σ → List (Exchange I) → Prop} {flow : Flow I α}
    {state later : σ} (ensures : flow.Ensures setting conduct statement state)
    (allowed : conduct.rely state later) : flow.Ensures setting conduct statement later := by
  rintro world rfl fires trace flow' world' path
  refine ensures { world with state := state } rfl fires trace flow' world' ?_
  rw [← List.nil_append trace]
  exact Path.append (Path.start.disturb allowed fun fired => .inl fired) path

/-- A promise about a finished run. -/
theorem Ensures.value {statement : α → σ → List (Exchange I) → Prop} {value : α} {state : σ}
    (ensures : (Flow.done value).Ensures setting conduct statement state) :
    statement value state [] := by
  refine (ensures ⟨0, false, state⟩ rfl (fun fired => ?_) _ _ _ .start).2 _ rfl
  cases fired

theorem Ensures.mono {statement weaker : α → σ → List (Exchange I) → Prop} {flow : Flow I α}
    {state : σ} (ensures : flow.Ensures setting conduct statement state)
    (implies : ∀ value state trace, statement value state trace → weaker value state trace) :
    flow.Ensures setting conduct weaker state := by
  intro world same fires trace flow' world' path
  obtain ⟨kept, ended⟩ := ensures world same fires trace flow' world' path
  exact ⟨kept, fun value done => implies _ _ _ (ended value done)⟩

/-- A run may be given more room than it needs. -/
theorem Ensures.within {other : Conduct σ} {statement : α → σ → List (Exchange I) → Prop}
    {flow : Flow I α} {state : σ} (ensures : flow.Ensures setting conduct statement state)
    (within : conduct.Within other) : flow.Ensures setting other statement state := by
  intro world same fires trace flow' world' path
  obtain ⟨kept, ended⟩ := ensures world same fires trace flow' world'
    (path.mono fun _ _ allowed => within.rely allowed)
  exact ⟨fun now flow'' world'' step => within.guarantee (kept now flow'' world'' step), ended⟩

/-- **What no step breaks, holds along every path.** -/
theorem Ensures.always {statement : α → σ → List (Exchange I) → Prop} {flow : Flow I α}
    {world : World σ} (ensures : flow.Ensures setting conduct statement world.state)
    (fires : world.cancelled = true → setting.interruptible) {property : σ → Prop}
    (relied : ∀ {state later}, conduct.rely state later → property state → property later)
    (guaranteed : ∀ {state later}, conduct.guarantee state later → property state →
      property later)
    (holds : property world.state) {trace : List (Exchange I)} {flow' : Flow I α}
    {world' : World σ} (path : Path setting conduct.rely flow world trace flow' world') :
    property world'.state := by
  induction path with
  | start => exact holds
  | step path step ih => exact guaranteed ((ensures world rfl fires _ _ _ path).1 _ _ _ step) ih
  | disturb _ allowed _ ih => exact relied allowed ih

/-- What no step breaks may be added to the statement. -/
theorem Ensures.and_always {statement : α → σ → List (Exchange I) → Prop} {flow : Flow I α}
    {state : σ} (ensures : flow.Ensures setting conduct statement state) {property : σ → Prop}
    (relied : ∀ {state later}, conduct.rely state later → property state → property later)
    (guaranteed : ∀ {state later}, conduct.guarantee state later → property state →
      property later)
    (holds : property state) :
    flow.Ensures setting conduct
      (fun value state trace => statement value state trace ∧ property state) state := by
  rintro world rfl fires trace flow' world' path
  obtain ⟨kept, ended⟩ := ensures world rfl fires trace flow' world' path
  exact ⟨kept, fun value done =>
    ⟨ended value done, ensures.always fires relied guaranteed holds path⟩⟩

/-! ### Parts of a run -/

theorem ensures_done {statement : α → σ → List (Exchange I) → Prop} {value : α} {state : σ}
    (holds : ∀ later, conduct.rely state later → statement value later []) :
    (Flow.done value).Ensures setting conduct statement state := by
  refine ensures_of_invariant
    (fun flow state trace => flow = .done value ∧ trace = [] ∧
      ∀ later, conduct.rely state later → statement value later [])
    ⟨rfl, rfl, holds⟩ ?_ ?_ ?_
  · rintro flow flow' world world' trace now ⟨rfl, _, _⟩ _ step
    cases step
  · rintro flow state later trace ⟨rfl, rfl, holds⟩ allowed
    exact ⟨rfl, rfl, fun final more => holds final (conduct.rely_trans allowed more)⟩
  · rintro value' state trace ⟨same, rfl, holds⟩
    cases same
    exact holds state (conduct.rely_refl state)

/-- A run followed by another, taken apart. The requests of both are made in a row. -/
theorem Ensures.bind {statement : β → σ → List (Exchange I) → Prop} {flow : Flow I α}
    {after : α → Flow I β} {state : σ}
    (ensures : flow.Ensures setting conduct
      (fun value state trace => (after value).Ensures setting conduct
        (fun value state more => statement value state (trace ++ more)) state) state) :
    (flow.bind after).Ensures setting conduct statement state := by
  let shifted (trace : List (Exchange I)) (value : β) (state : σ) (more : List (Exchange I)) :=
    statement value state (trace ++ more)
  refine ensures_of_invariant
    (fun current state trace =>
      (∃ first : Flow I α, current = first.bind after ∧ first.Ensures setting conduct
        (fun value state more => (after value).Ensures setting conduct
          (shifted (trace ++ more)) state) state) ∨
      current.Ensures setting conduct (shifted trace) state)
    (.inl ⟨flow, rfl, ensures⟩) ?_ ?_ ?_
  · -- A step belongs to the first run until that is done.
    rintro current later world world' trace now kept fires step
    have second (promise : current.Ensures setting conduct (shifted trace) world.state) :
        conduct.guarantee world.state world'.state ∧
          later.Ensures setting conduct (shifted (trace ++ now)) world'.state := by
      obtain ⟨guaranteed, rest⟩ := promise.step fires step
      refine ⟨guaranteed, rest.mono fun value state more holds => ?_⟩
      simpa [shifted] using holds
    rcases kept with ⟨first, rfl, promise⟩ | promise
    · rcases step_bind step with ⟨value, rfl⟩ | ⟨first', rfl, inner⟩
      · have promise := promise.value
        rw [List.append_nil] at promise
        exact (second promise).imp_right .inr
      · obtain ⟨guaranteed, rest⟩ := promise.step fires inner
        refine ⟨guaranteed, .inl ⟨first', rfl, rest.mono fun value state more holds => ?_⟩⟩
        simpa only [List.append_assoc] using holds
    · exact (second promise).imp_right .inr
  · rintro current state later trace (⟨first, rfl, promise⟩ | promise) allowed
    · exact .inl ⟨first, rfl, promise.later allowed⟩
    · exact .inr (promise.later allowed)
  · rintro value state trace (⟨first, shape, promise⟩ | promise)
    · cases first with
      | done middle =>
        have last := promise.value
        rw [List.append_nil] at last
        have last := (show (after middle) = Flow.done value from shape.symm) ▸ last
        simpa [shifted] using last.value
      | ask request next => cases shape
      | checkpoint next => cases shape
      | stage pool next => cases shape
    · simpa [shifted] using promise.value

/-- What a task ensures, it ensures as a run without stages. -/
theorem ensures_ofTask {statement : α → σ → Prop} {task : Task I α} {state : σ}
    (ensures : task.Ensures setting.services conduct statement state) :
    (Flow.ofTask task).Ensures setting conduct
      (fun value state trace => statement value state ∧ task.Yields trace value) state := by
  refine ensures_of_invariant
    (fun flow state trace => ∃ current : Task I α, flow = Flow.ofTask current ∧
      current.Ensures setting.services conduct statement state ∧
      ∀ more value, current.Yields more value → task.Yields (trace ++ more) value)
    ⟨task, rfl, ensures, fun _ _ yields => yields⟩ ?_ ?_ ?_
  · rintro flow flow' world world' trace now ⟨current, rfl, promise, way⟩ _ step
    cases current with
    | done value => cases step
    | ask request next =>
      cases step with
      | @ask _ _ _ service serves =>
        obtain ⟨guaranteed, rest⟩ := promise _ (conduct.rely_refl _) service serves
        refine ⟨guaranteed, _, rfl, rest, fun more value yields => ?_⟩
        rw [List.append_assoc]
        exact way _ _ (.ask request _ yields)
  · rintro flow state later trace ⟨current, rfl, promise, way⟩ allowed
    exact ⟨current, rfl, promise.later allowed, way⟩
  · rintro value state trace ⟨current, shape, promise, way⟩
    cases current with
    | ask request next => cases shape
    | done value =>
      cases shape
      have yields := way [] value (.done value)
      rw [List.append_nil] at yields
      exact ⟨promise state (conduct.rely_refl state), yields⟩

/-- A look at the cancellation token, which has fired only where it may fire. -/
theorem ensures_checkpoint {statement : α → σ → List (Exchange I) → Prop}
    {next : Bool → Flow I α} {state : σ}
    (ensures : ∀ cancelled : Bool, (cancelled = true → setting.interruptible) →
      (next cancelled).Ensures setting conduct statement state) :
    (Flow.checkpoint next).Ensures setting conduct statement state := by
  refine ensures_of_invariant
    (fun flow state trace =>
      (flow = .checkpoint next ∧ trace = [] ∧
        ∀ cancelled : Bool, (cancelled = true → setting.interruptible) →
          (next cancelled).Ensures setting conduct statement state) ∨
      flow.Ensures setting conduct
        (fun value state more => statement value state (trace ++ more)) state)
    (.inl ⟨rfl, rfl, ensures⟩) ?_ ?_ ?_
  · rintro flow flow' world world' trace now (⟨rfl, rfl, promise⟩ | promise) fires step
    · cases step with
      | checkpoint =>
        exact ⟨conduct.guarantee_refl _, .inr (promise world.cancelled fires)⟩
    · obtain ⟨guaranteed, rest⟩ := promise.step fires step
      refine ⟨guaranteed, .inr (rest.mono fun value state more holds => ?_)⟩
      simpa only [List.append_assoc] using holds
  · rintro flow state later trace (⟨rfl, rfl, promise⟩ | promise) allowed
    · exact .inl ⟨rfl, rfl, fun cancelled fires => (promise cancelled fires).later allowed⟩
    · exact .inr (promise.later allowed)
  · rintro value state trace (⟨shape, _⟩ | promise)
    · cases shape
    · simpa using promise.value

end Transcode.Flow
