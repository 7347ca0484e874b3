/-
**Jobs and plans that may fail.** What a part of a run ensures is said apart for its values and for
its errors: the `statement` holds of a value, the `excuse` of an error.

* `Job.Ensures` is such a promise of a part without stages, `Plan.Ensures` of a part that may pass
  through stages; the statement of the latter also sees the requests made.
* An error ends a job, so in a sequence only the statement is handed on (`Job.Ensures.bind`,
  `Plan.Ensures.bind`).
* `Job.ensures_interpret` and `Job.ensures_codec` are the two kinds of single requests.
-/
import Transcode.Proofs.Schedule.Ensures
import Transcode.Run.Chain

namespace Transcode.Run

variable {σ α β : Type}

/-- What is stated of a value, and what of an error. -/
def Verdict (statement : α → σ → Prop) (excuse : RunError → σ → Prop) :
    Except RunError α → σ → Prop
  | .ok value, state => statement value state
  | .error error, state => excuse error state

theorem Verdict.imp {statement weaker : α → σ → Prop} {excuse laxer : RunError → σ → Prop}
    {result : Except RunError α} {state : σ} (verdict : Verdict statement excuse result state)
    (values : ∀ value, statement value state → weaker value state)
    (errors : ∀ error, excuse error state → laxer error state) :
    Verdict weaker laxer result state := by
  cases result with
  | ok value => exact values value verdict
  | error error => exact errors error verdict

/-! ### Jobs -/

namespace Job

/-- What a job ensures of its value, and of its error. -/
def Ensures (services : Service interface σ → Prop) (conduct : Conduct σ)
    (statement : α → σ → Prop) (excuse : RunError → σ → Prop) (job : Job α) (state : σ) : Prop :=
  Task.Ensures services conduct (Verdict statement excuse) job.run state

variable {services : Service interface σ → Prop} {conduct : Conduct σ}
  {excuse : RunError → σ → Prop}

theorem Ensures.mono {statement weaker : α → σ → Prop} {laxer : RunError → σ → Prop}
    {job : Job α} {state : σ} (ensures : Ensures services conduct statement excuse job state)
    (values : ∀ value state, statement value state → weaker value state)
    (errors : ∀ error state, excuse error state → laxer error state) :
    Ensures services conduct weaker laxer job state :=
  Task.Ensures.mono ensures fun _ state verdict =>
    verdict.imp (fun value => values value state) fun error => errors error state

/-- A job may be given more room than it needs. -/
theorem Ensures.within {other : Conduct σ} {statement : α → σ → Prop} {job : Job α} {state : σ}
    (ensures : Ensures services conduct statement excuse job state)
    (within : conduct.Within other) : Ensures services other statement excuse job state :=
  Task.Ensures.within ensures within

/-- What no step breaks may be added to the statement. -/
theorem Ensures.and_always {statement : α → σ → Prop} {job : Job α} {state : σ}
    (ensures : Ensures services conduct statement excuse job state) {property : σ → Prop}
    (relied : ∀ {state later}, conduct.rely state later → property state → property later)
    (guaranteed : ∀ {state later}, conduct.guarantee state later → property state →
      property later)
    (holds : property state) :
    Ensures services conduct (fun value state => statement value state ∧ property state) excuse job
      state := by
  refine (Task.Ensures.and_always ensures relied guaranteed holds).mono ?_
  exact fun _ _ ⟨verdict, kept⟩ => verdict.imp (fun _ holds => ⟨holds, kept⟩) fun _ => id

/-- **A job followed by another.** An error of the first is the error of both. -/
theorem Ensures.bind {statement : β → σ → Prop} {job : Job α} {after : α → Job β} {state : σ}
    (ensures : Ensures services conduct
      (fun value state => Ensures services conduct statement excuse (after value) state)
      excuse job state) :
    Ensures services conduct statement excuse (job >>= after) state := by
  refine Task.Ensures.bind ((Task.Ensures.steady ensures).mono fun result later settled => ?_)
  cases result with
  | ok value => exact settled later (conduct.rely_refl later)
  | error error => exact settled

/-- A job followed by another, which goes on from what the first ensures. -/
theorem Ensures.andThen {statement : α → σ → Prop} {further : β → σ → Prop} {job : Job α}
    {after : α → Job β} {state : σ} (ensures : Ensures services conduct statement excuse job state)
    (onward : ∀ value later, statement value later →
      Ensures services conduct further excuse (after value) later) :
    Ensures services conduct further excuse (job >>= after) state :=
  Ensures.bind (ensures.mono onward fun _ _ => id)

theorem ensures_pure {statement : α → σ → Prop} {value : α} {state : σ}
    (holds : ∀ later, conduct.rely state later → statement value later) :
    Ensures services conduct statement excuse (pure value) state :=
  holds

theorem ensures_ok {statement : α → σ → Prop} {result : Except RunError α} {value : α} {state : σ}
    (fine : result = .ok value)
    (holds : ∀ later, conduct.rely state later → statement value later) :
    Ensures services conduct statement excuse (ofExcept result) state := by
  subst fine
  exact holds

/-- **One ledger operation**, answered at any later moment. -/
theorem ensures_interpret {statement : α → σ → Prop} {op : Ledger.Op}
    {read : op.Answer → Except RunError α} {state : σ}
    (holds : ∀ later, conduct.rely state later → ∀ service, services service →
      conduct.guarantee later (service.reply (.ledger op) later).state ∧
        ∀ final, conduct.rely (service.reply (.ledger op) later).state final →
          Verdict statement excuse (read (service.reply (.ledger op) later).answer) final) :
    Ensures services conduct statement excuse (interpret op read) state :=
  holds

/-- **One codec call**, answered at any later moment. -/
theorem ensures_codec {call : Codec.Call} {statement : call.Result → σ → Prop}
    {blame : CodecError → RunError} {state : σ}
    (holds : ∀ later, conduct.rely state later → ∀ service, services service →
      conduct.guarantee later (service.reply (.codec call) later).state ∧
        ∀ final, conduct.rely (service.reply (.codec call) later).state final →
          Verdict statement excuse
            (((service.reply (.codec call) later).answer : call.Answer).mapError blame) final) :
    Ensures services conduct statement excuse (codec call blame) state :=
  holds

end Job

/-! ### Plans -/

namespace Plan

/-- What a plan ensures of its value and the requests made, and of its error. -/
def Ensures (setting : Setting interface σ) (conduct : Conduct σ)
    (statement : α → σ → List (Exchange interface) → Prop) (excuse : RunError → σ → Prop)
    (plan : Plan α) (state : σ) : Prop :=
  Flow.Ensures setting conduct
    (fun result state trace =>
      Verdict (fun value state => statement value state trace) excuse result state)
    plan.run state

variable {setting : Setting interface σ} {conduct : Conduct σ} {excuse : RunError → σ → Prop}

theorem Ensures.mono {statement weaker : α → σ → List (Exchange interface) → Prop}
    {laxer : RunError → σ → Prop} {plan : Plan α} {state : σ}
    (ensures : Ensures setting conduct statement excuse plan state)
    (values : ∀ value state trace, statement value state trace → weaker value state trace)
    (errors : ∀ error state, excuse error state → laxer error state) :
    Ensures setting conduct weaker laxer plan state :=
  Flow.Ensures.mono ensures fun _ state trace verdict =>
    verdict.imp (fun value => values value state trace) fun error => errors error state

/-- A plan may be given more room than it needs. -/
theorem Ensures.within {other : Conduct σ}
    {statement : α → σ → List (Exchange interface) → Prop} {plan : Plan α} {state : σ}
    (ensures : Ensures setting conduct statement excuse plan state)
    (within : conduct.Within other) : Ensures setting other statement excuse plan state :=
  Flow.Ensures.within ensures within

/-- What no step breaks may be added to the statement. -/
theorem Ensures.and_always {statement : α → σ → List (Exchange interface) → Prop} {plan : Plan α}
    {state : σ} (ensures : Ensures setting conduct statement excuse plan state)
    {property : σ → Prop}
    (relied : ∀ {state later}, conduct.rely state later → property state → property later)
    (guaranteed : ∀ {state later}, conduct.guarantee state later → property state →
      property later)
    (holds : property state) :
    Ensures setting conduct (fun value state trace => statement value state trace ∧ property state)
      excuse plan state := by
  refine Flow.Ensures.mono (Flow.Ensures.and_always ensures relied guaranteed holds) ?_
  exact fun _ _ _ ⟨verdict, kept⟩ => verdict.imp (fun _ holds => ⟨holds, kept⟩) fun _ => id

/-- **A plan followed by another.** The requests of both are made in a row. -/
theorem Ensures.bind {statement : β → σ → List (Exchange interface) → Prop} {plan : Plan α}
    {after : α → Plan β} {state : σ}
    (stable : ∀ error {state later}, conduct.rely state later → excuse error state →
      excuse error later)
    (ensures : Ensures setting conduct
      (fun value state trace => Ensures setting conduct
        (fun value state more => statement value state (trace ++ more)) excuse (after value) state)
      excuse plan state) :
    Ensures setting conduct statement excuse (plan >>= after) state := by
  refine Flow.Ensures.bind (Flow.Ensures.mono ensures fun result later trace settled => ?_)
  cases result with
  | ok value => exact settled
  | error error => exact Flow.ensures_done fun final allowed => stable error allowed settled

theorem ensures_pure {statement : α → σ → List (Exchange interface) → Prop} {value : α}
    {state : σ} (holds : ∀ later, conduct.rely state later → statement value later []) :
    Ensures setting conduct statement excuse (pure value) state :=
  Flow.ensures_done holds

theorem ensures_throw {statement : α → σ → List (Exchange interface) → Prop}
    {error : RunError} {state : σ}
    (excused : ∀ later, conduct.rely state later → excuse error later) :
    Ensures setting conduct statement excuse (throw error : Plan α) state :=
  Flow.ensures_done excused

/-- A job as a plan without stages. -/
theorem ensures_ofJob {statement : α → σ → Prop} {job : Job α} {state : σ}
    (ensures : Job.Ensures setting.services conduct statement excuse job state) :
    Ensures setting conduct
      (fun value state trace => statement value state ∧ Task.Yields job.run trace (.ok value))
      excuse (ofJob job) state := by
  refine Flow.Ensures.mono (Flow.ensures_ofTask ensures) fun result later trace ⟨verdict, way⟩ => ?_
  cases result with
  | ok value => exact ⟨verdict, way⟩
  | error error => exact verdict

/-- A look at the cancellation token, which has fired only where it may fire. -/
theorem ensures_checkCancelled {statement : Unit → σ → List (Exchange interface) → Prop}
    {stage : Stage} {state : σ}
    (holds : ∀ later, conduct.rely state later → statement () later [])
    (excused : setting.interruptible → ∀ later, conduct.rely state later →
      excuse (.cancelled stage) later) :
    Ensures setting conduct statement excuse (checkCancelled stage) state := by
  refine Flow.ensures_checkpoint fun cancelled fires => ?_
  cases cancelled with
  | false => exact Flow.ensures_done holds
  | true => exact Flow.ensures_done (excused (fires rfl))

end Plan

end Transcode.Run
