/-
**A stage under every schedule.** Tasks that respect each other's conduct end as if each had the
stage to itself.

* `Conduct.Compatible` — each task's guarantee is something every other task relies on.
* `Pool.Account` is the invariant of a stage: what the task of each chunk has come to, and the
  requests made so far as those of all tasks together. Every step of the stage keeps it
  (`Account.step`).
* `Flow.Path.account_of_pool` — there is such an account wherever a stage has got to, and a finished
  one leaves it (`Flow.ensures_ofPool`).
* `Pool.result_eq_ok` and `Pool.result_eq_error` say what the result of a stage comes to. With the
  account follow the outcomes of a stage that succeeds (`Account.finished_of_ok`) and the reason of
  one that does not (`Account.reason_of_error`).
-/
import Mathlib.Data.List.Perm.Basic
import Mathlib.Data.List.Nodup
import Mathlib.Logic.Function.Basic
import Transcode.Proofs.Schedule.Ensures

namespace Transcode

variable {I : Interface} {σ : Type}

/-- The tasks of the chunks may work side by side, within the conduct of the whole. -/
structure Conduct.Compatible (whole : Conduct σ) (each : ChunkIndex → Conduct σ)
    (chunks : List ChunkIndex) : Prop where
  within : ∀ chunk ∈ chunks, (each chunk).Within whole
  apart : ∀ chunk ∈ chunks, ∀ other ∈ chunks, chunk ≠ other → ∀ {state later : σ},
    (each chunk).guarantee state later → (each other).rely state later

/-- Tasks that owe each other nothing may always work side by side. -/
theorem Conduct.compatible_lax (chunks : List ChunkIndex) :
    Conduct.lax.Compatible (fun _ => (Conduct.lax : Conduct σ)) chunks :=
  ⟨fun _ _ => ⟨fun _ => trivial, fun _ => trivial⟩, fun _ _ _ _ _ _ _ _ => trivial⟩

namespace Pool

/-- **How a stage stands** that began as `initial`, and whose tasks have made the requests `traces`,
chunk by chunk. -/
structure Account (setting : Setting I σ) (each : ChunkIndex → Conduct σ)
    (statement : ChunkIndex → Ending → σ → Prop) (initial : Pool I) (origin : σ)
    (traces : ChunkIndex → List (Exchange I)) (pool : Pool I) (state : σ)
    (trace : List (Exchange I)) : Prop where
  sameStage : pool.stage = initial.stage
  sameWork : pool.work = initial.work
  chunks : (pool.waiting ++ pool.running.map Prod.fst ++ pool.ended.map Prod.fst).Perm
    initial.waiting
  waiting : ∀ chunk ∈ pool.waiting, (each chunk).rely origin state ∧ traces chunk = []
  running : ∀ chunk task, (chunk, task) ∈ pool.running →
    task.Ensures setting.services (each chunk) (statement chunk) state ∧
      ∀ more ending, task.Yields more ending →
        (initial.work chunk).Yields (traces chunk ++ more) ending
  ended : ∀ chunk ending, (chunk, ending) ∈ pool.ended →
    (∀ later, (each chunk).rely state later → statement chunk ending later) ∧
      (initial.work chunk).Yields (traces chunk) ending
  requests : trace.Perm (initial.waiting.flatMap traces)
  halted : pool.halted = true → ∃ chunk error, (chunk, .failed error) ∈ pool.ended

/-- One more request of one chunk is one more request of all chunks. -/
theorem flatMap_update_perm {α : Type} {chunks : List ChunkIndex} (distinct : chunks.Nodup)
    {chunk : ChunkIndex} (inside : chunk ∈ chunks) (traces : ChunkIndex → List α) (item : α) :
    (chunks.flatMap traces ++ [item]).Perm
      (chunks.flatMap (Function.update traces chunk (traces chunk ++ [item]))) := by
  obtain ⟨before, after, rfl⟩ := List.append_of_mem inside
  have absent : chunk ∉ before ++ after := (List.nodup_cons.mp (List.nodup_middle.mp distinct)).1
  have unchanged (list : List ChunkIndex) (outside : chunk ∉ list) :
      list.flatMap (Function.update traces chunk (traces chunk ++ [item])) =
        list.flatMap traces := by
    refine List.flatMap_congr fun other member => Function.update_of_ne ?_ _ _
    rintro rfl
    exact outside member
  rw [List.flatMap_append, List.flatMap_append, List.flatMap_cons, List.flatMap_cons,
    Function.update_self, unchanged before fun member => absent (List.mem_append_left _ member),
    unchanged after fun member => absent (List.mem_append_right _ member), List.append_assoc,
    List.append_assoc, List.append_assoc]
  exact (List.perm_append_comm.append_left _).append_left _

/-! ### What the ends come to -/

theorem failure?_eq_none {stage : Stage} {ending : Ending} :
    failure? stage ending = none ↔ ∃ outcome, ending = .finished outcome := by
  cases ending <;> simp [failure?]

theorem failure?_eq_some {stage : Stage} {ending : Ending} {error : RunError} :
    failure? stage ending = some error ↔
      ending = .failed error ∨ ending = .panicked ∧ error = .internal (.taskPanicked stage) := by
  cases ending <;> simp [failure?, eq_comm]

/-- Where every task has finished, each is counted once. -/
theorem count_add_count {pool : Pool I}
    (fine : ∀ entry ∈ pool.ended, failure? pool.stage entry.2 = none) :
    pool.count .completed + pool.count .skipped = pool.ended.length := by
  rw [List.length_eq_countP_add_countP (fun entry => entry.2 = .finished .completed)]
  refine congrArg₂ _ rfl (List.countP_congr fun entry member => ?_)
  obtain ⟨outcome, finished⟩ := failure?_eq_none.mp (fine entry member)
  cases outcome <;> simp [finished]

/-- What the result of a stage goes by. -/
theorem result_eq (pool : Pool I) :
    pool.result =
      match pool.ended.findSome? fun entry => failure? pool.stage entry.2 with
      | some error => .error error
      | none =>
        if pool.waiting.isEmpty then
          .ok ⟨pool.stage, pool.count .completed, pool.count .skipped⟩
        else .error (.cancelled pool.stage) :=
  rfl

/-- **A stage succeeds** if every chunk was started and every task has finished. -/
theorem result_eq_ok {pool : Pool I} {summary : StageSummary} :
    pool.result = .ok summary ↔
      (∀ entry ∈ pool.ended, failure? pool.stage entry.2 = none) ∧ pool.waiting = [] ∧
        summary = ⟨pool.stage, pool.count .completed, pool.count .skipped⟩ := by
  rw [result_eq]
  cases found : pool.ended.findSome? fun entry => failure? pool.stage entry.2 with
  | some error =>
    obtain ⟨entry, member, reason⟩ := List.exists_of_findSome?_eq_some found
    refine ⟨nofun, fun ⟨fine, _⟩ => ?_⟩
    rw [fine entry member] at reason
    cases reason
  | none =>
    rw [and_iff_right (List.findSome?_eq_none_iff.mp found)]
    cases pool.waiting with
    | nil => exact ⟨fun same => ⟨rfl, (Except.ok.inj same).symm⟩, fun same => same.2 ▸ rfl⟩
    | cons chunk rest => exact ⟨nofun, nofun⟩

/-- **A stage fails** with the reason of the first task on the list that has one, or because it was
cut short. -/
theorem result_eq_error {pool : Pool I} {error : RunError} :
    pool.result = .error error ↔
      (∃ before entry after, pool.ended = before ++ entry :: after ∧
        failure? pool.stage entry.2 = some error ∧
        ∀ earlier ∈ before, failure? pool.stage earlier.2 = none) ∨
      ((∀ entry ∈ pool.ended, failure? pool.stage entry.2 = none) ∧ pool.waiting ≠ [] ∧
        error = .cancelled pool.stage) := by
  rw [← List.findSome?_eq_none_iff, ← List.findSome?_eq_some_iff, result_eq]
  cases pool.ended.findSome? fun entry => failure? pool.stage entry.2 with
  | some other =>
    refine ⟨fun same => .inl (congrArg some (Except.error.inj same)), ?_⟩
    rintro (same | ⟨⟨⟩, -⟩)
    exact congrArg Except.error (Option.some.inj same)
  | none =>
    refine Iff.trans ?_ (or_iff_right nofun).symm
    cases pool.waiting with
    | nil => exact ⟨nofun, fun ⟨_, started, _⟩ => absurd rfl started⟩
    | cons chunk rest =>
      exact ⟨fun same => ⟨rfl, nofun, (Except.error.inj same).symm⟩, fun same => same.2.2 ▸ rfl⟩

namespace Account

variable {setting : Setting I σ} {each : ChunkIndex → Conduct σ}
  {statement : ChunkIndex → Ending → σ → Prop} {initial : Pool I} {origin : σ}
  {traces : ChunkIndex → List (Exchange I)} {pool : Pool I} {state : σ}
  {trace : List (Exchange I)}

theorem mem_of_waiting
    (account : Account setting each statement initial origin traces pool state trace)
    {chunk : ChunkIndex} (member : chunk ∈ pool.waiting) : chunk ∈ initial.waiting := by
  refine account.chunks.subset ?_
  simp [member]

theorem mem_of_running
    (account : Account setting each statement initial origin traces pool state trace)
    {chunk : ChunkIndex} {task : Task I Ending} (member : (chunk, task) ∈ pool.running) :
    chunk ∈ initial.waiting := by
  refine account.chunks.subset ?_
  simp only [List.mem_append, List.mem_map]
  exact .inl (.inr ⟨_, member, rfl⟩)

theorem mem_of_ended
    (account : Account setting each statement initial origin traces pool state trace)
    {chunk : ChunkIndex} {ending : Ending} (member : (chunk, ending) ∈ pool.ended) :
    chunk ∈ initial.waiting := by
  refine account.chunks.subset ?_
  simp only [List.mem_append, List.mem_map]
  exact .inr ⟨_, member, rfl⟩

/-- A stage that has not begun. -/
theorem start (setting : Setting I σ) (each : ChunkIndex → Conduct σ)
    (statement : ChunkIndex → Ending → σ → Prop) (stage : Stage) (chunks : List ChunkIndex)
    (work : ChunkIndex → Task I Ending) (state : σ) :
    Account setting each statement (Pool.start stage chunks work) state (fun _ => [])
      (Pool.start stage chunks work) state [] where
  sameStage := rfl
  sameWork := rfl
  chunks := by simp [Pool.start]
  waiting chunk _ := ⟨(each chunk).rely_refl state, rfl⟩
  running _ _ member := absurd member List.not_mem_nil
  ended _ _ member := absurd member List.not_mem_nil
  requests := by simp
  halted never := by cases never

/-- The account stands while the state changes in a way that every task relies on. -/
theorem of_rely
    (account : Account setting each statement initial origin traces pool state trace)
    {later : σ} (allowed : ∀ chunk ∈ initial.waiting, (each chunk).rely state later) :
    Account setting each statement initial origin traces pool later trace where
  sameStage := account.sameStage
  sameWork := account.sameWork
  chunks := account.chunks
  waiting chunk member := by
    obtain ⟨before, quiet⟩ := account.waiting chunk member
    exact ⟨(each chunk).rely_trans before (allowed _ (account.mem_of_waiting member)), quiet⟩
  running chunk task member := by
    obtain ⟨promise, way⟩ := account.running chunk task member
    exact ⟨promise.later (allowed _ (account.mem_of_running member)), way⟩
  ended chunk ending member := by
    obtain ⟨holds, way⟩ := account.ended chunk ending member
    exact ⟨fun final more => holds final
      ((each chunk).rely_trans (allowed _ (account.mem_of_ended member)) more), way⟩
  requests := account.requests
  halted := account.halted

/-! ### Steps of a stage -/

/-- A chunk that is started has not been touched before. -/
theorem dispatch
    (account : Account setting each statement initial origin traces pool state trace)
    (promises : ∀ chunk ∈ initial.waiting, (initial.work chunk).Ensures setting.services
      (each chunk) (statement chunk) origin)
    {chunk : ChunkIndex} {rest : List ChunkIndex} (shape : pool.waiting = chunk :: rest) :
    Account setting each statement initial origin traces
      { pool with waiting := rest, running := pool.running ++ [(chunk, pool.work chunk)] }
      state trace where
  sameStage := account.sameStage
  sameWork := account.sameWork
  chunks := by
    refine List.Perm.trans (List.Perm.append_right _ ?_) account.chunks
    rw [shape, List.map_append, ← List.append_assoc, List.map_singleton]
    exact List.perm_append_singleton _ _
  waiting other member := account.waiting other (shape ▸ List.mem_cons_of_mem _ member)
  running other task member := by
    rcases List.mem_append.mp member with old | new
    · exact account.running other task old
    · obtain ⟨rfl, rfl⟩ := Prod.mk.inj (List.mem_singleton.mp new)
      have first : other ∈ pool.waiting := shape ▸ List.mem_cons_self
      obtain ⟨allowed, quiet⟩ := account.waiting other first
      rw [account.sameWork, quiet]
      exact ⟨(promises other (account.mem_of_waiting first)).later allowed,
        fun more ending yields => yields⟩
  ended := account.ended
  requests := account.requests
  halted := account.halted

/-- No chunk has two tasks under way. -/
theorem ne_of_running
    (account : Account setting each statement initial origin traces pool state trace)
    (distinct : initial.waiting.Nodup) {before after : List (ChunkIndex × Task I Ending)}
    {chunk : ChunkIndex} {task : Task I Ending}
    (shape : pool.running = before ++ (chunk, task) :: after) :
    (∀ other ∈ pool.waiting, chunk ≠ other) ∧
      (∀ entry ∈ before ++ after, chunk ≠ entry.1) ∧ ∀ entry ∈ pool.ended, chunk ≠ entry.1 := by
  have places := account.chunks.nodup_iff.mpr distinct
  rw [shape, List.map_append, List.map_cons, List.append_assoc, List.append_assoc] at places
  rw [← List.append_assoc, List.cons_append, List.nodup_middle, List.nodup_cons] at places
  have absent := places.1
  simp only [List.mem_append, List.mem_map, not_or] at absent
  refine ⟨?_, ?_, ?_⟩
  · rintro other member rfl
    exact absent.1.1 member
  · rintro entry member rfl
    rcases List.mem_append.mp member with left | right
    · exact absent.1.2 ⟨entry, left, rfl⟩
    · exact absent.2.1 ⟨entry, right, rfl⟩
  · rintro entry member rfl
    exact absent.2.2 ⟨entry, member, rfl⟩

/-- A question is one more request of its chunk, and the other tasks rely on what it does. -/
theorem ask {whole : Conduct σ} (compatible : whole.Compatible each initial.waiting)
    (distinct : initial.waiting.Nodup)
    (account : Account setting each statement initial origin traces pool state trace)
    {before after : List (ChunkIndex × Task I Ending)} {chunk : ChunkIndex} {request : I.Request}
    {next : I.Answer request → Task I Ending}
    (shape : pool.running = before ++ (chunk, .ask request next) :: after)
    {service : Service I σ} (serves : setting.services service) :
    whole.guarantee state (service.reply request state).state ∧
      Account setting each statement initial origin
        (Function.update traces chunk
          (traces chunk ++ [⟨request, (service.reply request state).answer⟩]))
        { pool with
          running := before ++ (chunk, next (service.reply request state).answer) :: after }
        (service.reply request state).state
        (trace ++ [⟨request, (service.reply request state).answer⟩]) := by
  have own : (chunk, Task.ask request next) ∈ pool.running := by simp [shape]
  have inside := account.mem_of_running own
  obtain ⟨promise, way⟩ := account.running chunk _ own
  obtain ⟨guaranteed, rest⟩ := promise state ((each chunk).rely_refl state) service serves
  obtain ⟨apartWaiting, apartRunning, apartEnded⟩ := account.ne_of_running distinct shape
  have allowed {other : ChunkIndex} (member : other ∈ initial.waiting) (differs : chunk ≠ other) :
      (each other).rely state (service.reply request state).state :=
    compatible.apart chunk inside other member differs guaranteed
  refine ⟨(compatible.within chunk inside).guarantee guaranteed, ?_⟩
  constructor
  case sameStage => exact account.sameStage
  case sameWork => exact account.sameWork
  case chunks => simpa [shape] using account.chunks
  case waiting =>
    intro other member
    have differs := apartWaiting other member
    obtain ⟨since, quiet⟩ := account.waiting other member
    rw [Function.update_of_ne differs.symm]
    exact ⟨(each other).rely_trans since (allowed (account.mem_of_waiting member) differs), quiet⟩
  case running =>
    intro other task member
    have split : (other, task) ∈ before ++ after ∨
        (other, task) = (chunk, next (service.reply request state).answer) := by
      simp only [List.mem_append, List.mem_cons] at member ⊢
      tauto
    rcases split with others | same
    · have differs := apartRunning _ others
      have old : (other, task) ∈ pool.running := by
        rw [shape]
        simp only [List.mem_append, List.mem_cons] at others ⊢
        tauto
      obtain ⟨kept, onward⟩ := account.running other task old
      rw [Function.update_of_ne differs.symm]
      exact ⟨kept.later (allowed (account.mem_of_running old) differs), onward⟩
    · obtain ⟨rfl, rfl⟩ := Prod.mk.inj same
      refine ⟨rest, fun more ending yields => ?_⟩
      rw [Function.update_self, List.append_assoc]
      exact way _ _ (.ask request _ yields)
  case ended =>
    intro other ending member
    have differs := apartEnded _ member
    obtain ⟨holds, onward⟩ := account.ended other ending member
    rw [Function.update_of_ne differs.symm]
    exact ⟨fun final more => holds final
      ((each other).rely_trans (allowed (account.mem_of_ended member) differs) more), onward⟩
  case requests =>
    exact (account.requests.append_right _).trans (flatMap_update_perm distinct inside _ _)
  case halted => exact account.halted

/-- A task that ends leaves its statement behind. -/
theorem conclude
    (account : Account setting each statement initial origin traces pool state trace)
    {before after : List (ChunkIndex × Task I Ending)} {chunk : ChunkIndex} {ending : Ending}
    (shape : pool.running = before ++ (chunk, .done ending) :: after) (world : World σ) :
    Account setting each statement initial origin traces
      ({ pool with running := before ++ after }.conclude chunk ending world).1 state trace := by
  have own : (chunk, Task.done ending) ∈ pool.running := by simp [shape]
  obtain ⟨promise, way⟩ := account.running chunk _ own
  constructor
  case sameStage => exact account.sameStage
  case sameWork => exact account.sameWork
  case chunks =>
    refine List.Perm.trans ?_ account.chunks
    simp only [Pool.conclude, shape, List.map_append, List.map_cons, List.append_assoc,
      List.map_nil]
    refine (List.Perm.append_left _ ?_).append_left _
    rw [← List.append_assoc]
    exact List.perm_append_singleton _ _
  case waiting => exact account.waiting
  case running =>
    intro other task member
    refine account.running other task ?_
    rw [shape]
    simp only [Pool.conclude, List.mem_append, List.mem_cons] at member ⊢
    tauto
  case ended =>
    intro other final member
    rcases List.mem_append.mp member with old | new
    · exact account.ended other final old
    · obtain ⟨rfl, rfl⟩ := Prod.mk.inj (List.mem_singleton.mp new)
      have yields := way [] _ (.done _)
      rw [List.append_nil] at yields
      exact ⟨promise, yields⟩
  case requests => exact account.requests
  case halted =>
    intro halted
    rcases Bool.or_eq_true _ _ ▸ halted with before | now
    · obtain ⟨other, error, member⟩ := account.halted before
      exact ⟨other, error, List.mem_append_left _ member⟩
    · cases ending with
      | failed error => exact ⟨chunk, error, List.mem_append_right _ (List.mem_singleton_self _)⟩
      | finished outcome => cases now
      | panicked => cases now

/-- **Every step of a stage keeps the account.** -/
theorem step {whole : Conduct σ} (compatible : whole.Compatible each initial.waiting)
    (distinct : initial.waiting.Nodup)
    (promises : ∀ chunk ∈ initial.waiting, (initial.work chunk).Ensures setting.services
      (each chunk) (statement chunk) origin)
    {pool' : Pool I} {world world' : World σ} {now : List (Exchange I)}
    (account : Account setting each statement initial origin traces pool world.state trace)
    (step : pool.Step setting.services world now pool' world') :
    whole.guarantee world.state world'.state ∧ ∃ traces',
      Account setting each statement initial origin traces' pool' world'.state (trace ++ now) := by
  rcases step.cases with ⟨chunk, rest, shape, _, _, _, rfl, rfl, rfl⟩ |
    ⟨before, chunk, request, next, after, service, serves, shape, rfl, rfl, rfl⟩ |
    ⟨before, chunk, ending, after, shape, rfl, concluded⟩
  · rw [List.append_nil]
    exact ⟨whole.guarantee_refl _, traces, account.dispatch promises shape⟩
  · obtain ⟨guaranteed, kept⟩ := account.ask compatible distinct shape serves
    exact ⟨guaranteed, _, kept⟩
  · rw [List.append_nil]
    cases concluded
    exact ⟨whole.guarantee_refl _, traces, account.conclude shape world⟩

/-! ### The result of a stage -/

/-- In a finished stage, each chunk was started or still waits. -/
theorem places_of_idle
    (account : Account setting each statement initial origin traces pool state trace)
    (idle : pool.running = []) :
    (pool.waiting ++ pool.ended.map Prod.fst).Perm initial.waiting := by
  simpa [idle] using account.chunks

/-- **In a finished stage** the task of a chunk has ended as stated, or was never started and has
nothing to rely on but what the others did. -/
theorem fate_of_idle
    (account : Account setting each statement initial origin traces pool state trace)
    (idle : pool.running = []) {chunk : ChunkIndex} (inside : chunk ∈ initial.waiting) :
    (each chunk).rely origin state ∨ ∃ ending, statement chunk ending state := by
  rcases List.mem_append.mp ((account.places_of_idle idle).symm.subset inside) with waits | ended
  · exact .inl (account.waiting chunk waits).1
  · obtain ⟨⟨_, ending⟩, member, rfl⟩ := List.mem_map.mp ended
    exact .inr ⟨ending, (account.ended _ ending member).1 state ((each _).rely_refl state)⟩

/-- **A stage that succeeds** has finished the task of every chunk, and counts the outcomes. -/
theorem finished_of_ok
    (account : Account setting each statement initial origin traces pool state trace)
    (distinct : initial.waiting.Nodup) (idle : pool.running = []) {summary : StageSummary}
    (succeeded : pool.result = .ok summary) :
    ∃ outcomes : ChunkIndex → Outcome,
      (∀ chunk ∈ initial.waiting, statement chunk (.finished (outcomes chunk)) state ∧
        (initial.work chunk).Yields (traces chunk) (.finished (outcomes chunk))) ∧
      summary = ⟨initial.stage, initial.waiting.countP fun chunk => outcomes chunk = .completed,
        initial.waiting.countP fun chunk => outcomes chunk = .skipped⟩ := by
  have places := account.places_of_idle idle
  obtain ⟨fine, complete, counts⟩ := result_eq_ok.mp succeeded
  rw [complete, List.nil_append] at places
  have each' : ∀ chunk ∈ initial.waiting, ∃ outcome,
      (chunk, Ending.finished outcome) ∈ pool.ended := by
    intro chunk inside
    obtain ⟨⟨_, ending⟩, member, rfl⟩ := List.mem_map.mp (places.symm.subset inside)
    obtain ⟨outcome, rfl⟩ := failure?_eq_none.mp (fine _ member)
    exact ⟨outcome, member⟩
  have : Nonempty Outcome := ⟨.completed⟩
  choose! outcomes inside using each'
  have only : ∀ entry ∈ pool.ended, entry.2 = .finished (outcomes entry.1) := by
    intro entry member
    have twin := inside entry.1 (places.subset (List.mem_map_of_mem member))
    exact congrArg Prod.snd
      (List.inj_on_of_nodup_map (places.nodup_iff.mpr distinct) member twin rfl)
  have counted (outcome : Outcome) : pool.count outcome =
      initial.waiting.countP fun chunk => outcomes chunk = outcome := by
    rw [← places.countP_eq, List.countP_map, Pool.count]
    refine List.countP_congr fun entry member => ?_
    simp [only entry member]
  refine ⟨outcomes, fun chunk member => ?_, ?_⟩
  · obtain ⟨holds, yields⟩ := account.ended chunk _ (inside chunk member)
    exact ⟨holds state ((each chunk).rely_refl state), yields⟩
  · rw [counts, counted, counted, account.sameStage]

/-- **A stage that fails** has a task whose ending is the reason, or was interrupted. -/
theorem reason_of_error
    (account : Account setting each statement initial origin traces pool state trace)
    (stopped : pool.waiting = [] ∨ pool.halted = true ∨ setting.interruptible)
    {error : RunError} (failed : pool.result = .error error) :
    (∃ chunk ∈ initial.waiting, ∃ ending, statement chunk ending state ∧
      failure? initial.stage ending = some error) ∨ setting.interruptible := by
  rcases result_eq_error.mp failed with ⟨_, ⟨chunk, ending⟩, _, shape, reason, -⟩ |
    ⟨fine, incomplete, -⟩
  · have member : (chunk, ending) ∈ pool.ended := by simp [shape]
    have holds := (account.ended chunk ending member).1 state ((each chunk).rely_refl state)
    exact .inl ⟨chunk, account.mem_of_ended member, ending, holds, account.sameStage ▸ reason⟩
  · rcases stopped with empty | halted | fires
    · exact absurd empty incomplete
    · obtain ⟨chunk, error, member⟩ := account.halted halted
      cases fine _ member
    · exact .inr fires

end Account

end Pool

namespace Flow

variable {setting : Setting I σ} {whole : Conduct σ} {each : ChunkIndex → Conduct σ}
  {statement : ChunkIndex → Ending → σ → Prop} {stage : Stage} {chunks : List ChunkIndex}
  {work : ChunkIndex → Task I Ending}

/-- **Wherever a stage has got to**, there is an account of its tasks. -/
theorem Path.account_of_pool (compatible : whole.Compatible each chunks) (distinct : chunks.Nodup)
    {world : World σ}
    (promises : ∀ chunk ∈ chunks, (work chunk).Ensures setting.services (each chunk)
      (statement chunk) world.state)
    (fires : world.cancelled = true → setting.interruptible)
    {trace : List (Exchange I)} {flow : Flow I (Except RunError StageSummary)} {world' : World σ}
    (path : Path setting whole.rely (ofPool (Pool.start stage chunks work)) world trace flow
      world') :
    ∃ traces pool, Pool.Account setting each statement (Pool.start stage chunks work) world.state
        traces pool world'.state trace ∧
      (flow = .stage pool .done ∨ flow = .done pool.result ∧ pool.running = [] ∧
        (pool.waiting = [] ∨ pool.halted = true ∨ setting.interruptible)) := by
  induction path with
  | start => exact ⟨_, _, .start setting each statement stage chunks work world.state, .inl rfl⟩
  | disturb _ allowed _ ih =>
    obtain ⟨traces, pool, account, shape⟩ := ih
    exact ⟨traces, pool, account.of_rely fun chunk member =>
      (compatible.within chunk member).rely allowed, shape⟩
  | step path step ih =>
    obtain ⟨traces, pool, account, rfl | ⟨rfl, _⟩⟩ := ih
    · cases step with
      | stage moved =>
        obtain ⟨-, traces', kept⟩ := account.step compatible distinct promises moved
        exact ⟨traces', _, kept, .inl rfl⟩
      | settle settled =>
        simp only [Pool.isSettled, Pool.isClosed, Bool.and_eq_true, Bool.or_eq_true,
          List.isEmpty_iff] at settled
        refine ⟨traces, pool, ?_, .inr ⟨rfl, settled.2, ?_⟩⟩
        · rwa [List.append_nil]
        · exact or_assoc.mp (settled.1.imp_right (path.interruptible fires))
    · cases step

/-- **A stage as part of a run.** Its tasks work side by side, and when it is over the account of
all of them is settled. -/
theorem ensures_ofPool {state : σ} (compatible : whole.Compatible each chunks)
    (distinct : chunks.Nodup)
    (promises : ∀ chunk ∈ chunks, (work chunk).Ensures setting.services (each chunk)
      (statement chunk) state) :
    (Flow.ofPool (Pool.start stage chunks work)).Ensures setting whole
      (fun result later trace => ∃ traces pool,
        Pool.Account setting each statement (Pool.start stage chunks work) state traces pool
          later trace ∧
        pool.running = [] ∧
        (pool.waiting = [] ∨ pool.halted = true ∨ setting.interruptible) ∧
        result = pool.result) state := by
  rintro world rfl fires trace flow world' path
  obtain ⟨traces, pool, account, rfl | ⟨rfl, idle, stopped⟩⟩ :=
    path.account_of_pool compatible distinct promises fires
  · refine ⟨fun now flow' world'' step => ?_, fun value done => by cases done⟩
    cases step with
    | stage moved => exact (account.step compatible distinct promises moved).1
    | settle => exact whole.guarantee_refl _
  · refine ⟨fun now flow' world'' step => (nomatch step), fun value done => ?_⟩
    cases done
    exact ⟨traces, pool, account, idle, stopped, rfl⟩

end Flow

end Transcode
