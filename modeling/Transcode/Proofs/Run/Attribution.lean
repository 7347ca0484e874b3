/-
**Failures are put down to the task that failed**, and no task is left half done.

* `Plan.course_bind` takes the course of two plans in a row apart.
* `Accounts` is what the events of some barrier stages show, once they are over: each task is on
  record from its start to its end, or was never started. `accounts_stagePlans` — so it is for the
  barrier stages of every run.
* `Run.attributes_failures` — if a run fails as a codec call did, it was that of the task that the
  error names; no task stored anything whose call failed, nor any of a later stage; and every task
  of the stage that was started and not hindered has its outputs stored.
-/
import Transcode.Proofs.Run.Advance
import Transcode.Proofs.Run.Evidence
import Transcode.Proofs.Schedule.Drive
import Transcode.Proofs.Schedule.Log
import Transcode.Proofs.Schedule.Record

namespace Transcode.Run

variable {α β : Type} {run : Run} {world world' : World MemoryLedger}
  {events : List (Event interface)}

/-! ### Courses of plans -/

/-- Two plans in a row that have come to an end: the first has failed, or the second follows its
value. -/
theorem Plan.course_bind {setting : Setting interface MemoryLedger}
    {rely : MemoryLedger → MemoryLedger → Prop} {plan : Plan α} {after : α → Plan β}
    {result : Except RunError β}
    (course : Flow.Course setting rely (plan >>= after).run world events (.done result) world') :
    (∃ error middle, result = .error error ∧
        Flow.Course setting rely plan.run world events (.done (.error error)) middle) ∨
      ∃ value middle early late, events = early ++ late ∧
        Flow.Course setting rely plan.run world early (.done (.ok value)) middle ∧
        Flow.Course setting rely (after value).run middle late (.done result) world' := by
  obtain ⟨first, middle, early, late, rfl, course, rest⟩ := Flow.Course.done_bind course
  cases first with
  | ok value => exact .inr ⟨value, middle, early, late, rfl, course, rest⟩
  | error error =>
    obtain ⟨rfl, same⟩ := Flow.Course.of_done rest
    cases same
    exact .inl ⟨error, middle, rfl, by rwa [List.append_nil]⟩

/-! ### What a stage leaves on record -/

/-- **What the events of some barrier stages show**, which are over. -/
structure Accounts (run : Run) (stages : List Stage) (result : Except RunError α)
    (events : List (Event interface)) : Prop where
  /-- They are questions of the run that store nothing, and deeds of the tasks. -/
  only : ∀ event ∈ events, (∃ exchange, event = .own exchange ∧ ∀ key, ¬ Stores key exchange) ∨
    ∃ stage ∈ stages, ∃ chunk < run.count, ∃ deed, event = .task stage chunk deed
  /-- Each task is on record from its start to its end, or was never started. -/
  tasks : ∀ stage chunk, deeds stage chunk events = [] ∨
    ∃ ending, Recorded stage chunk ((run.barrierTask stage chunk).task stage) events ending
  /-- A codec failure is how a task has ended, and no later stage was begun. -/
  blames : ∀ chunk stage cause, result = .error (.codec chunk stage cause) →
    Recorded stage chunk ((run.barrierTask stage chunk).task stage) events
        (.failed (.codec chunk stage cause)) ∧
      ∀ other part deed, .task other part deed ∈ events → other.place ≤ stage.place

namespace Accounts

variable {stages first rest : List Stage} {more : List (Event interface)}

theorem mem_of_task {result : Except RunError α} (accounts : Accounts run stages result events)
    {stage : Stage} {chunk : ChunkIndex} {deed : Deed interface}
    (member : .task stage chunk deed ∈ events) : stage ∈ stages ∧ chunk < run.count := by
  rcases accounts.only _ member with ⟨exchange, same, -⟩ | ⟨_, inside, _, below, _, same⟩
  · cases same
  · cases same
    exact ⟨inside, below⟩

/-- Only the codec failure that a part ends in matters to its account. -/
theorem mono {result : Except RunError α} {other : Except RunError β}
    (accounts : Accounts run first result events) (within : first ⊆ stages)
    (same : ∀ chunk stage cause, other = .error (.codec chunk stage cause) →
      result = .error (.codec chunk stage cause)) : Accounts run stages other events where
  only event member := (accounts.only event member).imp_right fun ⟨stage, inside, others⟩ =>
    ⟨stage, within inside, others⟩
  tasks := accounts.tasks
  blames chunk stage cause failed := accounts.blames chunk stage cause (same _ _ _ failed)

/-- Questions of the run that store nothing. -/
theorem of_own {result : Except RunError α} {trace : List (Exchange interface)}
    (quiet : ∀ exchange ∈ trace, ∀ key, ¬ Stores key exchange)
    (plain : ∀ chunk stage cause, result ≠ .error (.codec chunk stage cause)) :
    Accounts run [] result (trace.map Event.own) where
  only event member := by
    obtain ⟨exchange, asked, rfl⟩ := List.mem_map.mp member
    exact .inl ⟨exchange, rfl, quiet exchange asked⟩
  tasks stage chunk := .inl (deeds_eq_nil fun deed member => by
    obtain ⟨exchange, -, same⟩ := List.mem_map.mp member
    cases same)
  blames chunk stage cause failed := absurd failed (plain chunk stage cause)

/-- **Stages in a row**, in the order of execution. -/
theorem append {value : α} {result : Except RunError β}
    (early : Accounts run first (.ok value) events) (late : Accounts run rest result more)
    (order : ∀ stage ∈ first, ∀ later ∈ rest, stage.place < later.place) :
    Accounts run (first ++ rest) result (events ++ more) := by
  have apart {stage : Stage} {chunk part : ChunkIndex} {deed other : Deed interface}
      (before : .task stage chunk deed ∈ events) (after : .task stage part other ∈ more) : False :=
    Nat.lt_irrefl _ (order stage (early.mem_of_task before).1 stage (late.mem_of_task after).1)
  constructor
  case only =>
    refine List.forall_mem_append.mpr ⟨fun event member => ?_, fun event member => ?_⟩
    · refine (early.only event member).imp_right fun ⟨stage, inside, others⟩ => ?_
      exact ⟨stage, List.mem_append_left _ inside, others⟩
    · refine (late.only event member).imp_right fun ⟨stage, inside, others⟩ => ?_
      exact ⟨stage, List.mem_append_right _ inside, others⟩
  case tasks =>
    intro stage chunk
    rw [deeds_append]
    rcases early.tasks stage chunk with none | ⟨ending, recorded⟩
    · rw [none, List.nil_append]
      exact (late.tasks stage chunk).imp_right fun ⟨ending, recorded⟩ =>
        ⟨ending, recorded.congr (by rw [deeds_append, none, List.nil_append])⟩
    · have none : deeds stage chunk more = [] :=
        deeds_eq_nil fun deed after => apart recorded.started after
      refine .inr ⟨ending, recorded.congr ?_⟩
      rw [deeds_append, none, List.append_nil]
  case blames =>
    intro chunk stage cause failed
    obtain ⟨recorded, last⟩ := late.blames chunk stage cause failed
    have none : deeds stage chunk events = [] :=
      deeds_eq_nil fun deed before => apart before recorded.started
    refine ⟨recorded.congr (by rw [deeds_append, none, List.nil_append]), ?_⟩
    intro other part deed member
    rcases List.mem_append.mp member with before | after
    · exact Nat.le_of_lt
        (order other (early.mem_of_task before).1 stage (late.mem_of_task recorded.started).1)
    · exact last other part deed after

end Accounts

/-! ### The barrier stages of a run -/

variable {stage : Stage}

/-- **The tasks of a barrier stage**, side by side. -/
theorem accounts_pool (barrier : stage.isSerial = false) {result : Except RunError StageSummary}
    (course : Flow.Course (serving AnyAnswer) Eq (Flow.ofPool (Pool.start stage run.indices
      fun chunk => (run.barrierTask stage chunk).task stage)) world events (.done result) world') :
    Accounts run [stage] result events := by
  obtain ⟨only, tasks, failures⟩ := course.of_pool List.nodup_range
  have here {other : Stage} {chunk : ChunkIndex} {deed : Deed interface}
      (member : .task other chunk deed ∈ events) : other = stage ∧ chunk < run.count := by
    obtain ⟨_, inside, _, same⟩ := only _ member
    cases same
    exact ⟨rfl, List.mem_range.mp inside⟩
  constructor
  case only =>
    intro event member
    obtain ⟨chunk, inside, deed, same⟩ := only event member
    exact .inr ⟨stage, List.mem_singleton_self _, chunk, List.mem_range.mp inside, deed, same⟩
  case tasks =>
    intro other chunk
    by_cases same : other = stage
    · exact same ▸ tasks chunk
    · exact .inl (deeds_eq_nil fun deed member => same (here member).1)
  case blames =>
    intro part place cause failed
    rcases failures _ failed with cancelled | ⟨chunk, ending, reason, recorded⟩
    · cases cancelled
    · cases ending with
      | finished outcome => cases reason
      | panicked => cases reason
      | failed error =>
        cases reason
        have inside := (here recorded.started).2
        obtain ⟨trace, -, yields⟩ := id recorded
        obtain ⟨result, same, asked⟩ := Job.yields_task yields
        obtain ⟨rfl, rfl, -⟩ := (bears_barrierTask barrier inside trace result asked).blames part
          place cause (eq_error_of_failed same)
        exact ⟨recorded, fun other _ deed member => (here member).1 ▸ Nat.le_refl _⟩

/-- A look at what is needed stores nothing and calls no codec. -/
theorem accounts_firstMissing {required : KeySet} {result : Except RunError (Option Key)}
    (course : Flow.Course (serving AnyAnswer) Eq (Plan.ofJob (firstMissing required)).run world
      events (.done result) world') : Accounts run [] result events := by
  obtain ⟨trace, rfl, yields⟩ := Flow.Course.of_task course
  have acts : (firstMissing required).Acts run [] fun _ _ => True := acts_firstMissing required
  obtain ⟨quiet, verdict⟩ := acts trace result yields
  refine .of_own (fun exchange member key stored => ?_) fun chunk stage cause failed => ?_
  · exact List.not_mem_nil ((quiet exchange member).1 key stored)
  · subst failed
    exact verdict.1

/-- A barrier stage: a look at what it needs, and then its tasks. -/
theorem accounts_stagePlan (barrier : stage.isSerial = false)
    {result : Except RunError StageSummary}
    (course : Flow.Course (serving AnyAnswer) Eq (run.stagePlan stage).run world events
      (.done result) world') : Accounts run [stage] result events := by
  rw [stagePlan_eq run barrier] at course
  rcases Plan.course_bind course with ⟨error, middle, rfl, looks⟩ |
    ⟨found, middle, early, late, rfl, looks, rest⟩
  · exact (accounts_firstMissing looks).mono (List.nil_subset _) fun _ _ _ same => by
      cases same
      rfl
  · have before : Accounts run [] _ early := accounts_firstMissing looks
    cases found with
    | some key =>
      obtain ⟨rfl, ended⟩ := Flow.Course.of_done rest
      cases ended
      rw [List.append_nil]
      exact before.mono (List.nil_subset _) fun _ _ _ same => by cases same
    | none =>
      exact before.append (accounts_pool barrier rest)
        fun _ member => absurd member List.not_mem_nil

/-- **The barrier stages** of a run, one after another. -/
theorem accounts_stagePlans {stages : List Stage}
    (barriers : ∀ stage ∈ stages, stage.isSerial = false)
    (order : stages.Pairwise fun first second => first.place < second.place)
    {result : Except RunError (List StageSummary)}
    (course : Flow.Course (serving AnyAnswer) Eq (run.stagePlans stages).run world events
      (.done result) world') : Accounts run stages result events := by
  induction stages generalizing world events result world' with
  | nil =>
    obtain ⟨rfl, ended⟩ := Flow.Course.of_done course
    cases ended
    refine .of_own (List.forall_mem_nil _) ?_
    rintro chunk stage cause ⟨⟩
  | cons stage rest ih =>
    obtain ⟨earlier, order⟩ := List.pairwise_cons.mp order
    have barrier := barriers stage List.mem_cons_self
    rcases Plan.course_bind course with ⟨error, middle, rfl, first⟩ |
      ⟨summary, middle, early, late, rfl, first, course⟩
    · refine (accounts_stagePlan barrier first).mono ?_ fun _ _ _ same => by
        cases same
        rfl
      exact List.cons_subset_cons stage (List.nil_subset rest)
    have before := accounts_stagePlan barrier first
    have ih {world world' : World MemoryLedger} {events : List (Event interface)}
        {result : Except RunError (List StageSummary)} :=
      @ih world world' events (fun other member => barriers other (List.mem_cons_of_mem _ member))
        order result
    have together {result : Except RunError (List StageSummary)} {late : List (Event interface)}
        (after : Accounts run rest result late) :
        Accounts run (stage :: rest) result (early ++ late) :=
      before.append after (List.forall_mem_singleton.mpr earlier)
    rcases Plan.course_bind course with ⟨error, middle, rfl, others⟩ |
      ⟨summaries, final, later, last, rfl, others, done⟩
    · exact together (ih others)
    · obtain ⟨rfl, ended⟩ := Flow.Course.of_done done
      cases ended
      rw [List.append_nil]
      exact (together (ih others)).mono (List.Subset.refl _) fun _ _ _ same => by cases same

/-! ### The rest of a run -/

/-- The error reports the codec call of a task of a barrier stage. -/
def IsCodecFailure (error : RunError) : Prop :=
  ∃ chunk stage cause, error = .codec chunk stage cause

/-- **The chain never fails** as a codec call of a barrier stage does. -/
theorem Stopped.not_codec {count : Nat} {origin later : MemoryLedger} {error : RunError}
    (stopped : Stopped count origin error later) : ¬ IsCodecFailure error := by
  rintro ⟨part, place, cause, rfl⟩
  cases stopped with
  | @failed stage chunk middle _ _ serial _ _ fails =>
    rcases fails.2 with plain | blamed
    · exact plain
    · cases stage with
      | rebase => cases blamed.2.choose_spec
      | merge => cases blamed.2.choose_spec
      | _ => cases serial

/-- A run that fails as a codec call of a barrier stage did, fails in the barrier stages. -/
theorem accounts_of_codec {chunk : ChunkIndex} {cause : CodecError}
    (course : Flow.Course (serving AnyAnswer) Eq run.plan.run world events
      (.done (.error (.codec chunk stage cause))) world') :
    Accounts run Stage.barriers
      (.error (.codec chunk stage cause) : Except RunError (List StageSummary)) events := by
  unfold plan at course
  cases count : run.count with
  | zero =>
    rw [count] at course
    cases (Flow.Course.of_done course).2
  | succ last =>
    rw [count] at course
    rcases Plan.course_bind course with ⟨error, middle, same, first⟩ |
      ⟨summaries, middle, early, late, rfl, -, rest⟩
    · cases same
      exact accounts_stagePlans (fun _ => Stage.mem_barriers.mp) (by decide) first
    · -- Neither the look at the token nor the chain fails like this.
      exfalso
      let excuse (error : RunError) (_ : MemoryLedger) : Prop := ¬ IsCodecFailure error
      have steady : Steady excuse := fun _ _ _ _ => id
      have positive : 0 < run.count := count ▸ Nat.succ_pos last
      have plain : Plan.Fills (fun _ _ => False) (fun _ => True) (fun _ _ => True) excuse
          (Plan.checkCancelled .rebase >>= fun _ => run.chain >>= fun chained => pure {
            source := run.source
            count := last + 1
            stages := summaries ++ [chained.rebase, chained.merge]
            finalKey := ⟨last, .merged⟩
            output := chained.output : Result }) middle.state := by
        refine (fills_checkCancelled .rebase fun _ _ => ?_).andThen steady fun _ later _ => ?_
        · rintro ⟨part, place, reason, same⟩
          cases same
        refine Plan.Fills.andThen (Plan.Ensures.mono ((fills_chain positive ?_).within
          fun _ _ => trivial) (fun _ _ _ => id) fun _ _ stopped => stopped.not_codec) steady
          fun chained final _ => Plan.ensures_pure fun _ _ => trivial
        exact fun _ _ _ _ never => never.elim
      have alone := Flow.Ensures.within plain (Conduct.within_alone _)
      exact (alone middle rfl (fun _ => trivial) _ _ _ rest.path).2 _ rfl ⟨chunk, stage, cause, rfl⟩

/-! ### Attribution -/

/-- The questions of a task on record, with its end. -/
theorem bears_of_recorded {chunk : ChunkIndex} {ending : Ending}
    (barrier : stage.isSerial = false) (inside : chunk < run.count)
    (recorded : Recorded stage chunk ((run.barrierTask stage chunk).task stage) events ending) :
    ∃ result trace, ending = Ending.ofResult stage result ∧ run.Bears stage chunk result trace ∧
      ∀ exchange, .task stage chunk (.ask exchange) ∈ events ↔ exchange ∈ trace := by
  obtain ⟨trace, done, yields⟩ := recorded
  obtain ⟨result, same, asked⟩ := Job.yields_task yields
  refine ⟨result, trace, same, bears_barrierTask barrier inside trace result asked, ?_⟩
  intro exchange
  rw [← mem_deeds, done]
  simp [deedsOf]

/-- A slot in which a run has stored nothing, and that is as it was. -/
structure Untouched (events : List (Event interface)) (ledger later : MemoryLedger) (key : Key) :
    Prop where
  stored : ∀ exchange ∈ events.flatMap Event.exchanges, ¬ Stores key exchange
  held : later.get? key = ledger.get? key

/-- **What a run has done that failed as a codec call did.** -/
structure Attributed (run : Run) (events : List (Event interface)) (ledger later : MemoryLedger)
    (chunk : ChunkIndex) (stage : Stage) (cause : CodecError) : Prop where
  /-- The codec call of the task that the error names has failed for the cause that it names. -/
  reported : ∃ exchange, .task stage chunk (.ask exchange) ∈ events ∧ Reports cause exchange
  /-- No output was stored of any task whose codec call has failed. -/
  spared : ∀ place part exchange reason, .task place part (.ask exchange) ∈ events →
    Reports reason exchange → ∀ key ∈ place.outputs part, Untouched events ledger later key
  /-- Nothing was stored of a later stage. -/
  unreached : ∀ key, stage.place < key.kind.stage.place → Untouched events ledger later key
  /-- Every task of the stage that was started and not hindered has its outputs stored. -/
  finished : ∀ part, .task stage part .start ∈ events →
    (∀ exchange, .task stage part (.ask exchange) ∈ events → ¬ run.Hinders exchange) →
    ∀ key ∈ stage.outputs part, later.Has key

/-- What a task has stored that has done something. -/
theorem Accounts.bears {stages : List Stage} {result : Except RunError α}
    (accounts : Accounts run stages result events)
    (barriers : ∀ stage ∈ stages, stage.isSerial = false) {chunk : ChunkIndex}
    {deed : Deed interface} (member : .task stage chunk deed ∈ events) :
    ∃ result trace, run.Bears stage chunk (result : Except RunError Outcome) trace ∧
      ∀ exchange, .task stage chunk (.ask exchange) ∈ events ↔ exchange ∈ trace := by
  obtain ⟨listed, inside⟩ := accounts.mem_of_task member
  rcases accounts.tasks stage chunk with none | ⟨ending, recorded⟩
  · rw [← mem_deeds, none] at member
    cases member
  · obtain ⟨result, trace, -, bears, asked⟩ :=
      bears_of_recorded (barriers stage listed) inside recorded
    exact ⟨result, trace, bears, asked⟩

/-- Whatever was stored, was stored by the task whose output it is. -/
theorem Accounts.owner {stages : List Stage} {result : Except RunError α}
    (accounts : Accounts run stages result events)
    (barriers : ∀ stage ∈ stages, stage.isSerial = false) {exchange : Exchange interface}
    (member : exchange ∈ events.flatMap Event.exchanges) {key : Key}
    (stored : Stores key exchange) :
    ∃ stage chunk, .task stage chunk (.ask exchange) ∈ events ∧ key ∈ stage.outputs chunk := by
  obtain ⟨event, happened, asked⟩ := List.mem_flatMap.mp member
  rcases accounts.only event happened with ⟨own, rfl, quiet⟩ | ⟨stage, _, chunk, _, deed, rfl⟩
  · cases List.mem_singleton.mp asked
    exact absurd stored (quiet key)
  · cases deed with
    | start => cases asked
    | finish ending => cases asked
    | ask own =>
      cases List.mem_singleton.mp asked
      obtain ⟨_, trace, bears, same⟩ := accounts.bears barriers happened
      exact ⟨stage, chunk, happened, bears.owns _ ((same _).mp happened) key stored⟩

/-- **The barrier stages that ended in a codec failure** put it down to the task that failed. -/
theorem Accounts.attributed {stages : List Stage} {result : Except RunError α} {chunk : ChunkIndex}
    {cause : CodecError} {ledger later : MemoryLedger}
    (accounts : Accounts run stages result events)
    (failed : result = .error (.codec chunk stage cause))
    (barriers : ∀ stage ∈ stages, stage.isSerial = false)
    (log : Log (Serves AnyAnswer) ledger (events.flatMap Event.exchanges) later) :
    Attributed run events ledger later chunk stage cause := by
  obtain ⟨recorded, last⟩ := accounts.blames chunk stage cause failed
  have untouched {key : Key}
      (none : ∀ exchange ∈ events.flatMap Event.exchanges, ¬ Stores key exchange) :
      Untouched events ledger later key :=
    ⟨none, get?_of_log log none⟩
  constructor
  case reported =>
    obtain ⟨listed, inside⟩ := accounts.mem_of_task recorded.started
    obtain ⟨result, trace, same, bears, asked⟩ :=
      bears_of_recorded (barriers stage listed) inside recorded
    obtain ⟨-, -, exchange, member, reports⟩ :=
      bears.blames chunk stage cause (eq_error_of_failed same)
    exact ⟨exchange, (asked exchange).mpr member, reports⟩
  case spared =>
    intro place part exchange reason happened reports key written
    refine untouched fun other member stored => ?_
    obtain ⟨own, mine, also, output⟩ := accounts.owner barriers member stored
    obtain ⟨rfl, rfl⟩ := Stage.stage_and_chunk_of_mem_outputs output
    obtain ⟨rfl, rfl⟩ := Stage.stage_and_chunk_of_mem_outputs written
    obtain ⟨_, trace, bears, same⟩ := accounts.bears barriers happened
    exact bears.spares exchange ((same _).mp happened) reason reports other ((same _).mp also) key
      stored
  case unreached =>
    intro key beyond
    refine untouched fun exchange member stored => ?_
    obtain ⟨place, part, happened, output⟩ := accounts.owner barriers member stored
    obtain ⟨rfl, -⟩ := Stage.stage_and_chunk_of_mem_outputs output
    exact Nat.not_lt_of_le (last _ _ _ happened) beyond
  case finished =>
    intro part started fine key output
    obtain ⟨result, trace, bears, same⟩ := accounts.bears barriers started
    obtain ⟨outcome, ended⟩ := bears.settles fun exchange member =>
      fine exchange ((same exchange).mpr member)
    obtain ⟨exchange, member, shows⟩ := bears.shows outcome ended key output
    refine has_of_log log (List.mem_flatMap.mpr ⟨_, (same exchange).mpr member, ?_⟩) shows
    exact List.mem_singleton_self _

/-- **Failures are put down to the task that failed, and no task is left half done.** Whatever the
ledger holds, the policy and the schedule, and whichever codec calls fail: if a run fails as a codec
call did, it was the call of the task that the error names, and it has failed for the cause that
the error names; nothing was stored of any task whose call failed, nor of any later stage; and every
task of the stage that was started and not hindered has all its outputs stored. However the run
ends, outputs of one task that were all filled or all empty before are all filled or all empty. -/
theorem attributes_failures {result : Except RunError Result}
    (course : Flow.Course (serving AnyAnswer) Eq run.plan.run world events (.done result) world') :
    (∀ chunk stage cause, result = .error (.codec chunk stage cause) →
        Attributed run events world.state world'.state chunk stage cause) ∧
      KeepsWhole world.state world'.state := by
  constructor
  · rintro chunk stage cause rfl
    exact (accounts_of_codec course).attributed rfl (fun _ => Stage.mem_barriers.mp) course.path.log
  · have alone := Flow.Ensures.within (fills_plan run world.state) (Conduct.within_alone _)
    have verdict := (alone world rfl (fun _ => trivial) _ _ _ course.path).2 result rfl
    cases result with
    | ok value => exact verdict
    | error error => exact verdict

end Transcode.Run

namespace Transcode

open Run

/-- A codec that finds no frames in the second chunk, and is fine otherwise. -/
def Codec.selective : Codec :=
  { Codec.verbatim with
    encode := fun raw =>
      if raw.index = 1 then .error (.malformed (.noFrames 1)) else .ok ⟨raw.data⟩ }

/-- A run whose second chunk has no frames is told so, and keeps the baseline of the first. -/
theorem Run.attributes_failures_noFrames :
    let run : Run := ⟨"clip", twoChunks, .resume⟩
    let later := (run.plan.run.run (inMemory .selective) (World.fresh 2 .empty)).2
    ∃ events, Flow.Course (serving AnyAnswer) Eq run.plan.run (World.fresh 2 .empty) events
        (.done (.error (.codec 1 .baselineEncode (.malformed (.noFrames 1))))) later ∧
      Attributed run events .empty later.state 1 .baselineEncode (.malformed (.noFrames 1)) ∧
      later.state.Has ⟨0, .baseline⟩ ∧
      ∀ stage chunk, later.state.Whole (Stage.outputs stage chunk) := by
  intro run later
  have serves : (serving AnyAnswer).services (inMemory .selective) :=
    serves_service fun _ => trivial
  obtain ⟨trace, path⟩ := Flow.path_run serves run.plan.run (World.fresh 2 .empty)
    (Nat.add_pos_left (Flow.free_fresh 2 _) _)
  obtain ⟨events, course, -⟩ := path.course
  have told : (match (run.plan.run.run (inMemory .selective) (World.fresh 2 .empty)).1 with
      | .ok _ => none
      | .error error => some error) =
        some (.codec 1 .baselineEncode (.malformed (.noFrames 1))) := by
    decide +kernel
  have kept : later.state.Has ⟨0, .baseline⟩ := by
    unfold MemoryLedger.Has
    decide +kernel
  cases ended : (run.plan.run.run (inMemory .selective) (World.fresh 2 .empty)).1 with
  | ok value =>
    rw [ended] at told
    cases told
  | error error =>
    rw [ended] at told course
    cases told
    obtain ⟨attributed, whole⟩ := Run.attributes_failures course
    refine ⟨events, course, attributed _ _ _ rfl, kept, fun stage chunk => whole stage chunk ?_⟩
    exact .inr fun key _ held => by cases held

end Transcode
