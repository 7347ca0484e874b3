/-
**What a resumed run does can be foreseen** from the slots that are filled before it.

* `foreseen` is the outcome of a task: skipped if the ledger had all its outputs. The decision is
  made again for each task when its time comes, on the ledger as it is then.
* `adds_stagePlan` and `adds_chain` — every stage keeps to it: no earlier task touches the outputs
  of a later one.
* `Run.resumes_as_foreseen` — a resumed run reports exactly the work that the progress view shows as
  pending, makes exactly the codec calls for it, and changes no stored artifact.
-/
import Mathlib.Data.List.Perm.Basic
import Transcode.Proofs.Run.Additions
import Transcode.Proofs.Run.Barriers
import Transcode.Proofs.Run.Calls
import Transcode.Proofs.Run.Refinement
import Transcode.Proofs.Schedule.Drive

namespace Transcode

/-- The number of codec calls that the progress view predicts. The first chunk takes over what it
has, except in the first two stages. -/
def Progress.codecCalls (progress : Progress) : Codec.Operation → Nat
  | .encode => (progress.pending .baselineEncode).length
  | .decodeState => (progress.pending .stateExtraction).length
  | .encodeGivenState =>
    ((progress.pending .encodeGivenStateV0).filter (· ≠ 0)).length +
      ((progress.pending .encodeGivenStateV1).filter (· ≠ 0)).length
  | .rebase => ((progress.pending .rebase).filter (· ≠ 0)).length
  | .merge => ((progress.pending .merge).filter (· ≠ 0)).length
  | .decode => 0

namespace Run

/-- What a resumed run is going to do about a chunk. -/
def foreseen (ledger : MemoryLedger) (stage : Stage) (chunk : ChunkIndex) : Outcome :=
  if ledger.hasAll (stage.outputs chunk) then .skipped else .completed

/-- The codec calls that it is going to make for the chunk. -/
def demand (ledger : MemoryLedger) (stage : Stage) (chunk : ChunkIndex) : List Codec.Operation :=
  (foreseen ledger stage chunk).calls stage chunk

/-- What it is going to report of a stage. -/
def forecast (ledger : MemoryLedger) (count : Nat) (stage : Stage) : StageSummary :=
  tally stage ((List.range count).map (foreseen ledger stage))

theorem foreseen_congr {ledger later : MemoryLedger} {stage : Stage} {chunk : ChunkIndex}
    (same : ∀ key ∈ stage.outputs chunk, later.get? key = ledger.get? key) :
    foreseen later stage chunk = foreseen ledger stage chunk := by
  rw [foreseen, foreseen, MemoryLedger.hasAll_congr same]

variable {run : Run} {ledger : MemoryLedger}

/-- **A task that looks for its outputs first** does what was to be foreseen. -/
theorem adds_unlessStored {α : Type} {own reserved : Key → Prop} (resumes : run.policy = .resume)
    (stage : Stage) (chunk : ChunkIndex) (outcome : α → Outcome)
    (kept : ∀ key ∈ stage.outputs chunk, reserved key) {stored made : Job α}
    (takes : ∀ later, stored.Adds own reserved (fun result _ => outcome result = .skipped) later)
    (makes : ∀ later,
      made.Adds own reserved (fun result _ => outcome result = .completed) later) :
    (run.canSkip (stage.outputs chunk) >>= fun skips => if skips then stored else made).Adds own
      reserved (fun result _ => outcome result = foreseen ledger stage chunk) ledger := by
  refine Job.Ensures.bind (adds_canSkip resumes kept fun later _ => ?_)
  unfold foreseen
  cases ledger.hasAll (stage.outputs chunk) with
  | true => exact takes later
  | false => exact makes later

/-! ### Barrier stages -/

/-- A task does what was to be foreseen when its stage began. -/
theorem adds_barrierTask (resumes : run.policy = .resume) (stage : Stage) (chunk : ChunkIndex) :
    (run.barrierTask stage chunk).Adds (· ∈ stage.outputs chunk) (· ∈ stage.outputs chunk)
      (fun outcome _ => outcome = foreseen ledger stage chunk) ledger := by
  have adding : run.policy ≠ .overwrite := by simp [resumes]
  refine adds_unlessStored resumes stage chunk id (fun key written => written)
    (fun later => Job.ensures_pure fun _ _ => rfl) ?_
  exact (onlyAdds_compute adding fun key written => written).andThen
    fun _ _ => Job.ensures_pure fun _ _ => rfl

theorem onlyAdds_firstMissing {own reserved : Key → Prop} (required : KeySet) :
    (firstMissing required).OnlyAdds own reserved :=
  (Job.onlyAdds_interpret (additions own reserved).guarantee_refl _).bind fun _ =>
    Job.onlyAdds_pure _

/-- A look at what is needed changes nothing and calls for nothing. -/
theorem adds_requiring {α : Type} {own : Key → Prop} {required : KeySet} {plan : Plan α}
    {statement : α → MemoryLedger → List (Exchange interface) → Prop}
    (adds : ∀ later trace, (∀ key, later.get? key = ledger.get? key) → calls trace = [] →
      plan.Adds own (fun value final more => statement value final (trace ++ more)) later) :
    (Plan.requiring required plan).Adds own statement ledger := by
  have looks : (Plan.ofJob (firstMissing required)).Adds (fun _ => False) _ ledger :=
    Plan.ensures_ofJob (onlyAdds_firstMissing required ledger)
  refine looks.andThen (fun _ => False.elim) ?_
  rintro found later trace ⟨-, yields⟩ same
  cases found with
  | some key => exact Plan.ensures_throw fun _ _ => trivial
  | none => exact adds later trace (fun key => same key id) (quiet_firstMissing _ _ _ yields)

/-- **A barrier stage** does what was to be foreseen, and touches no other stage. -/
theorem adds_stagePlan (resumes : run.policy = .resume) {stage : Stage}
    (barrier : stage.isSerial = false) :
    (run.stagePlan stage).Adds (fun key => key.kind.stage = stage)
      (fun summary _ trace => summary = forecast ledger run.count stage ∧
        (calls trace).Perm (run.indices.flatMap (demand ledger stage))) ledger := by
  rw [stagePlan_eq run barrier]
  refine adds_requiring fun start look same quiet => ?_
  have compatible : (additions (fun key => key.kind.stage = stage) fun _ => True).Compatible
      (fun chunk => additions (· ∈ stage.outputs chunk) (· ∈ stage.outputs chunk))
      run.indices := by
    constructor
    · exact fun chunk _ => within_additions
        (fun key written => (Stage.stage_and_chunk_of_mem_outputs written).1) fun _ _ => trivial
    · intro chunk _ other _ differs state later guaranteed key again
      refine (guaranteed key).resolve_right fun changed => differs ?_
      exact (Stage.stage_and_chunk_of_mem_outputs changed.1).2.symm.trans
        (Stage.stage_and_chunk_of_mem_outputs again).2
  have pool : Plan.Ensures (serving AnyAnswer) _ _ _ _ start :=
    Plan.ensures_pool stage compatible List.nodup_range fun chunk _ =>
      adds_barrierTask resumes stage chunk
  refine pool.mono ?_ fun _ _ _ => trivial
  rintro summary later trace ⟨outcomes, traces, finished, requests, rfl⟩
  have outcome (chunk : ChunkIndex) (inside : chunk ∈ run.indices) :
      outcomes chunk = foreseen ledger stage chunk := by
    rw [(finished chunk inside).1]
    exact foreseen_congr fun key _ => same key
  have counted (wanted : Outcome) : (run.indices.countP fun chunk => outcomes chunk = wanted) =
      ((List.range run.count).map (foreseen ledger stage)).count wanted := by
    rw [List.count, List.countP_map]
    refine List.countP_congr fun chunk inside => ?_
    simp [outcome chunk inside]
  refine ⟨by rw [counted, counted]; rfl, ?_⟩
  rw [calls_append, quiet, List.nil_append]
  refine (perm_calls requests).trans (List.Perm.of_eq ?_)
  rw [calls_flatMap]
  refine List.flatMap_congr fun chunk inside => ?_
  rw [run.makes_barrierTask stage chunk _ _ (finished chunk inside).2, outcome chunk inside, demand]

theorem forecast_congr {later : MemoryLedger} {count : Nat} {stage : Stage}
    (same : ∀ key, key.kind.stage = stage → later.get? key = ledger.get? key) :
    forecast later count stage = forecast ledger count stage ∧
      demand later stage = demand ledger stage := by
  have outcomes : foreseen later stage = foreseen ledger stage := funext fun chunk =>
    foreseen_congr fun key written => same key (Stage.stage_and_chunk_of_mem_outputs written).1
  constructor
  · rw [forecast, forecast, outcomes]
  · unfold demand
    rw [outcomes]

/-- Barrier stages one after another. -/
theorem adds_stagePlans (resumes : run.policy = .resume) {stages : List Stage}
    (barriers : ∀ stage ∈ stages, stage.isSerial = false) (distinct : stages.Nodup) :
    (run.stagePlans stages).Adds (fun key => key.kind.stage ∈ stages)
      (fun summaries _ trace => summaries = stages.map (forecast ledger run.count) ∧
        (calls trace).Perm (stages.flatMap fun stage => run.indices.flatMap (demand ledger stage)))
      ledger := by
  induction stages generalizing ledger with
  | nil => exact Plan.ensures_pure fun _ _ => ⟨rfl, .refl _⟩
  | cons stage rest ih =>
    obtain ⟨absent, distinct⟩ := List.nodup_cons.mp distinct
    refine Plan.Adds.andThen (adds_stagePlan resumes (barriers stage List.mem_cons_self))
      (fun key here => by simp [here]) ?_
    rintro summary later trace ⟨rfl, made⟩ others
    have unchanged {other : Stage} (member : other ∈ rest) :
        forecast later run.count other = forecast ledger run.count other ∧
          demand later other = demand ledger other := by
      refine forecast_congr fun key own => others key ?_
      rintro same
      exact absent (same ▸ own ▸ member)
    refine Plan.Adds.andThen
      (ih (fun other member => barriers other (List.mem_cons_of_mem _ member)) distinct)
      (fun key => List.mem_cons_of_mem _) ?_
    rintro summaries final more ⟨rfl, further⟩ -
    refine Plan.ensures_pure fun _ _ => ⟨?_, ?_⟩
    · exact congrArg (_ :: ·) (List.map_congr_left fun other member => (unchanged member).1)
    · rw [List.append_nil, calls_append, List.flatMap_cons]
      refine made.append (further.trans (List.Perm.of_eq ?_))
      exact List.flatMap_congr fun other member => by rw [(unchanged member).2]

/-! ### The chain -/

theorem adds_takeOverState (resumes : run.policy = .resume) :
    run.takeOverState.Adds (· ∈ Stage.rebase.outputs 0) (fun _ => True)
      (fun result _ => result.2 = foreseen ledger .rebase 0) ledger := by
  have adding : run.policy ≠ .overwrite := by simp [resumes]
  refine adds_unlessStored resumes .rebase 0 Prod.snd (fun _ _ => trivial) ?_ ?_
  · exact (onlyAdds_state _ _).andThen fun _ _ => Job.ensures_pure fun _ _ => rfl
  · exact (onlyAdds_state _ _).andThen fun _ => (onlyAdds_store adding
      (List.mem_singleton_self _) _).andThen fun _ _ => Job.ensures_pure fun _ _ => rfl

theorem adds_takeOverStream (resumes : run.policy = .resume) :
    run.takeOverStream.Adds (· ∈ Stage.merge.outputs 0) (fun _ => True)
      (fun result _ => result.2 = foreseen ledger .merge 0) ledger := by
  have adding : run.policy ≠ .overwrite := by simp [resumes]
  refine adds_unlessStored resumes .merge 0 Prod.snd (fun _ _ => trivial) ?_ ?_
  · exact (onlyAdds_bitstream _ _).andThen fun _ _ => Job.ensures_pure fun _ _ => rfl
  · exact (onlyAdds_bitstream _ _).andThen fun _ => (onlyAdds_store adding
      (List.mem_singleton_self _) _).andThen fun _ _ => Job.ensures_pure fun _ _ => rfl

theorem adds_rebaseOnto (resumes : run.policy = .resume) (previous : ChunkIndex)
    (newState : StateHandle) :
    (run.rebaseOnto previous newState).Adds (· ∈ Stage.rebase.outputs (previous + 1))
      (fun _ => True) (fun result _ => result.2 = foreseen ledger .rebase (previous + 1))
      ledger := by
  have adding : run.policy ≠ .overwrite := by simp [resumes]
  refine adds_unlessStored resumes .rebase (previous + 1) Prod.snd (fun _ _ => trivial) ?_ ?_
  · exact (onlyAdds_bitstream _ _).andThen fun _ => (onlyAdds_state _ _).andThen
      fun _ _ => Job.ensures_pure fun _ _ => rfl
  · exact (onlyAdds_state _ _).andThen fun _ => (onlyAdds_bitstream _ _).andThen fun _ =>
      (Job.onlyAdds_ofExcept _).andThen fun _ => (Job.onlyAdds_codec _ _).andThen fun _ =>
      (onlyAdds_store adding (by simp [Stage.outputs]) _).andThen fun _ =>
      (onlyAdds_store adding (by simp [Stage.outputs]) _).andThen fun _ _ =>
        Job.ensures_pure fun _ _ => rfl

theorem adds_mergeOnto (resumes : run.policy = .resume) (chunk : ChunkIndex)
    (output rebased : Bitstream) :
    (run.mergeOnto chunk output rebased).Adds (· ∈ Stage.merge.outputs chunk) (fun _ => True)
      (fun result _ => result.2 = foreseen ledger .merge chunk) ledger := by
  have adding : run.policy ≠ .overwrite := by simp [resumes]
  refine adds_unlessStored resumes .merge chunk Prod.snd (fun _ _ => trivial) ?_ ?_
  · exact (onlyAdds_bitstream _ _).andThen fun _ _ => Job.ensures_pure fun _ _ => rfl
  · exact (Job.onlyAdds_codec _ _).andThen fun _ => (onlyAdds_store adding
      (List.mem_singleton_self _) _).andThen fun _ _ => Job.ensures_pure fun _ _ => rfl

/-- The slots of one step of the chain. -/
def chainSlots (chunk : ChunkIndex) (key : Key) : Prop :=
  key ∈ Stage.rebase.outputs chunk ∨ key ∈ Stage.merge.outputs chunk

/-- A step of the chain did what was to be foreseen. -/
def Foretold (ledger : MemoryLedger) (chunk : ChunkIndex) (step : ChainStep) : Prop :=
  step.rebase = foreseen ledger .rebase chunk ∧ step.merge = foreseen ledger .merge chunk

/-- What a rebase stores says nothing about the merge. -/
theorem foreseen_merge {later : MemoryLedger} {chunk : ChunkIndex}
    (others : ∀ key, ¬ key ∈ Stage.rebase.outputs chunk → later.get? key = ledger.get? key) :
    foreseen later .merge chunk = foreseen ledger .merge chunk := by
  refine foreseen_congr fun key written => others key fun again => ?_
  have merge := (Stage.stage_and_chunk_of_mem_outputs written).1
  rw [(Stage.stage_and_chunk_of_mem_outputs again).1] at merge
  cases merge

/-- A step of the chain says nothing about other chunks. -/
theorem foreseen_elsewhere {later : MemoryLedger} {place chunk : ChunkIndex}
    (others : ∀ key, ¬ chainSlots place key → later.get? key = ledger.get? key)
    (differs : place ≠ chunk) (stage : Stage) :
    foreseen later stage chunk = foreseen ledger stage chunk := by
  refine foreseen_congr fun key written => others key fun own => differs ?_
  have here := (Stage.stage_and_chunk_of_mem_outputs written).2
  rcases own with own | own
  · exact (Stage.stage_and_chunk_of_mem_outputs own).2.symm.trans here
  · exact (Stage.stage_and_chunk_of_mem_outputs own).2.symm.trans here

theorem adds_seed (resumes : run.policy = .resume) :
    run.seed.Adds (chainSlots 0) (fun _ => True) (fun step _ => Foretold ledger 0 step) ledger := by
  refine Job.Adds.andThen (adds_takeOverState resumes) (fun _ => .inl) ?_
  rintro ⟨state, rebase⟩ later rebased others
  refine Job.Adds.andThen (adds_takeOverStream resumes) (fun _ => .inr) ?_
  rintro ⟨output, merge⟩ final merged -
  exact Job.ensures_pure fun _ _ => ⟨rebased, merged.trans (foreseen_merge others)⟩

theorem adds_extend (resumes : run.policy = .resume) (previous : ChunkIndex) (link : Link) :
    (run.extend previous link).Adds (chainSlots (previous + 1)) (fun _ => True)
      (fun step _ => Foretold ledger (previous + 1) step) ledger := by
  refine Job.Adds.andThen (adds_rebaseOnto resumes previous link.state) (fun _ => .inl) ?_
  rintro ⟨encoded, rebase⟩ later rebased others
  refine Job.Adds.andThen (adds_mergeOnto resumes _ _ _) (fun _ => .inr) ?_
  rintro ⟨output, merge⟩ final merged -
  exact Job.ensures_pure fun _ _ => ⟨rebased, merged.trans (foreseen_merge others)⟩

/-- The chain over the chunks that remain. -/
theorem adds_chainFrom (resumes : run.policy = .resume) (previous : ChunkIndex) (link : Link)
    (remaining : Nat) :
    (run.chainFrom previous link remaining).Adds (fun _ => True)
      (fun rest _ trace =>
        rest.map ChainStep.rebase =
          (List.range' (previous + 1) remaining).map (foreseen ledger .rebase) ∧
        rest.map ChainStep.merge =
          (List.range' (previous + 1) remaining).map (foreseen ledger .merge) ∧
        calls trace = (List.range' (previous + 1) remaining).flatMap fun chunk =>
          demand ledger .rebase chunk ++ demand ledger .merge chunk) ledger := by
  induction remaining generalizing previous link ledger with
  | zero => exact Plan.ensures_pure fun _ _ => ⟨rfl, rfl, rfl⟩
  | succ remaining ih =>
    refine Plan.adds_checkCancelled fun later begun => ?_
    have here (stage : Stage) :
        foreseen later stage (previous + 1) = foreseen ledger stage (previous + 1) :=
      foreseen_congr fun key _ => begun key
    refine Plan.Adds.andThen (Plan.ensures_ofJob (adds_extend resumes previous link))
      (fun _ _ => trivial) ?_
    rintro step final trace ⟨⟨rebased, merged⟩, yields⟩ others
    have ahead (stage : Stage) {chunk : ChunkIndex}
        (inside : chunk ∈ List.range' (previous + 1 + 1) remaining) :
        foreseen final stage chunk = foreseen ledger stage chunk := by
      have differs : previous + 1 ≠ chunk := Nat.ne_of_lt (List.mem_range'_1.mp inside).1
      exact (foreseen_elsewhere others differs stage).trans
        (foreseen_congr fun key _ => begun key)
    refine Plan.Adds.andThen (ih (previous + 1) step.link) (fun _ => id) ?_
    rintro rest last more ⟨rebases, merges, made⟩ -
    refine Plan.ensures_pure fun _ _ => ⟨?_, ?_, ?_⟩
    · rw [List.range'_succ, List.map_cons, List.map_cons, rebased, here, rebases]
      exact congrArg _ (List.map_congr_left fun chunk => ahead .rebase)
    · rw [List.range'_succ, List.map_cons, List.map_cons, merged, here, merges]
      exact congrArg _ (List.map_congr_left fun chunk => ahead .merge)
    · rw [List.range'_succ, List.flatMap_cons, List.append_nil, calls_append,
        run.makes_extend previous link _ _ yields, made, rebased, merged, here, here]
      refine congrArg _ (List.flatMap_congr fun chunk inside => ?_)
      unfold demand
      rw [ahead .rebase inside, ahead .merge inside]

/-- **The chain** does what was to be foreseen. -/
theorem adds_chain (resumes : run.policy = .resume) {last : Nat} (count : run.count = last + 1) :
    run.chain.Adds (fun _ => True)
      (fun result _ trace => result.rebase = forecast ledger run.count .rebase ∧
        result.merge = forecast ledger run.count .merge ∧
        (calls trace).Perm (run.indices.flatMap (demand ledger .rebase) ++
          run.indices.flatMap (demand ledger .merge))) ledger := by
  rw [chain_eq]
  refine adds_requiring fun start look same quiet => ?_
  have unchanged (stage : Stage) : foreseen start stage = foreseen ledger stage :=
    funext fun chunk => foreseen_congr fun key _ => same key
  refine Plan.Adds.andThen (Plan.ensures_ofJob (adds_seed resumes)) (fun _ _ => trivial) ?_
  rintro first later trace ⟨⟨rebased, merged⟩, yields⟩ others
  have ahead (stage : Stage) {chunk : ChunkIndex} (inside : chunk ∈ List.range' 1 last) :
      foreseen later stage chunk = foreseen ledger stage chunk := by
    have differs : 0 ≠ chunk := Nat.ne_of_lt (List.mem_range'_1.mp inside).1
    rw [foreseen_elsewhere others differs, unchanged]
  have tail (stage : Stage) : (List.range' (0 + 1) last).map (foreseen later stage) =
      (List.range' 1 last).map (foreseen ledger stage) :=
    List.map_congr_left fun chunk => ahead stage
  have chunks : List.range run.count = 0 :: List.range' 1 last := by
    rw [count, List.range_eq_range', List.range'_succ]
  rw [show run.count - 1 = last by omega]
  refine Plan.Adds.andThen (adds_chainFrom resumes 0 first.link last) (fun _ => id) ?_
  rintro rest final more ⟨rebases, merges, made⟩ -
  refine Plan.ensures_pure fun _ _ => ⟨?_, ?_, ?_⟩
  · rw [forecast, chunks, List.map_cons, List.map_cons, rebased, unchanged, rebases, tail]
    rfl
  · rw [forecast, chunks, List.map_cons, List.map_cons, merged, unchanged, merges, tail]
    rfl
  · have nothing (stage : Stage) (serial : stage = .rebase ∨ stage = .merge) :
        demand ledger stage 0 = [] := by
      unfold demand
      rcases serial with rfl | rfl <;> cases foreseen ledger _ 0 <;> rfl
    rw [List.append_nil, calls_append, calls_append, quiet, run.quiet_seed _ _ yields, made,
      indices, chunks, List.flatMap_cons, List.flatMap_cons, nothing _ (.inl rfl),
      nothing _ (.inr rfl)]
    refine List.Perm.trans (List.Perm.of_eq (List.flatMap_congr fun chunk inside => ?_))
      (List.flatMap_append_perm _ _ _).symm
    unfold demand
    rw [ahead .rebase inside, ahead .merge inside]

/-- **A resumed run** does what was to be foreseen in every stage. -/
theorem adds_plan (resumes : run.policy = .resume) :
    run.plan.Adds (fun _ => True)
      (fun result _ trace => result.stages = Stage.all.map (forecast ledger run.count) ∧
        (calls trace).Perm
          (Stage.all.flatMap fun stage => run.indices.flatMap (demand ledger stage))) ledger := by
  cases count : run.count with
  | zero =>
    unfold plan
    rw [count]
    exact Plan.ensures_throw fun _ _ => trivial
  | succ last =>
    unfold plan
    rw [count]
    refine Plan.Adds.andThen
      (adds_stagePlans resumes (fun stage => Stage.mem_barriers.mp) (by decide))
      (fun _ _ => trivial) ?_
    rintro summaries later trace ⟨rfl, made⟩ others
    refine Plan.adds_checkCancelled fun middle begun => ?_
    have unchanged {stage : Stage} (serial : stage.isSerial = true) :
        forecast middle run.count stage = forecast ledger run.count stage ∧
          demand middle stage = demand ledger stage := by
      refine forecast_congr fun key own => (begun key).trans (others key fun barrier => ?_)
      have := Stage.mem_barriers.mp barrier
      rw [own, serial] at this
      cases this
    refine Plan.Adds.andThen (adds_chain resumes count) (fun _ => id) ?_
    rintro chained final more ⟨rebase, merge, further⟩ -
    refine Plan.ensures_pure fun _ _ => ⟨?_, ?_⟩
    · rw [rebase, merge, (unchanged rfl).1, (unchanged rfl).1, count]
      rfl
    · have serial : [Stage.rebase, .merge].flatMap (fun stage =>
          run.indices.flatMap (demand ledger stage)) =
          run.indices.flatMap (demand middle .rebase) ++
            run.indices.flatMap (demand middle .merge) := by
        rw [(unchanged rfl).2, (unchanged rfl).2]
        simp
      rw [List.append_nil, calls_append, Stage.all, List.flatMap_append, serial]
      exact made.append further

/-! ### The progress view -/

theorem foreseen_eq (ledger : MemoryLedger) (count : Nat) (stage : Stage) (chunk : ChunkIndex) :
    foreseen ledger stage chunk =
      if (Progress.mk ledger.keys count).isDone stage chunk then .skipped else .completed := by
  have same : ledger.hasAll (stage.outputs chunk) =
      (Progress.mk ledger.keys count).isDone stage chunk := by
    rw [Bool.eq_iff_iff, MemoryLedger.hasAll, Progress.isDone, List.all_eq_true, List.all_eq_true]
    refine forall₂_congr fun key _ => ?_
    rw [List.contains_iff_mem, MemoryLedger.mem_keys]
  rw [foreseen, same]

/-- Every task is computed or skipped. -/
theorem count_completed_add_count_skipped (outcomes : List Outcome) :
    outcomes.count .completed + outcomes.count .skipped = outcomes.length := by
  induction outcomes with
  | nil => rfl
  | cons outcome rest ih =>
    cases outcome <;> simp only [List.count_cons, List.length_cons] <;> simp <;> omega

/-- The forecast of a stage, by the chunks that the progress view shows as pending. -/
theorem forecast_eq (ledger : MemoryLedger) (count : Nat) (stage : Stage) :
    forecast ledger count stage =
      ⟨stage, ((Progress.mk ledger.keys count).pending stage).length,
        count - ((Progress.mk ledger.keys count).pending stage).length⟩ := by
  have completed : ((List.range count).map (foreseen ledger stage)).count .completed =
      ((Progress.mk ledger.keys count).pending stage).length := by
    rw [List.count, List.countP_map, Progress.pending, ← List.countP_eq_length_filter]
    refine List.countP_congr fun chunk _ => ?_
    rw [Function.comp_apply, foreseen_eq ledger count]
    split <;> simp_all
  have both := count_completed_add_count_skipped ((List.range count).map (foreseen ledger stage))
  rw [completed, List.length_map, List.length_range] at both
  rw [forecast, tally, completed, Nat.eq_sub_of_add_eq' both]

/-- The codec calls of a stage, by the chunks that the progress view shows as pending. -/
theorem flatMap_demand (ledger : MemoryLedger) (count : Nat) (stage : Stage) :
    (List.range count).flatMap (demand ledger stage) =
      ((Progress.mk ledger.keys count).pending stage).flatMap stage.calls := by
  suffices ∀ chunks : List ChunkIndex, chunks.flatMap (demand ledger stage) =
      (chunks.filter fun chunk => !(Progress.mk ledger.keys count).isDone stage chunk).flatMap
        stage.calls from this _
  intro chunks
  induction chunks with
  | nil => rfl
  | cons chunk rest ih =>
    rw [List.flatMap_cons, ih, demand, foreseen_eq ledger count, List.filter_cons]
    cases (Progress.mk ledger.keys count).isDone stage chunk <;> rfl

/-- How often an operation is called for chunks, each of which calls for at most one. -/
theorem count_flatMap_calls (stage : Stage) (operation : Codec.Operation)
    (chunks : List ChunkIndex) :
    (chunks.flatMap stage.calls).count operation =
      chunks.countP fun chunk => (stage.calls chunk).contains operation := by
  induction chunks with
  | nil => rfl
  | cons chunk rest ih =>
    have once : (stage.calls chunk).count operation =
        if (stage.calls chunk).contains operation then 1 else 0 := by
      cases stage <;> cases chunk <;> cases operation <;> rfl
    rw [List.flatMap_cons, List.count_append, List.countP_cons, ih, once, Nat.add_comm]

/-- The codec operation of a stage. -/
def stageOperation : Stage → Codec.Operation
  | .baselineEncode => .encode
  | .stateExtraction => .decodeState
  | .encodeGivenStateV0 | .encodeGivenStateV1 => .encodeGivenState
  | .rebase => .rebase
  | .merge => .merge

/-- Whether a stage continues the chunk before, so that the first chunk needs no call. -/
def inherits : Stage → Bool
  | .baselineEncode | .stateExtraction => false
  | .encodeGivenStateV0 | .encodeGivenStateV1 | .rebase | .merge => true

theorem contains_calls (stage : Stage) (operation : Codec.Operation) (chunk : ChunkIndex) :
    (stage.calls chunk).contains operation =
      (decide (operation = stageOperation stage) && !(inherits stage && decide (chunk = 0))) := by
  cases stage <;> cases chunk <;> cases operation <;> rfl

/-- The codec calls of all stages. -/
theorem count_demand (ledger : MemoryLedger) (count : Nat) (operation : Codec.Operation) :
    (Stage.all.flatMap fun stage => (List.range count).flatMap (demand ledger stage)).count
      operation = (Progress.mk ledger.keys count).codecCalls operation := by
  simp only [Stage.all, Stage.barriers, List.cons_append, List.nil_append, List.flatMap_cons,
    List.flatMap_nil, List.append_nil, List.count_append, flatMap_demand, count_flatMap_calls,
    contains_calls]
  cases operation <;>
    simp [stageOperation, inherits, Progress.codecCalls, List.countP_eq_length_filter]

/-- **A resumed run does exactly the work that the progress view shows as pending.** Whatever the
ledger held, whatever the codec answers and under every schedule, a resumed run that succeeds
computes the pending chunks of each stage and skips the others, calls the codec for these chunks
alone, and leaves every stored artifact as it was. -/
theorem resumes_as_foreseen {run : Run} (resumes : run.policy = .resume) {ledger : MemoryLedger}
    {concurrency : Nat} {trace : List (Exchange interface)} {result : Result}
    {world : World MemoryLedger}
    (path : Flow.Path (serving AnyAnswer) Eq run.plan.run (World.fresh concurrency ledger) trace
      (.done (.ok result)) world) :
    (result.stages = Stage.all.map fun stage =>
      ⟨stage, ((Progress.mk ledger.keys run.count).pending stage).length,
        run.count - ((Progress.mk ledger.keys run.count).pending stage).length⟩) ∧
    (∀ operation, (calls trace).count operation =
      (Progress.mk ledger.keys run.count).codecCalls operation) ∧
    (Progress.mk ledger.keys run.count).nextStage? =
      (result.stages.find? fun summary => 0 < summary.completed).map StageSummary.stage ∧
    ∀ key artifact, ledger.get? key = some artifact → world.state.get? key = some artifact := by
  have ensures : Plan.Ensures _ _ _ _ run.plan (World.fresh concurrency ledger).state :=
    (adds_plan resumes).within (Conduct.within_alone _)
  obtain ⟨stages, made⟩ :=
    (ensures (World.fresh concurrency ledger) rfl (fun _ => trivial) trace _ world path).2 _ rfl
  have reported : result.stages = Stage.all.map fun stage =>
      ⟨stage, ((Progress.mk ledger.keys run.count).pending stage).length,
        run.count - ((Progress.mk ledger.keys run.count).pending stage).length⟩ :=
    stages.trans (List.map_congr_left fun stage _ => forecast_eq ledger run.count stage)
  refine ⟨reported, fun operation => ?_, ?_, ?_⟩
  · rw [made.count_eq]
    exact count_demand ledger run.count operation
  · rw [reported, List.find?_map, Option.map_map, Progress.nextStage?]
    refine Eq.trans (congrArg (Stage.all.find? ·) (funext fun stage => ?_)) Option.map_id'.symm
    simp [List.length_pos_iff]
  · have begun : ledger.Within ledger.get? := fun key artifact held => held
    have kept : ledger.Within world.state.get? :=
      ensures.always (fun _ => trivial) (fun same before => same ▸ before)
        (fun kept => @within_of_additions _ (fun _ => True) ledger _ _ kept) begun path
    exact kept

/-- Two chunks, of which one has been encoded already. -/
theorem resumes_as_foreseen_twoChunks :
    ∃ trace result world,
      Flow.Path (serving AnyAnswer) Eq (Run.plan ⟨"clip", twoChunks, .resume⟩).run
        (World.fresh 4 (.insert .empty ⟨1, .baseline⟩ (.bitstream ⟨[2]⟩))) trace
        (.done (.ok result)) world ∧
      result.stages = [⟨.baselineEncode, 1, 1⟩, ⟨.stateExtraction, 2, 0⟩,
        ⟨.encodeGivenStateV0, 2, 0⟩, ⟨.encodeGivenStateV1, 2, 0⟩, ⟨.rebase, 2, 0⟩,
        ⟨.merge, 2, 0⟩] ∧
      (calls trace).count .encode = 1 ∧ (calls trace).count .encodeGivenState = 2 ∧
      world.state.get? ⟨1, .baseline⟩ = some (.bitstream ⟨[2]⟩) := by
  let ledger := MemoryLedger.insert .empty ⟨1, .baseline⟩ (.bitstream ⟨[2]⟩)
  let run : Run := ⟨"clip", twoChunks, .resume⟩
  have within : ledger.Within (canonical twoRows 2) := by
    intro key artifact held
    rw [MemoryLedger.get?_insert] at held
    split at held
    · next same =>
      subst same
      exact held
    · cases held
  have permits := Nat.add_pos_left (Flow.free_fresh 4 ledger) run.plan.run.holding
  obtain ⟨_, path⟩ := @Flow.path_run _ _ _ (exactly .verbatim) _ rfl run.plan.run _ permits
  obtain ⟨result, ended, -⟩ := (Blueprint.reliable run recurrence_twoChunks).ok_of_path rfl id rfl
    (Blueprint.standing_of_within (.inl rfl) (fun _ => rfl) within) path
  have serves : (serving AnyAnswer).services (inMemory .verbatim) :=
    serves_service fun _ => trivial
  obtain ⟨trace, path⟩ := Flow.path_run serves run.plan.run _ permits
  rw [ended] at path
  obtain ⟨stages, counts, -, kept⟩ := resumes_as_foreseen rfl path
  exact ⟨trace, result, _, path, stages.trans rfl, (counts .encode).trans rfl,
    (counts .encodeGivenState).trans rfl, kept _ _ rfl⟩

end Run

end Transcode
