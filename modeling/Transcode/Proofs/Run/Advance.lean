/-
**How far a run comes** before it ends, well or not.

* `Plan.Fills` is what a plan promises that fills its slots in order, each after those that come
  `before` it. `KeepsWhole` says that no outputs of a task are half filled that were not so before.
* `fills_stagePlan` — a barrier stage fills the slots of all chunks, or leaves nothing half filled.
* `Stopped` lists the ways in which the chain ends early, each with what it leaves: a task failed in
  its turn, or the run was interrupted between two chunks (`fills_chain`).
* `fills_plan` — so a run fills its slots in order, and leaves nothing half filled.
-/
import Transcode.Proofs.Run.Chain
import Transcode.Proofs.Run.Progression

namespace Transcode.Run

variable {α β : Type} {before : Key → Key → Prop} {own : Key → Prop} {run : Run}
  {origin ledger middle later : MemoryLedger}

/-! ### Plans -/

/-- What a plan promises that fills its slots in order, alone with the ledger. -/
abbrev Plan.Fills (before : Key → Key → Prop) (own : Key → Prop)
    (statement : α → MemoryLedger → Prop) (excuse : RunError → MemoryLedger → Prop) (plan : Plan α)
    (ledger : MemoryLedger) : Prop :=
  plan.Ensures (serving AnyAnswer) (filling before own fun _ => True)
    (fun value later _ => statement value later) excuse ledger

/-- What is said of an error depends on the filled slots only. -/
def Steady (excuse : RunError → MemoryLedger → Prop) : Prop :=
  ∀ ⦃error state later⦄, GainsNothing (fun _ => True) state later → excuse error state →
    excuse error later

/-- A plan followed by another, which goes on from what the first has filled. -/
theorem Plan.Fills.andThen {statement : α → MemoryLedger → Prop} {further : β → MemoryLedger → Prop}
    {excuse : RunError → MemoryLedger → Prop} {plan : Plan α} {after : α → Plan β}
    (fills : plan.Fills before own statement excuse ledger) (steady : Steady excuse)
    (onward : ∀ value later, statement value later →
      (after value).Fills before own further excuse later) :
    (plan >>= after).Fills before own further excuse ledger :=
  Plan.Ensures.bind (fun _ _ _ allowed excused => steady (gains_of_rely allowed) excused)
    (fills.mono (fun value later _ holds => onward value later holds) fun _ _ => id)

theorem Job.Fills.toPlan {statement : α → MemoryLedger → Prop}
    {excuse : RunError → MemoryLedger → Prop} {job : Job α}
    (fills : job.Fills before own (fun _ => True) statement excuse ledger) :
    (Plan.ofJob job).Fills before own statement excuse ledger :=
  (Plan.ensures_ofJob fills).mono (fun _ _ _ holds => holds.1) fun _ _ => id

theorem fills_checkCancelled {excuse : RunError → MemoryLedger → Prop} (stage : Stage)
    (excused : ∀ later, GainsNothing (fun _ => True) ledger later →
      excuse (.cancelled stage) later) :
    (Plan.checkCancelled stage).Fills before own
      (fun _ later => GainsNothing (fun _ => True) ledger later) excuse ledger :=
  Plan.ensures_checkCancelled (fun _ allowed => gains_of_rely allowed)
    fun _ later allowed => excused later (gains_of_rely allowed)

/-- A look at what is needed, before a plan. -/
theorem fills_requiring {required : KeySet} {plan : Plan α} {statement : α → MemoryLedger → Prop}
    {excuse : RunError → MemoryLedger → Prop} (steady : Steady excuse)
    (missing : ∀ error later, GainsNothing (fun _ => True) ledger later → error.IsPlain →
      excuse error later)
    (fills : ∀ later, GainsNothing (fun _ => True) ledger later →
      plan.Fills before own statement excuse later) :
    (Plan.requiring required plan).Fills before own statement excuse ledger := by
  have looks : (firstMissing required).Spares before own (fun _ => True) (fun _ _ => True)
      (fun _ => False) ledger :=
    (spares_look (fun _ => rfl) (fun _ _ failed => by cases failed)
      fun _ _ _ _ _ _ => trivial : Job.Spares before own _ (fun _ _ => True) _ _ _).andThen
      (fun _ _ same plain => ⟨same, plain⟩) fun existing later same _ =>
        Job.ensures_pure fun final more => ⟨same.then_nothing (gains_of_rely more), trivial⟩
  refine Plan.Fills.andThen (Job.Fills.toPlan (Job.Ensures.mono looks (fun _ _ => And.left)
    fun error later failed => ?_)) steady fun found later same => ?_
  · exact missing error later failed.1 (failed.2.resolve_right id)
  · cases found with
    | none => exact fills later same
    | some key =>
      exact Plan.ensures_throw fun final more =>
        missing _ final (same.then_nothing (gains_of_rely more)) trivial

/-! ### Barrier stages -/

/-- No outputs of a task are half filled that were not so before. -/
def KeepsWhole (ledger later : MemoryLedger) : Prop :=
  ∀ (stage : Stage) (chunk : ChunkIndex), ledger.Whole (stage.outputs chunk) →
    later.Whole (stage.outputs chunk)

theorem KeepsWhole.trans (first : KeepsWhole ledger middle) (second : KeepsWhole middle later) :
    KeepsWhole ledger later :=
  fun stage chunk whole => second stage chunk (first stage chunk whole)

/-- The slots of one task are among them together. -/
def ByTask (added : Key → Prop) : Prop :=
  ∀ ⦃key other : Key⦄, key.kind.stage = other.kind.stage → key.chunk = other.chunk →
    other ≠ ⟨0, .rebased⟩ → added key → added other

/-- Where whole tasks are done, nothing is half filled. -/
theorem keepsWhole_of_gains {added : Key → Prop} (byTask : ByTask added)
    (gains : Gains (fun _ => True) added ledger later) : KeepsWhole ledger later := by
  intro stage chunk
  refine gains.whole (fun _ _ => trivial) ?_
  by_cases done : ∃ key ∈ stage.outputs chunk, added key
  · obtain ⟨first, here, gained⟩ := done
    obtain ⟨rfl, rfl, -⟩ := mem_outputs_iff.mp here
    refine .inl fun key written => ?_
    obtain ⟨own, place, present⟩ := mem_outputs_iff.mp written
    exact byTask own.symm place.symm present gained
  · exact .inr fun key written gained => done ⟨key, written, gained⟩

theorem keepsWhole_of_nothing (same : GainsNothing (fun _ => True) ledger later) :
    KeepsWhole ledger later :=
  fun _ _ => same.whole (fun _ _ => trivial) (.inr fun _ _ => id)

theorem steady_keepsWhole (ledger : MemoryLedger) : Steady fun _ later => KeepsWhole ledger later :=
  fun _ _ _ same kept => kept.trans (keepsWhole_of_nothing same)

/-- The slots that a stage fills. -/
def FilledBy (run : Run) (stage : Stage) (key : Key) : Prop :=
  key ≠ ⟨0, .rebased⟩ ∧ key.kind.stage = stage ∧ key.chunk < run.count

theorem filledBy_of_mem {stage : Stage} {chunk : ChunkIndex} (inside : chunk < run.count)
    {key : Key} (written : key ∈ stage.outputs chunk) : FilledBy run stage key := by
  obtain ⟨rfl, rfl, present⟩ := mem_outputs_iff.mp written
  exact ⟨present, rfl, inside⟩

/-- Tasks of one stage fill slots of their own. -/
theorem compatible_filling (before : Key → Key → Prop) (run : Run) (stage : Stage) :
    (filling before (FilledBy run stage) fun _ => True).Compatible
      (fun chunk => filling before (· ∈ stage.outputs chunk) (· ∈ stage.outputs chunk))
      run.indices := by
  constructor
  · exact fun chunk member => within_filling
      (fun key written => filledBy_of_mem (List.mem_range.mp member) written) fun _ _ => trivial
  · intro chunk _ other _ differs ledger later guaranteed
    refine rely_of_filling (fun key written again => differs ?_) guaranteed
    exact (Stage.stage_and_chunk_of_mem_outputs written).2.symm.trans
      (Stage.stage_and_chunk_of_mem_outputs again).2

/-- What a part of a run leaves as it was. -/
structure Frames (own : Key → Prop) (ledger later : MemoryLedger) : Prop where
  keeps : ∀ key, ledger.Has key → later.Has key
  others : ∀ key, ¬ own key → later.get? key = ledger.get? key

theorem Frames.refl (own : Key → Prop) (ledger : MemoryLedger) : Frames own ledger ledger :=
  ⟨fun _ => id, fun _ _ => rfl⟩

/-- What it owns is all that one more step of it changes. -/
theorem Frames.step {reserved : Key → Prop} (frames : Frames own ledger middle)
    (kept : (filling before own reserved).guarantee middle later) : Frames own ledger later where
  keeps key held := has_of_guarantee kept (frames.keeps key held)
  others key other :=
    ((kept key).resolve_right fun filled => other filled.1).trans (frames.others key other)

/-- A part of a run that has filled all that it owns. -/
theorem Frames.gains (frames : Frames own ledger later) (filled : ∀ key, own key → later.Has key) :
    Gains (fun _ => True) own ledger later := by
  refine ⟨frames.keeps, filled, fun key _ held => ?_⟩
  by_cases mine : own key
  · exact .inr mine
  · exact .inl ((MemoryLedger.has_congr (frames.others key mine)).mp held)

/-- A part of a run leaves alone what it does not own. -/
theorem framed {statement : α → MemoryLedger → List (Exchange interface) → Prop}
    {flow : Flow interface α}
    (ensures : flow.Ensures (serving AnyAnswer) (filling before own fun _ => True) statement
      ledger) :
    flow.Ensures (serving AnyAnswer) (filling before own fun _ => True)
      (fun value later trace => statement value later trace ∧ Frames own ledger later) ledger := by
  refine ensures.and_always (fun allowed frames => ⟨fun key held => ?_, fun key other => ?_⟩)
    (fun kept frames => frames.step kept) (.refl own ledger)
  · exact (allowed key).1 (frames.keeps key held)
  · exact ((allowed key).2 trivial).trans (frames.others key other)

/-- **A barrier stage** fills the slots of all chunks, or leaves nothing half filled. -/
theorem fills_stagePlan {stage : Stage} (barrier : stage.isSerial = false)
    (ready : ∀ key, FilledBy run stage key → ∀ other, before other key → ledger.Has other) :
    (run.stagePlan stage).Fills before (FilledBy run stage)
      (fun _ later => Gains (fun _ => True) (FilledBy run stage) ledger later)
      (fun _ later => KeepsWhole ledger later) ledger := by
  rw [stagePlan_eq run barrier]
  refine fills_requiring (steady_keepsWhole ledger)
    (fun _ _ same _ => keepsWhole_of_nothing same) fun start same => ?_
  have ready (chunk : ChunkIndex) (member : chunk ∈ run.indices) (key : Key)
      (written : key ∈ stage.outputs chunk) (other : Key) (earlier : before other key) :
      start.Has other :=
    same.keeps other (ready key (filledBy_of_mem (List.mem_range.mp member) written) other earlier)
  have pool : Flow.Ensures (serving AnyAnswer) (filling before (FilledBy run stage) fun _ => True)
      _ (Flow.ofPool (run.stagePool stage)) start :=
    Flow.ensures_ofPool (compatible_filling before run stage) List.nodup_range
      fun chunk member => (fills_barrierTask barrier (ready chunk member)).task stage
  refine (framed pool).mono ?_
  rintro result later trace ⟨⟨traces, pool, account, idle, stopped, rfl⟩, frames⟩
  cases ended : pool.result with
  | ok summary =>
    obtain ⟨outcomes, finished, -⟩ := account.finished_of_ok List.nodup_range idle ended
    refine same.of_nothing (frames.gains ?_)
    rintro key ⟨present, rfl, inside⟩
    exact (finished key.chunk (List.mem_range.mpr inside)).1.adds key
      (mem_outputs_iff.mpr ⟨rfl, rfl, present⟩)
  | error error =>
    refine (keepsWhole_of_nothing same).trans fun other chunk whole => ?_
    by_cases mine : other = stage ∧ chunk < run.count
    · obtain ⟨rfl, inside⟩ := mine
      rcases account.fate_of_idle idle (List.mem_range.mpr inside) with untouched | ⟨ending, fate⟩
      · exact (gains_of_rely untouched).whole (fun _ => id) (.inr fun _ _ => id) whole
      · cases ending with
        | finished outcome => exact .inl fate.adds
        | failed cause => exact fate.1.whole (fun _ => id) whole
        | panicked => exact fate.1.whole (fun _ => id) whole
    · -- A task of another stage, or of a chunk that is none of the run's.
      have others (key : Key) (written : key ∈ other.outputs chunk) :
          later.Has key ↔ start.Has key := by
        refine MemoryLedger.has_congr (frames.others key fun filled => mine ?_)
        obtain ⟨rfl, rfl, _⟩ := mem_outputs_iff.mp written
        exact filled.2
      exact MemoryLedger.whole_congr others whole

/-! ### The chain -/

/-- Where the chain stops: in a task that fails, or between two chunks. -/
inductive Stopped (count : Nat) (origin : MemoryLedger) : RunError → MemoryLedger → Prop
  | failed {stage : Stage} {chunk : ChunkIndex} {middle later : MemoryLedger} {error : RunError}
      (serial : stage.isSerial = true) (inside : chunk < count)
      (reached : Gains (fun _ => True) (Behind stage chunk) origin middle)
      (fails : Fails (fun _ => True) (stage.outputs chunk) (Blames stage chunk) middle error
        later) :
      Stopped count origin error later
  | cancelled {chunk : ChunkIndex} {later : MemoryLedger} (begun : 0 < chunk)
      (inside : chunk < count)
      (reached : Gains (fun _ => True) (Behind .rebase chunk) origin later) :
      Stopped count origin (.cancelled .rebase) later

theorem Stopped.steady (count : Nat) (origin : MemoryLedger) : Steady (Stopped count origin) := by
  intro error state later same stopped
  cases stopped with
  | failed serial inside reached fails =>
    exact .failed serial inside reached ⟨fails.1.then_nothing same, fails.2⟩
  | cancelled begun inside reached => exact .cancelled begun inside (reached.then_nothing same)

/-- All that comes before the slots of the chain is filled, except for slots of the chain. -/
def Backed (before : Key → Key → Prop) (count : Nat) (ledger : MemoryLedger) : Prop :=
  ∀ key, Chained key → key.chunk < count → ∀ other, before other key →
    ledger.Has other ∨ (Chained other ∧ other.lt key = true)

theorem Backed.ready {count : Nat} (backed : Backed before count origin) {stage : Stage}
    {chunk : ChunkIndex} (serial : stage.isSerial = true) (inside : chunk < count)
    (reached : Gains (fun _ => True) (Behind stage chunk) origin ledger) :
    Ready before stage chunk ledger := by
  intro key written other earlier
  obtain ⟨rfl, rfl, present⟩ := mem_outputs_iff.mp written
  rcases backed key ⟨serial, present⟩ inside other earlier with held | ⟨chained, lt⟩
  · exact .inl (reached.keeps other held)
  · exact (behind_of_lt chained ⟨serial, present⟩ lt).imp (reached.adds other)
      fun again => ⟨again, lt⟩

/-- A job leaves alone what it does not own. -/
theorem Job.Fills.keeps {job : Job α} {statement : α → MemoryLedger → Prop}
    {excuse : RunError → MemoryLedger → Prop} {key : Key}
    (fills : job.Fills before own (fun _ => True) statement excuse ledger) (other : ¬ own key) :
    job.Fills before own (fun _ => True)
      (fun value later => statement value later ∧ later.get? key = ledger.get? key) excuse
      ledger := by
  refine Job.Ensures.and_always fills (fun allowed same => ?_) (fun kept same => ?_) rfl
  · exact ((allowed key).2 trivial).trans same
  · exact ((kept key).resolve_right fun filled => other filled.1).trans same

section Chain

variable {count : Nat} (backed : Backed before count origin)
include backed

/-- **One chunk of the chain**: its rebase, and then its merge. What it hands on is what the ledger
holds. -/
theorem fills_step {chunk : ChunkIndex} (inside : chunk < count) {rebase : Job α}
    {merge : α → Job (Bitstream × Outcome)} {step : α → Bitstream × Outcome → ChainStep}
    {final : α → StateHandle}
    (link : ∀ first second, (step first second).link = ⟨final first, second.1⟩)
    (rebases : ∀ ledger, Ready before .rebase chunk ledger →
      FillsLink before .rebase chunk (fun first later => Paired ledger chunk →
        later.get? ⟨chunk, .rebasedState⟩ = some (.state (final first))) rebase ledger)
    (merges : ∀ value ledger, Ready before .merge chunk ledger →
      FillsLink before .merge chunk
        (fun result later => later.get? ⟨chunk, .merged⟩ = some (.bitstream result.1))
        (merge value) ledger)
    (begun : Gains (fun _ => True) (Behind .rebase chunk) origin ledger) :
    (rebase >>= fun first => merge first >>= fun second => pure (step first second)).Fills before
      Chained (fun _ => True)
      (fun step later => Gains (fun _ => True) (Behind .rebase (chunk + 1)) origin later ∧
        later.get? ⟨chunk, .merged⟩ = some (.bitstream step.link.output) ∧
        (Paired origin chunk →
          later.get? ⟨chunk, .rebasedState⟩ = some (.state step.link.state)))
      (Stopped count origin) ledger := by
  refine Job.Ensures.andThen (((rebases ledger (backed.ready rfl inside begun)).within
    (within_filling (fun _ => chained_of_mem rfl) fun _ => id)).mono
    (fun _ _ => id) fun error later fails => .failed rfl inside begun fails)
    fun first later ⟨gains, state⟩ => ?_
  have reached := begun.trans gains fun _ => behind_merge_iff
  have apart : (⟨chunk, .rebasedState⟩ : Key) ∉ Stage.merge.outputs chunk := by
    simp [Stage.outputs]
  have merges := Job.Fills.keeps (merges first later (backed.ready rfl inside reached)) apart
  refine Job.Ensures.andThen ((merges.within
    (within_filling (fun _ => chained_of_mem rfl) fun _ => id)).mono
    (fun _ _ => id) fun error later fails => .failed rfl inside reached fails) ?_
  rintro second last ⟨⟨gains, held⟩, same⟩
  have reached := reached.trans gains fun _ => behind_next_iff
  refine Job.ensures_pure fun latest more => ⟨reached.then_nothing (gains_of_rely more), ?_⟩
  rw [link]
  refine ⟨get_of_rely held more, fun paired => get_of_rely (same.trans (state ?_)) more⟩
  exact paired.of_gains begun

theorem fills_seed (inside : 0 < count)
    (reached : Gains (fun _ => True) (Behind .rebase 0) origin ledger) :
    run.seed.Fills before Chained (fun _ => True)
      (fun step later => Gains (fun _ => True) (Behind .rebase 1) origin later ∧
        later.get? ⟨0, .merged⟩ = some (.bitstream step.link.output) ∧
        later.get? ⟨0, .rebasedState⟩ = some (.state step.link.state))
      (Stopped count origin) ledger := by
  have takesOver (ledger : MemoryLedger) (ready : Ready before .rebase 0 ledger) :
      FillsLink before .rebase 0 (fun first later => Paired ledger 0 →
        later.get? ⟨0, .rebasedState⟩ = some (.state first.1)) run.takeOverState ledger :=
    (fills_takeOverState ready).mono (fun _ _ holds => ⟨holds.1, fun _ => holds.2⟩) fun _ _ => id
  refine (fills_step backed inside (fun _ _ => rfl) takesOver (fun _ _ => fills_takeOverStream)
    reached).mono (fun _ _ holds => ⟨holds.1, holds.2.1, holds.2.2 ?_⟩) fun _ _ => id
  exact fun later => absurd rfl later

theorem fills_extend {previous : ChunkIndex} (link : Link) (inside : previous + 1 < count)
    (reached : Gains (fun _ => True) (Behind .rebase (previous + 1)) origin ledger) :
    (run.extend previous link).Fills before Chained (fun _ => True)
      (fun step later => Gains (fun _ => True) (Behind .rebase (previous + 2)) origin later ∧
        later.get? ⟨previous + 1, .merged⟩ = some (.bitstream step.link.output) ∧
        (Paired origin (previous + 1) →
          later.get? ⟨previous + 1, .rebasedState⟩ = some (.state step.link.state)))
      (Stopped count origin) ledger :=
  fills_step backed inside (fun _ _ => rfl) (fun _ => fills_rebaseOnto link.state)
    (fun _ _ => fills_mergeOnto _ _) reached

/-- **The chain over the chunks that remain.** -/
theorem fills_chainFrom {previous : ChunkIndex} {remaining : Nat} (link : Link)
    (length : previous + 1 + remaining = count)
    (reached : Gains (fun _ => True) (Behind .rebase (previous + 1)) origin ledger)
    (held : ledger.get? ⟨previous, .merged⟩ = some (.bitstream link.output)) :
    (run.chainFrom previous link remaining).Fills before Chained
      (fun rest later => Gains (fun _ => True) (Behind .rebase count) origin later ∧
        ∀ first : ChainStep, first.link = link →
          later.get? ⟨previous + remaining, .merged⟩ =
            some (.bitstream (rest.getLastD first).link.output))
      (Stopped count origin) ledger := by
  induction remaining generalizing previous link ledger with
  | zero =>
    refine Plan.ensures_pure fun later allowed => ⟨?_, ?_⟩
    · exact length ▸ reached.then_nothing (gains_of_rely allowed)
    · rintro first rfl
      exact get_of_rely held allowed
  | succ remaining ih =>
    have inside : previous + 1 < count := by
      simp only [ChunkIndex] at *
      omega
    refine (fills_checkCancelled .rebase fun later same =>
      .cancelled (Nat.succ_pos previous) inside (reached.then_nothing same)).andThen
      (Stopped.steady count origin) fun _ later same => ?_
    refine (Job.Fills.toPlan (fills_extend backed link inside
      (reached.then_nothing same))).andThen (Stopped.steady count origin)
      fun step final ⟨further, merged, _⟩ => ?_
    refine (ih step.link (by simp only [ChunkIndex] at *; omega) further merged).andThen
      (Stopped.steady count origin) fun rest last ⟨finished, output⟩ => ?_
    refine Plan.ensures_pure fun latest more =>
      ⟨finished.then_nothing (gains_of_rely more), fun first _ => ?_⟩
    rw [List.getLastD_cons, ← Nat.add_assoc, Nat.add_right_comm]
    exact get_of_rely (output step rfl) more

end Chain

/-- **The chain** fills its slots in their order. If it ends well they are all filled, and its
output is what the last of them holds. -/
theorem fills_chain (inside : 0 < run.count) (backed : Backed before run.count ledger) :
    run.chain.Fills before Chained
      (fun result later => Gains (fun _ => True) (Behind .rebase run.count) ledger later ∧
        later.get? ⟨run.count - 1, .merged⟩ = some (.bitstream result.output))
      (Stopped run.count ledger) ledger := by
  have start {later : MemoryLedger} (same : GainsNothing (fun _ => True) ledger later) :
      Gains (fun _ => True) (Behind .rebase 0) ledger later :=
    same.congr fun key => iff_false_intro (not_behind_start key)
  rw [chain_eq]
  refine fills_requiring (Stopped.steady _ _) (fun error later same plain =>
    .failed rfl inside (start (.nothing _ ledger)) ⟨.of_nothing same, .inl plain⟩)
    fun begun same => ?_
  refine (Job.Fills.toPlan (fills_seed backed inside (start same))).andThen (Stopped.steady _ _)
    fun first later ⟨reached, held, _⟩ => ?_
  have length : 0 + 1 + (run.count - 1) = run.count := by
    rw [Nat.zero_add, Nat.add_comm, Nat.sub_add_cancel inside]
  refine (fills_chainFrom backed first.link length reached held).andThen (Stopped.steady _ _)
    fun rest final ⟨finished, output⟩ => ?_
  refine Plan.ensures_pure fun last more => ⟨finished.then_nothing (gains_of_rely more), ?_⟩
  have merged := get_of_rely (output first rfl) more
  rwa [Nat.zero_add] at merged

/-- A part of a run that owns less, as part of one that owns more. -/
theorem Plan.Fills.within {wider : Key → Prop} {statement : α → MemoryLedger → Prop}
    {excuse : RunError → MemoryLedger → Prop} {plan : Plan α}
    (fills : plan.Fills before own statement excuse ledger) (owned : ∀ key, own key → wider key) :
    plan.Fills before wider statement excuse ledger :=
  Plan.Ensures.within fills (within_filling owned fun _ => id)

theorem byTask_behind (stage : Stage) (chunk : ChunkIndex) : ByTask (Behind stage chunk) := by
  intro key other own place present ⟨⟨serial, _⟩, reached⟩
  rw [own] at serial
  rw [own, place] at reached
  exact ⟨⟨serial, present⟩, reached⟩

/-- **Wherever the chain stops**, nothing is half filled. -/
theorem Stopped.keepsWhole {count : Nat} {error : RunError}
    (stopped : Stopped count origin error later) : KeepsWhole origin later := by
  cases stopped with
  | cancelled begun inside reached => exact keepsWhole_of_gains (byTask_behind _ _) reached
  | @failed stage chunk middle _ _ serial inside reached fails =>
    refine (keepsWhole_of_gains (byTask_behind _ _) reached).trans fun other place whole => ?_
    by_cases mine : other = stage ∧ place = chunk
    · obtain ⟨rfl, rfl⟩ := mine
      exact fails.1.whole (fun _ _ => trivial) whole
    · -- The outputs of all other tasks are as they were.
      have others (key : Key) (written : key ∈ other.outputs place) :
          later.Has key ↔ middle.Has key := by
        refine ⟨fun held => (fails.1.only key trivial held).resolve_right fun again => mine ?_,
          fails.1.keeps key⟩
        obtain ⟨rfl, rfl⟩ := Stage.stage_and_chunk_of_mem_outputs written
        exact Stage.stage_and_chunk_of_mem_outputs again
      exact MemoryLedger.whole_congr others whole

/-! ### The whole run -/

/-- **The order in which a run fills its slots.** A slot of the chain comes after all that are less;
and a slot of a barrier stage comes before all that a later stage fills for its own and later
chunks. -/
def Precedes (other key : Key) : Prop :=
  (Chained other ∧ Chained key ∧ other.lt key = true) ∨
    (other.kind.stage.isSerial = false ∧ other.chunk ≤ key.chunk ∧
      other.kind.stage.place < key.kind.stage.place)

/-- What the barrier stages up to a place in the order have filled. -/
def Passed (count place : Nat) (key : Key) : Prop :=
  key ≠ ⟨0, .rebased⟩ ∧ key.kind.stage.place < place ∧ key.chunk < count

/-- One more stage. -/
theorem passed_succ_iff {stage : Stage} {key : Key} :
    Passed run.count (stage.place + 1) key ↔
      Passed run.count stage.place key ∨ FilledBy run stage key := by
  rw [Passed, Passed, FilledBy, Nat.lt_succ_iff_lt_or_eq, Stage.place_injective.eq_iff]
  tauto

/-- What a barrier stage reads was filled by the stages before it. -/
theorem passed_of_mem_barrierInputs {stage : Stage} (barrier : stage.isSerial = false)
    {count : Nat} {key : Key} (read : key ∈ stage.barrierInputs count) :
    Passed count stage.place key := by
  obtain ⟨chunk, inside, read⟩ := Stage.mem_barrierInputs.mp read
  obtain ⟨before, present⟩ := Stage.le_of_mem_inputs read
  exact ⟨present, Stage.place_lt_of_mem_inputs barrier read, Nat.lt_of_le_of_lt before inside⟩

/-- What the chain reads of others was filled by the barrier stages. -/
theorem passed_of_mem_chainInputs {count : Nat} {key : Key} (read : key ∈ chainInputs count) :
    Passed count Stage.barriers.length key := by
  obtain ⟨barrier, chunk, inside, read⟩ := mem_chainInputs.mp read
  obtain ⟨before, present⟩ := read.elim Stage.le_of_mem_inputs Stage.le_of_mem_inputs
  exact ⟨present, Stage.place_lt_iff.mpr barrier, Nat.lt_of_le_of_lt before inside⟩

theorem byTask_passed (count place : Nat) : ByTask (Passed count place) := by
  rintro key other own chunk present ⟨_, earlier, inside⟩
  exact ⟨present, own ▸ earlier, chunk ▸ inside⟩

/-- Barrier stages in the order of execution, one after another. -/
theorem fills_stagePlans {stages : List Stage} (start : Nat)
    (order : stages.map Stage.place = List.range' start stages.length)
    (barriers : ∀ stage ∈ stages, stage.isSerial = false)
    (reached : Gains (fun _ => True) (Passed run.count start) origin ledger) :
    (run.stagePlans stages).Fills Precedes (fun _ => True)
      (fun _ later => Gains (fun _ => True) (Passed run.count (start + stages.length)) origin later)
      (fun _ later => KeepsWhole origin later) ledger := by
  induction stages generalizing start ledger with
  | nil => exact Plan.ensures_pure fun later allowed => reached.then_nothing (gains_of_rely allowed)
  | cons stage rest ih =>
    obtain ⟨rfl, further⟩ := List.cons.inj order
    have barrier := barriers stage List.mem_cons_self
    have ready (key : Key) (mine : FilledBy run stage key) (other : Key)
        (earlier : Precedes other key) : ledger.Has other := by
      obtain ⟨-, rfl, inside⟩ := mine
      rcases earlier with ⟨-, ⟨serial, -⟩, -⟩ | ⟨parallel, place, sooner⟩
      · rw [barrier] at serial
        cases serial
      · refine reached.adds other ⟨?_, sooner, Nat.lt_of_le_of_lt place inside⟩
        rintro rfl
        cases parallel
    have steady := steady_keepsWhole origin
    have whole := keepsWhole_of_gains (byTask_passed _ _) reached
    refine Plan.Fills.andThen (Plan.Ensures.mono ((fills_stagePlan barrier ready).within
      fun _ _ => trivial) (fun _ _ _ => id) fun _ _ kept => whole.trans kept) steady
      fun summary later gains => ?_
    have reached : Gains (fun _ => True) (Passed run.count (stage.place + 1)) origin later :=
      reached.trans gains fun _ => passed_succ_iff
    refine Plan.Fills.andThen (ih (stage.place + 1) further (fun other member =>
      barriers other (List.mem_cons_of_mem _ member)) reached) steady
      fun summaries final finished => ?_
    rw [List.length_cons, Nat.add_comm rest.length, ← Nat.add_assoc]
    exact Plan.ensures_pure fun last more => finished.then_nothing (gains_of_rely more)

/-- After the barrier stages, the chain finds filled what comes before its slots. -/
theorem backed_of_passed {count : Nat}
    (reached : Gains (fun _ => True) (Passed count Stage.barriers.length) origin ledger) :
    Backed Precedes count ledger := by
  rintro key _ inside other (⟨chained, _, lt⟩ | ⟨parallel, place, _⟩)
  · exact .inr ⟨chained, lt⟩
  · refine .inl (reached.adds other ⟨?_, ?_, Nat.lt_of_le_of_lt place inside⟩)
    · rintro rfl
      cases parallel
    · cases stage : other.kind.stage <;> simp_all [Stage.isSerial, Stage.place, Stage.all,
        Stage.barriers]

/-- **A run fills its slots in their order**, and however it ends, it leaves no outputs half filled
that were not so before. -/
theorem fills_plan (run : Run) (ledger : MemoryLedger) :
    run.plan.Fills Precedes (fun _ => True) (fun _ later => KeepsWhole ledger later)
      (fun _ later => KeepsWhole ledger later) ledger := by
  have steady := steady_keepsWhole ledger
  unfold plan
  cases count : run.count with
  | zero =>
    exact Plan.ensures_throw fun later allowed => keepsWhole_of_nothing (gains_of_rely allowed)
  | succ last =>
    have start : Gains (fun _ => True) (Passed run.count 0) ledger ledger :=
      (Gains.nothing _ ledger).congr fun key => by simp [Passed]
    refine (fills_stagePlans 0 rfl (fun stage => Stage.mem_barriers.mp) start).andThen steady
      fun summaries later reached => ?_
    rw [Nat.zero_add] at reached
    have whole := keepsWhole_of_gains (byTask_passed _ _) reached
    refine (fills_checkCancelled .rebase fun final same =>
      whole.trans (keepsWhole_of_nothing same)).andThen steady fun _ middle same => ?_
    have reached := reached.then_nothing same
    have whole := whole.trans (keepsWhole_of_nothing same)
    refine Plan.Fills.andThen (Plan.Ensures.mono ((fills_chain (count ▸ Nat.succ_pos last)
      (backed_of_passed reached)).within fun _ _ => trivial) (fun _ _ _ => id)
      fun _ _ stopped => whole.trans stopped.keepsWhole) steady
      fun chained final ⟨finished, _⟩ => ?_
    have finished := whole.trans (keepsWhole_of_gains (byTask_behind _ _) finished)
    exact Plan.ensures_pure fun latest more =>
      finished.trans (keepsWhole_of_nothing (gains_of_rely more))

end Transcode.Run
