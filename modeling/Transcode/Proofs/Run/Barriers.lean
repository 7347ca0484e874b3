/-
**The barrier stages of a run**, one after another.

* `Blueprint.Standing` says how far a run has come: the slots that are done are filled, and all
  others of the run are vacant.
* A stage whose inputs are done has its outputs done in the end (`delivers_stagePlan`), and the
  barrier stages in their order find their inputs done (`delivers_barriers`).
-/
import Transcode.Proofs.Run.Barrier
import Transcode.Proofs.Run.Stage

namespace Transcode

namespace Stage

/-- The position of the stage in the order of execution. -/
def place (stage : Stage) : Nat :=
  all.idxOf stage

theorem place_injective : Function.Injective place := by
  intro stage other same
  cases stage <;> cases other <;> simp_all [place, all, barriers]

/-- The barrier stages come first. -/
theorem place_lt_iff {stage : Stage} :
    stage.place < barriers.length ↔ stage.isSerial = false := by
  cases stage <;> decide

/-- A task reads slots of no later chunk, all of which some task writes. -/
theorem le_of_mem_inputs {stage : Stage} {chunk : ChunkIndex} {key : Key}
    (read : key ∈ stage.inputs chunk) : key.chunk ≤ chunk ∧ key ≠ ⟨0, .rebased⟩ := by
  cases stage <;> cases chunk <;> simp [inputs] at read <;>
    (try rcases read with rfl | rfl | rfl) <;> simp_all

/-- A task of a barrier stage reads what earlier stages have written. -/
theorem place_lt_of_mem_inputs {stage : Stage} (barrier : stage.isSerial = false)
    {chunk : ChunkIndex} {key : Key} (read : key ∈ stage.inputs chunk) :
    key.kind.stage.place < stage.place := by
  cases stage <;> cases barrier <;> cases chunk <;> simp [inputs] at read <;>
    (try rcases read with rfl | rfl) <;> simp_all [Kind.stage, place, all, barriers]

/-- A barrier stage reads nothing of the chain. -/
theorem isSerial_of_mem_inputs {stage : Stage} (barrier : stage.isSerial = false)
    {chunk : ChunkIndex} {key : Key} (read : key ∈ stage.inputs chunk) :
    key.kind.stage.isSerial = false :=
  place_lt_iff.mp (Nat.lt_trans (place_lt_of_mem_inputs barrier read) (place_lt_iff.mpr barrier))

theorem mem_barrierInputs {stage : Stage} {count : Nat} {key : Key} :
    key ∈ stage.barrierInputs count ↔ ∃ chunk < count, key ∈ stage.inputs chunk := by
  simp [barrierInputs, KeySet.mem_ofList]

end Stage

theorem mem_chainInputs {count : Nat} {key : Key} :
    key ∈ chainInputs count ↔ key.kind.stage.isSerial = false ∧
      ∃ chunk < count, key ∈ Stage.rebase.inputs chunk ∨ key ∈ Stage.merge.inputs chunk := by
  simp only [chainInputs, KeySet.mem_ofList, List.mem_filter, List.mem_append,
    Stage.mem_barrierInputs, Bool.not_eq_true']
  grind

namespace Blueprint

open Run

variable {blueprint : Blueprint} {own reserved : Key → Prop} {ledger : MemoryLedger}

/-! ### Plans -/

/-- What a plan promises: its error is one of the excused ones. -/
abbrev Delivers {α : Type} (blueprint : Blueprint) (own reserved : Key → Prop)
    (statement : α → MemoryLedger → Prop) (plan : Plan α) (ledger : MemoryLedger) : Prop :=
  plan.Ensures blueprint.setting (blueprint.conduct own reserved)
    (fun value later _ => statement value later) (fun error _ => blueprint.excused error) ledger

theorem Delivers.bind {α β : Type} {statement : β → MemoryLedger → Prop} {plan : Plan α}
    {after : α → Plan β}
    (delivers : blueprint.Delivers own reserved
      (fun value later => blueprint.Delivers own reserved statement (after value) later) plan
      ledger) :
    blueprint.Delivers own reserved statement (plan >>= after) ledger :=
  Plan.Ensures.bind (fun _ _ _ _ excused => excused) delivers

/-- A plan followed by another, which goes on from what the first delivers. -/
theorem Delivers.andThen {α β : Type} {statement : α → MemoryLedger → Prop}
    {further : β → MemoryLedger → Prop} {plan : Plan α} {after : α → Plan β}
    (delivers : blueprint.Delivers own reserved statement plan ledger)
    (onward : ∀ value later, statement value later →
      blueprint.Delivers own reserved further (after value) later) :
    blueprint.Delivers own reserved further (plan >>= after) ledger :=
  Delivers.bind (delivers.mono (fun value later _ => onward value later) fun _ _ => id)

theorem delivers_ofJob {α : Type} {statement : α → MemoryLedger → Prop} {job : Job α}
    (promises : blueprint.Promises own reserved statement job ledger) :
    blueprint.Delivers own reserved statement (Plan.ofJob job) ledger :=
  (Plan.ensures_ofJob promises).mono (fun _ _ _ holds => holds.1) fun _ _ excused => excused

/-- Nothing is missing where all that is required is filled. -/
theorem delivers_requiring {α : Type} {statement : α → MemoryLedger → Prop} {required : KeySet}
    {plan : Plan α} (filled : ∀ key ∈ required, blueprint.Filled key (ledger.get? key))
    (present : ∀ key ∈ required, key ≠ ⟨0, .rebased⟩)
    (delivers : ∀ later, (blueprint.conduct own reserved).rely ledger later →
      blueprint.Delivers own reserved statement plan later) :
    blueprint.Delivers own reserved statement (Plan.requiring required plan) ledger :=
  Delivers.bind (delivers_ofJob (promises_firstMissing filled
    (fun key member => (Row.artifact?_isSome _).mpr (present key member)) delivers))

/-! ### How far a run has come -/

/-- **What is done is filled, and all else is vacant**, of the slots of the run. -/
structure Standing (blueprint : Blueprint) (done : Key → Prop) (ledger : MemoryLedger) : Prop where
  filled : ∀ key ∈ runKeys blueprint.run.count, done key →
    blueprint.Filled key (ledger.get? key)
  vacant : ∀ key ∈ runKeys blueprint.run.count, ¬ done key →
    blueprint.Vacant key (ledger.get? key)

/-- The slots of the run, as those that a part of it owns. -/
def slots (blueprint : Blueprint) (key : Key) : Prop :=
  key ∈ runKeys blueprint.run.count

theorem Standing.later {done : Key → Prop} {later : MemoryLedger}
    (standing : blueprint.Standing done ledger)
    (allowed : (blueprint.conduct own blueprint.slots).rely ledger later) :
    blueprint.Standing done later where
  filled key inside finished := (allowed key).1 (standing.filled key inside finished)
  vacant key inside unfinished := (allowed key).2 inside (standing.vacant key inside unfinished)

/-- One more slot is done. -/
theorem Standing.fills {done : Key → Prop} {key : Key} {later : MemoryLedger}
    (standing : blueprint.Standing done ledger)
    (fills : blueprint.Fills blueprint.slots key ledger later) :
    blueprint.Standing (fun other => done other ∨ other = key) later where
  filled other inside finished := by
    rcases finished with finished | rfl
    · exact fills.keeps other (standing.filled other inside finished)
    · exact fills.filled
  vacant other inside unfinished := by
    obtain ⟨before, differs⟩ := not_or.mp unfinished
    exact fills.vacant other inside differs (standing.vacant other inside before)

theorem Standing.congr {done finished : Key → Prop} (standing : blueprint.Standing done ledger)
    (same : ∀ key ∈ runKeys blueprint.run.count, done key ↔ finished key) :
    blueprint.Standing finished ledger where
  filled key inside is := standing.filled key inside ((same key inside).mpr is)
  vacant key inside not := standing.vacant key inside (mt (same key inside).mp not)

/-! ### Stages -/

/-- The slots of the run in one stage. -/
def slotsOf (blueprint : Blueprint) (stage : Stage) (key : Key) : Prop :=
  blueprint.slots key ∧ key.kind.stage = stage

/-- **What other stages write** stands as far as the run had come. -/
def Elsewhere (blueprint : Blueprint) (stage : Stage) (done : Key → Prop)
    (ledger : MemoryLedger) : Prop :=
  ∀ key, blueprint.slots key → key.kind.stage ≠ stage →
    (done key → blueprint.Filled key (ledger.get? key)) ∧
      (¬ done key → blueprint.Vacant key (ledger.get? key))

theorem Standing.elsewhere {done : Key → Prop} (standing : blueprint.Standing done ledger)
    (stage : Stage) : blueprint.Elsewhere stage done ledger :=
  fun key mine _ => ⟨standing.filled key mine, standing.vacant key mine⟩

theorem Elsewhere.later {stage : Stage} {done : Key → Prop} {later : MemoryLedger}
    (elsewhere : blueprint.Elsewhere stage done ledger)
    (allowed : (blueprint.conduct own blueprint.slots).rely ledger later) :
    blueprint.Elsewhere stage done later := fun key mine other =>
  ⟨fun finished => (allowed key).1 ((elsewhere key mine other).1 finished),
    fun unfinished => (allowed key).2 mine ((elsewhere key mine other).2 unfinished)⟩

/-- A stage leaves alone what other stages write. -/
theorem Elsewhere.kept {stage : Stage} {done : Key → Prop} {later : MemoryLedger}
    (elsewhere : blueprint.Elsewhere stage done ledger)
    (kept : (blueprint.conduct (blueprint.slotsOf stage) blueprint.slots).guarantee ledger
      later) : blueprint.Elsewhere stage done later := by
  intro key mine other
  rcases kept key with same | ⟨written, _⟩
  · rw [same]
    exact elsewhere key mine other
  · exact absurd written.2 other

theorem slots_of_mem_outputs {stage : Stage} {chunk : ChunkIndex}
    (below : chunk < blueprint.run.count) {key : Key} (written : key ∈ stage.outputs chunk) :
    blueprint.slots key :=
  mem_runKeys.mpr ⟨stage, chunk, below, written⟩

/-- **Tasks of one stage write slots of their own.** -/
theorem compatible_stage (blueprint : Blueprint) (stage : Stage) :
    (blueprint.conduct (blueprint.slotsOf stage) blueprint.slots).Compatible
      (fun chunk => blueprint.conduct (· ∈ stage.outputs chunk) (· ∈ stage.outputs chunk))
      blueprint.run.indices := by
  constructor
  · intro chunk member
    have below := List.mem_range.mp member
    exact within_conduct (fun key written => ⟨slots_of_mem_outputs below written,
      (Stage.stage_and_chunk_of_mem_outputs written).1⟩)
      fun key written => slots_of_mem_outputs below written
  · intro chunk _ other _ differs ledger later guaranteed
    refine rely_of_guarantee (fun key written again => differs ?_) guaranteed
    exact (Stage.stage_and_chunk_of_mem_outputs written).2.symm.trans
      (Stage.stage_and_chunk_of_mem_outputs again).2

/-- **A barrier stage** whose inputs are done has its outputs done in the end. -/
theorem delivers_stagePlan {stage : Stage} (barrier : stage.isSerial = false) {done : Key → Prop}
    (standing : blueprint.Standing done ledger)
    (ready : ∀ chunk < blueprint.run.count, ∀ key ∈ stage.inputs chunk, done key)
    (fresh : ∀ key, key.kind.stage = stage → ¬ done key) :
    blueprint.Delivers blueprint.slots blueprint.slots
      (fun _ later => blueprint.Standing (fun key => done key ∨ key.kind.stage = stage) later)
      (blueprint.run.stagePlan stage) ledger := by
  have inputs {chunk : ChunkIndex} (below : chunk < blueprint.run.count) {key : Key}
      (read : key ∈ stage.inputs chunk) : blueprint.Filled key (ledger.get? key) := by
    obtain ⟨before, present⟩ := Stage.le_of_mem_inputs read
    exact standing.filled key (mem_runKeys_iff.mpr ⟨Nat.lt_of_le_of_lt before below, present⟩)
      (ready chunk below key read)
  rw [stagePlan_eq _ barrier]
  refine delivers_requiring (fun key required => ?_) (fun key required => ?_) fun start first => ?_
  · obtain ⟨chunk, below, read⟩ := Stage.mem_barrierInputs.mp required
    exact inputs below read
  · obtain ⟨chunk, _, read⟩ := Stage.mem_barrierInputs.mp required
    exact (Stage.le_of_mem_inputs read).2
  have begun := standing.later first
  have pool := Plan.ensures_pool stage (blueprint.compatible_stage stage) List.nodup_range
    fun chunk member => promises_barrierTask barrier (List.mem_range.mp member)
      (fun key read => (first key).1 (inputs (List.mem_range.mp member) read))
      fun key written => begun.vacant key (slots_of_mem_outputs (List.mem_range.mp member) written)
        (fresh key (Stage.stage_and_chunk_of_mem_outputs written).1)
  have both := pool.and_always (fun allowed before => Elsewhere.later before allowed)
    (fun kept before => Elsewhere.kept before kept) (begun.elsewhere stage)
  refine Flow.Ensures.within (Plan.Ensures.mono both ?_ ?_)
    (within_conduct (fun key mine => mine.1) fun key mine => mine)
  · rintro summary later trace ⟨⟨outcomes, traces, finished, -⟩, elsewhere⟩
    refine ⟨fun key mine either => ?_, fun key mine neither => ?_⟩
    · by_cases here : key.kind.stage = stage
      · obtain ⟨below, present⟩ := mem_runKeys_iff.mp mine
        exact (finished key.chunk (List.mem_range.mpr below)).1 key
          (mem_outputs_iff.mpr ⟨here, rfl, present⟩)
      · exact (elsewhere key mine here).1 (either.resolve_right here)
    · obtain ⟨unfinished, other⟩ := not_or.mp neither
      exact (elsewhere key mine other).2 unfinished
  · rintro error later (⟨_, _, excused⟩ | fires)
    · exact excused
    · exact blueprint.interruptible fires error

/-- Stages in the order of execution, one after another. -/
theorem delivers_stagePlans {stages : List Stage} (start : Nat)
    (order : stages.map Stage.place = List.range' start stages.length)
    (barriers : ∀ stage ∈ stages, stage.isSerial = false)
    (standing : blueprint.Standing (fun key => key.kind.stage.place < start) ledger) :
    blueprint.Delivers blueprint.slots blueprint.slots
      (fun _ later => blueprint.Standing
        (fun key => key.kind.stage.place < start + stages.length) later)
      (blueprint.run.stagePlans stages) ledger := by
  induction stages generalizing start ledger with
  | nil => exact Plan.ensures_pure fun later allowed => standing.later allowed
  | cons stage rest ih =>
    obtain ⟨here, later⟩ := List.cons.inj order
    have barrier := barriers stage List.mem_cons_self
    refine (delivers_stagePlan barrier standing (fun chunk _ key read => ?_)
      fun key own => ?_).andThen fun summary final reached => ?_
    · exact here ▸ Stage.place_lt_of_mem_inputs barrier read
    · rw [own, here]
      exact Nat.lt_irrefl start
    · have further : blueprint.Standing (fun key => key.kind.stage.place < start + 1) final :=
        reached.congr fun key _ => by
          rw [Nat.lt_succ_iff_lt_or_eq, ← here, Stage.place_injective.eq_iff]
      refine Delivers.andThen (ih (start + 1) later (fun stage member =>
        barriers stage (List.mem_cons_of_mem _ member)) further) fun summaries last finished => ?_
      rw [List.length_cons, Nat.add_comm rest.length, ← Nat.add_assoc]
      exact Plan.ensures_pure fun latest allowed => finished.later allowed

/-- **The barrier stages**, in their order. -/
theorem delivers_barriers (standing : blueprint.Standing (fun _ => False) ledger) :
    blueprint.Delivers blueprint.slots blueprint.slots
      (fun _ later => blueprint.Standing (fun key => key.kind.stage.isSerial = false) later)
      (blueprint.run.stagePlans Stage.barriers) ledger := by
  refine (delivers_stagePlans 0 rfl (fun stage => Stage.mem_barriers.mp)
    (standing.congr fun key _ => by simp)).mono (fun _ later _ reached => ?_) fun _ _ => id
  refine reached.congr fun key _ => ?_
  cases key.kind <;> simp [Kind.stage, Stage.place, Stage.all, Stage.barriers, Stage.isSerial]

end Blueprint

end Transcode
