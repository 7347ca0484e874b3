/-
**The order in which a run fills its slots**, whatever the codec answers and however far the run
comes.

* `fills_barrierTask` — a task of a barrier stage fills all of its outputs, or fails as its ledger
  or its codec call did and leaves them whole.
* `Behind` are the slots that the chain has filled when it comes to a task. `behind_merge_iff` and
  `behind_next_iff` take it one task further.
* `fills_rebaseOnto` and `fills_mergeOnto` — the tasks of the chain do the same in their turn. What
  a merge hands on is what its slot holds, and so is what a rebase hands on, if its state was not
  there without its stream (`Paired`).
-/
import Transcode.Proofs.Run.Barriers
import Transcode.Proofs.Run.Filling

namespace Transcode.Run

variable {α β : Type} {before : Key → Key → Prop} {own reserved : Key → Prop} {run : Run}
  {ledger middle : MemoryLedger}

/-! ### Tasks -/

/-- What is known after a task has failed. -/
def Fails (reserved : Key → Prop) (outputs : List Key) (blames : RunError → Prop)
    (ledger : MemoryLedger) (error : RunError) (later : MemoryLedger) : Prop :=
  Leaves reserved outputs ledger later ∧ (error.IsPlain ∨ blames error)

/-- The error reports the codec call of a task. The chain makes none for the first chunk. -/
def Blames : Stage → ChunkIndex → RunError → Prop
  | .rebase, chunk, error => chunk ≠ 0 ∧ ∃ cause, error = .rebase chunk cause
  | .merge, chunk, error => chunk ≠ 0 ∧ ∃ cause, error = .merge chunk cause
  | stage, chunk, error => ∃ cause, error = .ofCodec chunk stage cause

section Parts

variable {outputs : List Key} {blames : RunError → Prop}

/-- A task begins with something that fills nothing. -/
theorem Job.Spares.first {job : Job α} {after : α → Job β} {statement : α → MemoryLedger → Prop}
    {further : β → MemoryLedger → Prop}
    (spares : job.Spares before own reserved statement blames middle)
    (reached : GainsNothing reserved ledger middle)
    (onward : ∀ value later, GainsNothing reserved ledger later → statement value later →
      (after value).Fills before own reserved further (Fails reserved outputs blames ledger)
        later) :
    (job >>= after).Fills before own reserved further (Fails reserved outputs blames ledger)
      middle :=
  spares.andThen
    (fun _ _ same reason => ⟨.of_nothing (reached.then_nothing same), reason⟩)
    fun value later same holds => onward value later (reached.then_nothing same) holds

variable {added : Key → Prop} {key : Key} {artifact : Artifact}

/-- **A task stores one of its outputs.** -/
theorem fills_output (output : key ∈ outputs) (fit : artifact.fits key = true) (mine : own key)
    (kept : reserved key) (ready : ∀ other, before other key → ledger.Has other ∨ added other)
    (reached : Gains reserved added ledger middle) (fresh : ¬ added key)
    (within : ∀ other, added other → other ∈ outputs) :
    (run.store key artifact).Fills before own reserved
      (fun _ later => Gains reserved (fun other => added other ∨ other = key) ledger later ∧
        ((run.policy = .resume → ¬ ledger.Has key) → later.get? key = some artifact))
      (Fails reserved outputs blames ledger) middle := by
  have before_iff : middle.Has key ↔ ledger.Has key :=
    (reached.has_iff kept).trans (or_iff_left fresh)
  refine (fills_store fit mine kept fun other earlier =>
    (ready other earlier).elim (reached.keeps other) (reached.adds other)).mono ?_ ?_
  · rintro _ later ⟨gains, held⟩
    rw [before_iff] at held
    exact ⟨reached.trans gains fun _ => Iff.rfl, held⟩
  · rintro error later ⟨same, plain, held⟩
    have reached := reached.then_nothing same
    exact ⟨⟨reached.keeps, fun other kept found =>
      (reached.only other kept found).imp_right (within other),
      .inr ⟨key, output, before_iff.mp held⟩⟩, .inl plain⟩

/-- **A task that looks for its outputs first.** -/
theorem fills_unlessStored {stored made : Job α} {statement : α → MemoryLedger → Prop}
    (kept : ∀ key ∈ outputs, reserved key)
    (takes : ∀ later, GainsNothing reserved ledger later → (∀ key ∈ outputs, ledger.Has key) →
      stored.Fills before own reserved statement (Fails reserved outputs blames ledger) later)
    (makes : ∀ later, GainsNothing reserved ledger later →
      (run.policy = .resume → ∃ key ∈ outputs, ¬ ledger.Has key) →
      made.Fills before own reserved statement (Fails reserved outputs blames ledger) later) :
    (run.canSkip outputs >>= fun skips => if skips then stored else made).Fills before own reserved
      statement (Fails reserved outputs blames ledger) ledger := by
  refine (spares_canSkip kept).first (.nothing reserved ledger) fun skips later same shown => ?_
  cases skips with
  | true =>
    refine takes later same fun key member => ?_
    exact (same.only key (kept key member) ((shown.mp rfl).2 key member)).resolve_right id
  | false =>
    refine makes later same fun resumes => ?_
    by_contra! all
    exact Bool.false_ne_true
      (shown.mpr ⟨resumes, fun key member => same.keeps key (all key member)⟩)

end Parts

/-! ### Barrier stages -/

section Barrier

variable {stage : Stage} {chunk : ChunkIndex}

/-- What a task of a barrier stage does to its outputs. -/
abbrev FillsOutputs (before : Key → Key → Prop) (stage : Stage) (chunk : ChunkIndex)
    (ledger : MemoryLedger) (job : Job α) (middle : MemoryLedger) : Prop :=
  job.Fills before (· ∈ stage.outputs chunk) (· ∈ stage.outputs chunk)
    (fun _ later => Gains (· ∈ stage.outputs chunk) (· ∈ stage.outputs chunk) ledger later)
    (Fails (· ∈ stage.outputs chunk) (stage.outputs chunk) (Blames stage chunk) ledger) middle

/-- A task with a single output. -/
theorem fills_single {key : Key} {artifact : Artifact} (single : stage.outputs chunk = [key])
    (fit : artifact.fits key = true) (ready : ∀ other, before other key → ledger.Has other)
    (reached : GainsNothing (· ∈ stage.outputs chunk) ledger middle) :
    FillsOutputs before stage chunk ledger (run.store key artifact) middle := by
  have mine : key ∈ stage.outputs chunk := by simp [single]
  refine (fills_output mine fit mine mine (fun other earlier => .inl (ready other earlier))
    reached id fun _ => False.elim).mono (fun _ later ⟨gains, _⟩ => gains.congr fun other => ?_)
      fun _ _ => id
  simp [single]

/-- A chunk in one of the lineages. -/
theorem fills_storeLineage {lineage : Lineage} (proper : lineage = .v0 ∨ lineage = .v1)
    (encoded : Encoded)
    (ready : ∀ key ∈ lineage.stage.outputs chunk, ∀ other, before other key → ledger.Has other)
    (reached : GainsNothing (· ∈ lineage.stage.outputs chunk) ledger middle) :
    FillsOutputs before lineage.stage chunk ledger (run.storeLineage lineage chunk encoded)
      middle := by
  obtain ⟨outputs, apart, stream, state⟩ :
      lineage.stage.outputs chunk = [⟨chunk, lineage.stream⟩, ⟨chunk, lineage.state⟩] ∧
        lineage.state ≠ lineage.stream ∧ lineage.stream.payload = .bitstream ∧
        lineage.state.payload = .state := by
    rcases proper with rfl | rfl <;> simp [Lineage.v0, Lineage.v1, Stage.outputs, Kind.payload]
  have first : (⟨chunk, lineage.stream⟩ : Key) ∈ lineage.stage.outputs chunk := by simp [outputs]
  have second : (⟨chunk, lineage.state⟩ : Key) ∈ lineage.stage.outputs chunk := by simp [outputs]
  have streamFits : (Artifact.bitstream encoded.stream).fits ⟨chunk, lineage.stream⟩ = true := by
    simp [Artifact.fits, Artifact.payload, stream]
  have stateFits : (Artifact.state encoded.state).fits ⟨chunk, lineage.state⟩ = true := by
    simp [Artifact.fits, Artifact.payload, state]
  refine Job.Ensures.andThen (fills_output first streamFits first first
    (fun other earlier => .inl (ready _ first other earlier)) reached id fun _ => False.elim) ?_
  rintro _ later ⟨gains, -⟩
  refine (fills_output second stateFits second second
    (fun other earlier => .inl (ready _ second other earlier)) gains ?_ ?_).mono ?_ fun _ _ => id
  · simp [apart]
  · simpa using first
  · rintro _ final ⟨total, -⟩
    exact total.congr fun other => by simp [outputs]

theorem fills_encodeLineage {lineage : Lineage} (proper : lineage = .v0 ∨ lineage = .v1)
    (ready : ∀ key ∈ lineage.stage.outputs chunk, ∀ other, before other key → ledger.Has other)
    (reached : GainsNothing (· ∈ lineage.stage.outputs chunk) ledger middle) :
    FillsOutputs before lineage.stage chunk ledger (run.encodeLineage lineage chunk) middle := by
  cases chunk with
  | zero =>
    refine (spares_bitstream 0 _).first reached fun baseline later reached _ => ?_
    refine (spares_state 0 _).first reached fun state final reached _ => ?_
    exact fills_storeLineage proper _ ready reached
  | succ previous =>
    refine (spares_state previous _).first reached fun predecessor later reached _ => ?_
    refine (spares_bitstream (previous + 1) _).first reached fun predictor final reached _ => ?_
    refine (spares_raw (previous + 1)).first reached fun raw late reached _ => ?_
    refine (spares_codec fun cause => ?_).first reached fun encoded last reached _ => ?_
    · rcases proper with rfl | rfl <;> exact ⟨cause, rfl⟩
    · exact fills_storeLineage proper encoded ready reached

/-- **What a task of a barrier stage computes**, it stores in its slots. -/
theorem fills_compute (barrier : stage.isSerial = false)
    (ready : ∀ key ∈ stage.outputs chunk, ∀ other, before other key → ledger.Has other)
    (reached : GainsNothing (· ∈ stage.outputs chunk) ledger middle) :
    FillsOutputs before stage chunk ledger (run.compute stage chunk) middle := by
  cases stage with
  | baselineEncode =>
    refine (spares_raw chunk).first reached fun raw later reached _ => ?_
    refine (spares_codec fun cause => ⟨cause, rfl⟩).first reached fun stream final reached _ => ?_
    exact fills_single rfl rfl (ready _ (List.mem_singleton_self _)) reached
  | stateExtraction =>
    refine (spares_bitstream chunk _).first reached fun baseline later reached _ => ?_
    refine (spares_codec fun cause => ⟨cause, rfl⟩).first reached fun handle final reached _ => ?_
    exact fills_single rfl rfl (ready _ (List.mem_singleton_self _)) reached
  | encodeGivenStateV0 => exact fills_encodeLineage (.inl rfl) ready reached
  | encodeGivenStateV1 => exact fills_encodeLineage (.inr rfl) ready reached
  | rebase => cases barrier
  | merge => cases barrier

/-- **A task of a barrier stage** fills all of its slots, or fails. -/
theorem fills_barrierTask (barrier : stage.isSerial = false)
    (ready : ∀ key ∈ stage.outputs chunk, ∀ other, before other key → ledger.Has other) :
    FillsOutputs before stage chunk ledger (run.barrierTask stage chunk) ledger := by
  refine fills_unlessStored (fun _ => id) (fun later same filled => ?_) fun later reached _ => ?_
  · exact Job.ensures_pure fun final more =>
      .of_filled (same.then_nothing (gains_of_rely more)) filled
  · refine Job.Ensures.andThen (fills_compute barrier ready reached) fun _ final gains => ?_
    exact Job.ensures_pure fun last more => gains.then_nothing (gains_of_rely more)

end Barrier

/-! ### The chain -/

/-- A slot of the serial chain. -/
def Chained (key : Key) : Prop :=
  key.kind.stage.isSerial = true ∧ key ≠ ⟨0, .rebased⟩

theorem chained_of_mem {stage : Stage} {chunk : ChunkIndex} (serial : stage.isSerial = true)
    {key : Key} (written : key ∈ stage.outputs chunk) : Chained key := by
  obtain ⟨rfl, -, present⟩ := mem_outputs_iff.mp written
  exact ⟨serial, present⟩

/-- The slots that the chain fills before it comes to a task. -/
def Behind (stage : Stage) (chunk : ChunkIndex) (key : Key) : Prop :=
  Chained key ∧
    (key.chunk < chunk ∨ (key.chunk = chunk ∧ key.kind.stage.place < stage.place))

/-- Nothing comes before the first task. -/
theorem not_behind_start (key : Key) : ¬ Behind .rebase 0 key := by
  obtain ⟨place, kind⟩ := key
  cases kind <;> simp [Behind, Chained, Kind.stage, Stage.isSerial, Stage.place, Stage.all,
    Stage.barriers]

theorem behind_merge_iff {chunk : ChunkIndex} {key : Key} :
    Behind .merge chunk key ↔ Behind .rebase chunk key ∨ key ∈ Stage.rebase.outputs chunk := by
  obtain ⟨place, kind⟩ := key
  rw [mem_outputs_iff]
  cases kind <;> simp [Behind, Chained, Kind.stage, Stage.isSerial, Stage.place, Stage.all,
    Stage.barriers]
  grind

theorem behind_next_iff {chunk : ChunkIndex} {key : Key} :
    Behind .rebase (chunk + 1) key ↔ Behind .merge chunk key ∨ key ∈ Stage.merge.outputs chunk := by
  obtain ⟨place, kind⟩ := key
  rw [mem_outputs_iff]
  cases kind <;> simp [Behind, Chained, Kind.stage, Stage.isSerial, Stage.place, Stage.all,
    Stage.barriers, ChunkIndex] <;> grind

/-- In the order of keys, the chain has filled what comes first before it comes to a slot, except
for another output of the same task. -/
theorem behind_of_lt {key other : Key} (chained : Chained other) (slot : Chained key)
    (earlier : other.lt key = true) :
    Behind key.kind.stage key.chunk other ∨ other ∈ key.kind.stage.outputs key.chunk := by
  obtain ⟨place, kind⟩ := key
  obtain ⟨spot, sort⟩ := other
  rw [Key.lt_iff] at earlier
  rw [mem_outputs_iff]
  revert chained slot earlier
  cases kind <;> cases sort <;> simp [Behind, Chained, Kind.stage, Kind.rank, Stage.isSerial,
    Stage.place, Stage.all, Stage.barriers, ChunkIndex] <;> grind

/-- What a task of the chain does to its outputs, from a ledger in which it begins. -/
abbrev FillsLink (before : Key → Key → Prop) (stage : Stage) (chunk : ChunkIndex)
    (statement : α → MemoryLedger → Prop) (job : Job α) (ledger : MemoryLedger) : Prop :=
  job.Fills before (· ∈ stage.outputs chunk) (fun _ => True)
    (fun value later => Gains (fun _ => True) (· ∈ stage.outputs chunk) ledger later ∧
      statement value later)
    (Fails (fun _ => True) (stage.outputs chunk) (Blames stage chunk) ledger) ledger

/-- What comes before an output of a task is filled, or is an earlier output of it. -/
def Ready (before : Key → Key → Prop) (stage : Stage) (chunk : ChunkIndex)
    (ledger : MemoryLedger) : Prop :=
  ∀ key ∈ stage.outputs chunk, ∀ other, before other key →
    ledger.Has other ∨ (other ∈ stage.outputs chunk ∧ other.lt key = true)

/-- The final state of a chunk is there only together with its rebased stream. The first chunk has
no such stream. -/
def Paired (ledger : MemoryLedger) (chunk : ChunkIndex) : Prop :=
  chunk ≠ 0 → ledger.Has ⟨chunk, .rebasedState⟩ → ledger.Has ⟨chunk, .rebased⟩

/-- What the chain has filled before it comes to a chunk breaks up no pair there. -/
theorem Paired.of_gains {origin : MemoryLedger} {chunk : ChunkIndex} (paired : Paired origin chunk)
    (reached : Gains (fun _ => True) (Behind .rebase chunk) origin ledger) :
    Paired ledger chunk := by
  intro later held
  have ahead : ¬ Behind .rebase chunk ⟨chunk, .rebasedState⟩ := by
    simp [Behind, Kind.stage]
  exact reached.keeps _ (paired later ((reached.only _ trivial held).resolve_right ahead))

section Links

variable {stage : Stage} {chunk previous : ChunkIndex}

theorem get_of_rely {key : Key} {later : MemoryLedger} {held : Option Artifact}
    (found : ledger.get? key = held)
    (allowed : (filling before own fun _ => True).rely ledger later) :
    later.get? key = held :=
  ((allowed key).2 trivial).trans found

/-- A task of the chain with a single output stores it in the end. -/
theorem fills_linkStore {key : Key} {artifact : Artifact} {value : α}
    {statement : α → MemoryLedger → Prop} (single : stage.outputs chunk = [key])
    (fit : artifact.fits key = true) (ready : Ready before stage chunk ledger)
    (reached : GainsNothing (fun _ => True) ledger middle)
    (vacant : run.policy = .resume → ∃ key ∈ stage.outputs chunk, ¬ ledger.Has key)
    (holds : ∀ later, later.get? key = some artifact → statement value later) :
    (run.store key artifact >>= fun _ => pure value).Fills before (· ∈ stage.outputs chunk)
      (fun _ => True)
      (fun value later => Gains (fun _ => True) (· ∈ stage.outputs chunk) ledger later ∧
        statement value later)
      (Fails (fun _ => True) (stage.outputs chunk) (Blames stage chunk) ledger) middle := by
  have mine : key ∈ stage.outputs chunk := by simp [single]
  refine Job.Ensures.andThen (fills_output mine fit mine trivial (fun other earlier => ?_)
    reached id fun _ => False.elim) fun _ later ⟨gains, held⟩ => ?_
  · refine (ready key mine other earlier).elim .inl fun ⟨again, lt⟩ => ?_
    rw [single, List.mem_singleton] at again
    exact absurd (again ▸ lt) key.lt_irrefl
  · refine Job.ensures_pure fun final more => ⟨?_, holds final (get_of_rely (held ?_) more)⟩
    · exact (gains.then_nothing (gains_of_rely more)).congr fun other => by simp [single]
    · intro resumes
      obtain ⟨other, member, absent⟩ := vacant resumes
      rw [single, List.mem_singleton] at member
      exact member ▸ absent

/-- **The first chunk's state** is the one that the second lineage left. -/
theorem fills_takeOverState (ready : Ready before .rebase 0 ledger) :
    FillsLink before .rebase 0
      (fun result later => later.get? ⟨0, .rebasedState⟩ = some (.state result.1))
      run.takeOverState ledger := by
  refine fills_unlessStored (fun _ _ => trivial) (fun later same filled => ?_)
    fun later reached vacant => ?_
  · refine (spares_state 0 _).first same fun state final same held => ?_
    exact Job.ensures_pure fun last more =>
      ⟨.of_filled (same.then_nothing (gains_of_rely more)) filled,
        get_of_rely (held trivial) more⟩
  · refine (spares_state 0 _).first reached fun state final reached _ => ?_
    exact fills_linkStore rfl rfl ready reached vacant fun _ => id

/-- **The first chunk's stream** opens the output. -/
theorem fills_takeOverStream (ready : Ready before .merge 0 ledger) :
    FillsLink before .merge 0
      (fun result later => later.get? ⟨0, .merged⟩ = some (.bitstream result.1))
      run.takeOverStream ledger := by
  refine fills_unlessStored (fun _ _ => trivial) (fun later same filled => ?_)
    fun later reached vacant => ?_
  · refine (spares_bitstream 0 _).first same fun output final same held => ?_
    exact Job.ensures_pure fun last more =>
      ⟨.of_filled (same.then_nothing (gains_of_rely more)) filled,
        get_of_rely (held trivial) more⟩
  · refine (spares_bitstream 0 _).first reached fun output final reached _ => ?_
    exact fills_linkStore rfl rfl ready reached vacant fun _ => id

/-- **A chunk is rebased**: first its stream is stored, then its state. -/
theorem fills_rebaseOnto (newState : StateHandle)
    (ready : Ready before .rebase (previous + 1) ledger) :
    FillsLink before .rebase (previous + 1)
      (fun result later => Paired ledger (previous + 1) →
        later.get? ⟨previous + 1, .rebasedState⟩ = some (.state result.1.state))
      (run.rebaseOnto previous newState) ledger := by
  refine fills_unlessStored (fun _ _ => trivial) (fun later same filled => ?_)
    fun later reached vacant => ?_
  · refine (spares_bitstream _ _).first same fun stream final same _ => ?_
    refine (spares_state _ _).first same fun state last same held => ?_
    exact Job.ensures_pure fun latest more =>
      ⟨.of_filled (same.then_nothing (gains_of_rely more)) filled,
        fun _ => get_of_rely (held trivial) more⟩
  · have stream : (⟨previous + 1, .rebased⟩ : Key) ∈ Stage.rebase.outputs (previous + 1) := by
      simp [Stage.outputs]
    have state : (⟨previous + 1, .rebasedState⟩ : Key) ∈ Stage.rebase.outputs (previous + 1) := by
      simp [Stage.outputs]
    refine (spares_state _ _).first reached fun oldState final reached _ => ?_
    refine (spares_bitstream _ _).first reached fun predictor final reached _ => ?_
    refine (spares_raw _).first reached fun raw final reached _ => ?_
    refine (spares_codec fun cause => ⟨Nat.succ_ne_zero previous, cause, rfl⟩).first reached
      fun encoded final reached _ => ?_
    refine Job.Ensures.andThen (fills_output stream rfl stream trivial
      (fun other earlier => ?_) reached id fun _ => False.elim) ?_
    · refine (ready _ stream other earlier).imp_right ?_
      rintro ⟨again, lt⟩
      rcases List.mem_pair.mp again with rfl | rfl <;> simp [Key.lt, Kind.rank] at lt
    rintro _ last ⟨gains, -⟩
    refine Job.Ensures.andThen (fills_output state rfl state trivial
      (fun other earlier => ?_) gains ?_ ?_) ?_
    · refine (ready _ state other earlier).imp_right ?_
      rintro ⟨again, lt⟩
      rcases List.mem_pair.mp again with rfl | rfl
      · exact .inr rfl
      · exact absurd lt (Key.lt_irrefl _)
    · simp
    · simpa using stream
    rintro _ latest ⟨total, held⟩
    refine Job.ensures_pure fun end' more => ⟨?_, fun paired => get_of_rely (held ?_) more⟩
    · exact (total.then_nothing (gains_of_rely more)).congr fun other => by simp [Stage.outputs]
    · intro resumes found
      obtain ⟨key, written, absent⟩ := vacant resumes
      rcases List.mem_pair.mp written with rfl | rfl
      · exact absent (paired (Nat.succ_ne_zero previous) found)
      · exact absent found

/-- **A chunk is merged** to the output so far. -/
theorem fills_mergeOnto (output rebased : Bitstream)
    (ready : Ready before .merge (previous + 1) ledger) :
    FillsLink before .merge (previous + 1)
      (fun result later => later.get? ⟨previous + 1, .merged⟩ = some (.bitstream result.1))
      (run.mergeOnto (previous + 1) output rebased) ledger := by
  refine fills_unlessStored (fun _ _ => trivial) (fun later same filled => ?_)
    fun later reached vacant => ?_
  · refine (spares_bitstream _ _).first same fun merged final same held => ?_
    exact Job.ensures_pure fun last more =>
      ⟨.of_filled (same.then_nothing (gains_of_rely more)) filled,
        get_of_rely (held trivial) more⟩
  · refine (spares_codec fun cause => ⟨Nat.succ_ne_zero previous, cause, rfl⟩).first reached
      fun merged final reached _ => ?_
    exact fills_linkStore rfl rfl ready reached vacant fun _ => id

end Links

end Transcode.Run
