/-
**Tasks that cannot fail.** Where the codec answers every call, a task that finds its inputs stored
ends well and leaves its outputs stored.

* `tending` is the conduct of a part of a run that fills slots of its own with what belongs there,
  and `Reaches` says what it has filled so far.
* A task is `Prepared` if its chunk is one of the run's, all stored artifacts are of the right kind,
  the inputs that barrier stages have made are stored, and a strict run finds its outputs vacant.
* `supplies_barrierTask` — a prepared task of a barrier stage fills all its outputs, whatever other
  tasks of the stage do. `succeeds_seed` and `succeeds_extend` say so of the chain over one chunk.
-/
import Transcode.Proofs.Run.Advance

namespace Transcode.Run

variable {α β : Type} {own reserved added : Key → Prop} {run : Run}
  {origin ledger later : MemoryLedger}

/-- The codec answers the call. -/
def NeverFails (call : Codec.Call) (answer : call.Answer) : Prop :=
  ∃ value, answer = .ok value

/-! ### Conduct -/

/-- Filling slots of one's own, and only with what belongs there. -/
def tending (own reserved : Key → Prop) : Conduct MemoryLedger where
  rely ledger later := (filling (fun _ _ => False) own reserved).rely ledger later ∧
    (ledger.Typed → later.Typed)
  guarantee ledger later := (filling (fun _ _ => False) own reserved).guarantee ledger later ∧
    (ledger.Typed → later.Typed)
  rely_refl _ := ⟨Conduct.rely_refl _ _, id⟩
  rely_trans first second := ⟨Conduct.rely_trans _ first.1 second.1, second.2 ∘ first.2⟩
  guarantee_refl _ := ⟨Conduct.guarantee_refl _ _, id⟩

theorem within_tending {wider larger : Key → Prop} (owned : ∀ key, own key → wider key)
    (kept : ∀ key, reserved key → larger key) :
    (tending own reserved).Within (tending wider larger) where
  rely allowed := ⟨(within_filling owned kept).rely allowed.1, allowed.2⟩
  guarantee guaranteed := ⟨(within_filling owned kept).guarantee guaranteed.1, guaranteed.2⟩

/-- What one part fills is nothing to another that it is not reserved for. -/
theorem rely_of_tending {mine kept : Key → Prop} (apart : ∀ key, own key → ¬ kept key)
    (guaranteed : (tending own reserved).guarantee ledger later) :
    (tending mine kept).rely ledger later :=
  ⟨rely_of_filling apart guaranteed.1, guaranteed.2⟩

/-- Tasks of one stage fill slots of their own. -/
theorem compatible_tending (run : Run) (stage : Stage) :
    (tending (FilledBy run stage) fun _ => True).Compatible
      (fun chunk => tending (· ∈ stage.outputs chunk) (· ∈ stage.outputs chunk))
      run.indices := by
  constructor
  · exact fun chunk member => within_tending
      (fun key written => filledBy_of_mem (List.mem_range.mp member) written) fun _ _ => trivial
  · intro chunk _ other _ differs ledger later guaranteed
    refine rely_of_tending (fun key written again => differs ?_) guaranteed
    exact (Stage.stage_and_chunk_of_mem_outputs written).2.symm.trans
      (Stage.stage_and_chunk_of_mem_outputs again).2

/-- **What has been filled** since a part of a run began, in a ledger that holds what belongs
there. -/
structure Reaches (reserved added : Key → Prop) (origin ledger : MemoryLedger) : Prop extends
    Gains reserved added origin ledger where
  typed : ledger.Typed

theorem Reaches.after (reached : Reaches reserved added origin ledger)
    (allowed : (tending own reserved).rely ledger later) : Reaches reserved added origin later :=
  ⟨reached.toGains.then_nothing (gains_of_rely allowed.1), allowed.2 reached.typed⟩

theorem Reaches.congr {more : Key → Prop} (reached : Reaches reserved added origin ledger)
    (same : ∀ key, more key ↔ added key) : Reaches reserved more origin ledger :=
  ⟨reached.toGains.congr same, reached.typed⟩

theorem Reaches.trans {middle : MemoryLedger} {more total : Key → Prop}
    (first : Reaches reserved added ledger middle) (second : Reaches reserved more middle later)
    (sum : ∀ key, total key ↔ added key ∨ more key) : Reaches reserved total ledger later :=
  ⟨first.toGains.trans second.toGains sum, second.typed⟩

/-- What a part of a run promises that cannot fail. -/
abbrev Job.Succeeds (own reserved : Key → Prop) (statement : α → MemoryLedger → Prop) (job : Job α)
    (ledger : MemoryLedger) : Prop :=
  job.Ensures (Serves NeverFails) (tending own reserved) statement (fun _ _ => False) ledger

/-! ### Looking -/

/-- A ledger operation that leaves the ledger as it is, and has an answer. -/
theorem succeeds_look {op : Ledger.Op} {read : op.Answer → Except RunError α} {holds : α → Prop}
    (reached : Reaches reserved added origin ledger)
    (looks : ∀ later : MemoryLedger, (later.answer op).2 = later)
    (answers : ∀ later, Reaches reserved added origin later →
      ∃ value, read (later.answer op).1 = .ok value ∧ holds value) :
    (Job.interpret op read).Succeeds own reserved
      (fun value later => Reaches reserved added origin later ∧ holds value) ledger := by
  refine Job.ensures_interpret fun later allowed service serves => ?_
  rw [serves.change, serves.ledger, looks]
  refine ⟨Conduct.guarantee_refl _ later, fun final more => ?_⟩
  obtain ⟨value, told, shown⟩ := answers later (reached.after allowed)
  rw [told]
  exact ⟨(reached.after allowed).after more, shown⟩

/-- **A stored artifact is read**, and is what belongs in its slot. -/
theorem succeeds_read {key : Key} {read : Artifact → Except LedgerError α}
    (reached : Reaches reserved added origin ledger) (held : origin.Has key ∨ added key)
    (fine : ∀ artifact, artifact.fits key = true → ∃ value, read artifact = .ok value) :
    (do
      let artifact ← Job.ledger (.get key)
      Job.ofExcept ((read artifact).mapError RunError.ofLedger)).Succeeds own reserved
        (fun _ later => Reaches reserved added origin later) ledger := by
  have got : (Job.ledger (.get key)).Succeeds own reserved
      (fun artifact later => Reaches reserved added origin later ∧
        (artifact : Artifact).fits key = true) ledger := by
    refine succeeds_look reached (fun _ => rfl) fun later reached => ?_
    obtain ⟨artifact, found⟩ :=
      MemoryLedger.has_iff_exists.mp (held.elim (reached.keeps key) (reached.adds key))
    exact ⟨artifact, by rw [MemoryLedger.answer_get_of_some found]; rfl,
      reached.typed key artifact found⟩
  refine got.andThen fun artifact later ⟨reached, fit⟩ => ?_
  obtain ⟨value, told⟩ := fine artifact fit
  exact Job.ensures_ok (by rw [told]; rfl) fun final more => reached.after more

theorem succeeds_bitstream {chunk : ChunkIndex} {kind : Kind} (payload : kind.payload = .bitstream)
    (reached : Reaches reserved added origin ledger)
    (held : origin.Has ⟨chunk, kind⟩ ∨ added ⟨chunk, kind⟩) :
    (bitstream chunk kind).Succeeds own reserved
      (fun _ later => Reaches reserved added origin later) ledger := by
  refine succeeds_read reached held fun artifact fit => ?_
  cases artifact with
  | bitstream stream => exact ⟨stream, rfl⟩
  | state handle => simp [Artifact.fits, Artifact.payload, payload] at fit

theorem succeeds_state {chunk : ChunkIndex} {kind : Kind} (payload : kind.payload = .state)
    (reached : Reaches reserved added origin ledger)
    (held : origin.Has ⟨chunk, kind⟩ ∨ added ⟨chunk, kind⟩) :
    (state chunk kind).Succeeds own reserved
      (fun _ later => Reaches reserved added origin later) ledger := by
  refine succeeds_read reached held fun artifact fit => ?_
  cases artifact with
  | bitstream stream => simp [Artifact.fits, Artifact.payload, payload] at fit
  | state handle => exact ⟨handle, rfl⟩

theorem succeeds_raw {chunk : ChunkIndex} (inside : chunk < run.count)
    (reached : Reaches reserved added origin ledger) :
    (Job.ofExcept (run.raw chunk)).Succeeds own reserved
      (fun _ later => Reaches reserved added origin later) ledger := by
  have found : run.raw chunk = .ok run.chunks[chunk] := by
    rw [raw, List.getElem?_eq_getElem inside]
  exact Job.ensures_ok found fun later allowed => reached.after allowed

theorem succeeds_codec {call : Codec.Call} {blame : CodecError → RunError}
    (reached : Reaches reserved added origin ledger) :
    (Job.codec call blame).Succeeds own reserved
      (fun _ later => Reaches reserved added origin later) ledger := by
  refine Job.ensures_codec fun later allowed service serves => ?_
  rw [serves.quiet]
  refine ⟨Conduct.guarantee_refl _ later, fun final more => ?_⟩
  obtain ⟨value, told⟩ := serves.codec call later
  rw [told]
  exact (reached.after allowed).after more

/-- Slots that are looked at one after another are found only if all are filled. -/
theorem succeeds_allStored {keys : List Key} (kept : ∀ key ∈ keys, reserved key)
    (reached : Reaches reserved added origin ledger) :
    (allStored keys).Succeeds own reserved
      (fun found later => Reaches reserved added origin later ∧
        (found = true → ∀ key ∈ keys, origin.Has key ∨ added key)) ledger := by
  induction keys generalizing ledger with
  | nil =>
    refine Job.ensures_pure fun later allowed => ⟨reached.after allowed, fun _ key member => ?_⟩
    exact absurd member List.not_mem_nil
  | cons key rest ih =>
    obtain ⟨here, others⟩ := List.forall_mem_cons.mp kept
    have first : (Job.ledger (.contains key)).Succeeds own reserved
        (fun found later => Reaches reserved added origin later ∧
          (found = true → origin.Has key ∨ added key)) ledger :=
      succeeds_look reached (fun _ => rfl) fun later reached =>
        ⟨_, rfl, fun found => reached.only key here found⟩
    refine first.andThen fun found later ⟨reached, shown⟩ => ?_
    cases found with
    | false =>
      exact Job.ensures_pure fun final more => ⟨reached.after more, fun never => by cases never⟩
    | true =>
      refine (ih others reached).mono (fun found final ⟨reached, all⟩ => ⟨reached, fun yes => ?_⟩)
        fun _ _ => id
      exact List.forall_mem_cons.mpr ⟨shown rfl, all yes⟩

theorem succeeds_canSkip {keys : List Key} (kept : ∀ key ∈ keys, reserved key)
    (reached : Reaches reserved added origin ledger) :
    (run.canSkip keys).Succeeds own reserved
      (fun skips later => Reaches reserved added origin later ∧
        (skips = true → ∀ key ∈ keys, origin.Has key ∨ added key)) ledger := by
  unfold canSkip
  split
  · exact succeeds_allStored kept reached
  · exact Job.ensures_pure fun later allowed => ⟨reached.after allowed, fun never => by cases never⟩

/-- Nothing is missing where all that is required is filled. -/
theorem succeeds_firstMissing {required : KeySet}
    (reached : Reaches reserved added origin ledger) (held : ∀ key ∈ required, origin.Has key) :
    (firstMissing required).Succeeds own reserved
      (fun found later => Reaches reserved added origin later ∧ found = none) ledger := by
  have existing : (Job.ledger .keys).Succeeds own reserved
      (fun existing later => Reaches reserved added origin later ∧
        required.firstMissing existing = none) ledger := by
    refine succeeds_look reached (fun _ => rfl) fun later reached => ⟨later.keys, rfl, ?_⟩
    refine List.find?_eq_none.mpr fun key member => ?_
    have found : key ∈ later.keys :=
      MemoryLedger.mem_keys.mpr (reached.keeps key (held key member))
    simp [found]
  refine existing.andThen fun existing later ⟨reached, nothing⟩ => ?_
  exact Job.ensures_pure fun final more => ⟨reached.after more, nothing⟩

/-! ### Storing -/

/-- **An artifact is stored** that belongs in its slot, which a strict run must find vacant. -/
theorem succeeds_store {key : Key} {artifact : Artifact} (fit : artifact.fits key = true)
    (mine : own key) (kept : reserved key) (reached : Reaches reserved added origin ledger)
    (vacant : run.policy = .strict → ¬ origin.Has key) (fresh : ¬ added key) :
    (run.store key artifact).Succeeds own reserved
      (fun _ later => Reaches reserved (fun other => added other ∨ other = key) origin later)
      ledger := by
  have guaranteed (later : MemoryLedger) :
      (tending own reserved).guarantee later (later.insert key artifact) :=
    ⟨guarantee_insert mine (fun _ => False.elim) artifact, fun typed => typed.insert fit⟩
  have stores {later final : MemoryLedger} (reached : Reaches reserved added origin later)
      (more : (tending own reserved).rely (later.insert key artifact) final) :
      Reaches reserved (fun other => added other ∨ other = key) origin final :=
    ⟨reached.toGains.trans (gains_insert (Conduct.rely_refl _ later) more.1) fun _ => Iff.rfl,
      more.2 (reached.typed.insert fit)⟩
  have taken {later : MemoryLedger} (reached : Reaches reserved added origin later)
      (held : later.Has key) :
      Reaches reserved (fun other => added other ∨ other = key) origin later :=
    ⟨reached.toGains.trans (.of_filled (.nothing reserved later) (by rintro _ rfl; exact held))
      fun _ => Iff.rfl, reached.typed⟩
  unfold store
  split
  · refine Job.ensures_interpret fun later allowed service serves => ?_
    rw [serves.change, serves.ledger, MemoryLedger.answer_overwrite fit]
    exact ⟨guaranteed later, fun final more => stores (reached.after allowed) more⟩
  · next strict =>
    refine Job.ensures_interpret fun later allowed service serves => ?_
    rw [serves.change, serves.ledger]
    have reached := reached.after allowed
    cases held : later.get? key with
    | none =>
      rw [MemoryLedger.answer_put_of_none fit held]
      exact ⟨guaranteed later, fun final more => stores reached more⟩
    | some other =>
      -- A strict run has found the slot vacant, and nobody else fills it.
      have found : later.Has key := MemoryLedger.has_iff_exists.mpr ⟨other, held⟩
      exact ((reached.only key kept found).elim (vacant strict) fresh).elim
  · refine Job.ensures_interpret fun later allowed service serves => ?_
    rw [serves.change, serves.ledger]
    have reached := reached.after allowed
    cases held : later.get? key with
    | none =>
      rw [MemoryLedger.answer_put_of_none fit held]
      exact ⟨guaranteed later, fun final more => stores reached more⟩
    | some other =>
      rw [MemoryLedger.answer_put_of_some fit held]
      refine ⟨Conduct.guarantee_refl _ later, fun final more => ?_⟩
      exact (taken reached (MemoryLedger.has_iff_exists.mpr ⟨other, held⟩)).after more

/-! ### Tasks -/

/-- **What a task needs** so that it cannot fail. -/
structure Prepared (run : Run) (stage : Stage) (chunk : ChunkIndex) (ledger : MemoryLedger) :
    Prop where
  inside : chunk < run.count
  typed : ledger.Typed
  inputs : ∀ key ∈ stage.inputs chunk, key.kind.stage.isSerial = false → ledger.Has key
  vacant : run.policy = .strict → ∀ key ∈ stage.outputs chunk, ¬ ledger.Has key

/-- Nothing has been filled yet. -/
theorem Prepared.begun {stage : Stage} {chunk : ChunkIndex}
    (prepared : Prepared run stage chunk ledger) :
    Reaches reserved (fun _ => False) ledger ledger :=
  ⟨.nothing reserved ledger, prepared.typed⟩

/-- A task is still prepared after slots were filled that are not its own. -/
theorem Prepared.after {stage : Stage} {chunk : ChunkIndex}
    (prepared : Prepared run stage chunk ledger) (reached : Reaches reserved added ledger later)
    (kept : ∀ key ∈ stage.outputs chunk, reserved key)
    (apart : ∀ key ∈ stage.outputs chunk, ¬ added key) : Prepared run stage chunk later where
  inside := prepared.inside
  typed := reached.typed
  inputs key read early := reached.keeps key (prepared.inputs key read early)
  vacant strict key output held :=
    (reached.only key (kept key output) held).elim (prepared.vacant strict key output)
      (apart key output)

/-- The task of a stage for a chunk succeeds, and fills its outputs. -/
abbrev Supplies (own reserved : Key → Prop) (stage : Stage) (chunk : ChunkIndex)
    (ledger : MemoryLedger) (job : Job α) (middle : MemoryLedger) : Prop :=
  job.Succeeds own reserved (fun _ later => Reaches reserved (· ∈ stage.outputs chunk) ledger later)
    middle

section Tasks

variable {stage : Stage} {chunk previous : ChunkIndex}
  (mine : ∀ key ∈ stage.outputs chunk, own key) (kept : ∀ key ∈ stage.outputs chunk, reserved key)

include kept in
/-- A task that looks for its outputs first. -/
theorem supplies_unlessStored {stored made : Job α} (prepared : Prepared run stage chunk ledger)
    (takes : ∀ later, Reaches reserved (fun _ => False) ledger later →
      (∀ key ∈ stage.outputs chunk, ledger.Has key) →
      stored.Succeeds own reserved
        (fun _ final => Reaches reserved (fun _ => False) ledger final) later)
    (makes : ∀ later, Reaches reserved (fun _ => False) ledger later →
      Supplies own reserved stage chunk ledger made later) :
    Supplies own reserved stage chunk ledger
      (run.canSkip (stage.outputs chunk) >>= fun skips => if skips then stored else made)
      ledger := by
  refine Job.Ensures.andThen (succeeds_canSkip kept prepared.begun) ?_
  rintro skips later ⟨reached, shown⟩
  cases skips with
  | false => exact makes later reached
  | true =>
    have filled (key : Key) (member : key ∈ stage.outputs chunk) : ledger.Has key :=
      (shown rfl key member).resolve_right id
    refine (takes later reached filled).mono (fun _ final reached => ?_) fun _ _ => id
    exact ⟨.of_filled reached.toGains filled, reached.typed⟩

include mine kept in
/-- A task stores one of its outputs. -/
theorem supplies_part {key : Key} {artifact : Artifact} (output : key ∈ stage.outputs chunk)
    (fit : artifact.fits key = true) (prepared : Prepared run stage chunk ledger)
    (reached : Reaches reserved added ledger later) (fresh : ¬ added key) :
    (run.store key artifact).Succeeds own reserved
      (fun _ final => Reaches reserved (fun other => added other ∨ other = key) ledger final)
      later :=
  succeeds_store fit (mine key output) (kept key output) reached
    (fun strict => prepared.vacant strict key output) fresh

include mine kept in
/-- A task with a single output stores it. -/
theorem supplies_single {key : Key} {artifact : Artifact} (single : stage.outputs chunk = [key])
    (fit : artifact.fits key = true) (prepared : Prepared run stage chunk ledger)
    (reached : Reaches reserved (fun _ => False) ledger later) :
    Supplies own reserved stage chunk ledger (run.store key artifact) later := by
  refine (supplies_part mine kept (by simp [single]) fit prepared reached id).mono ?_ fun _ _ => id
  exact fun _ final reached => reached.congr fun other => by simp [single]

include mine kept in
/-- A task with two outputs stores the second. -/
theorem supplies_second {first second : Key} {artifact : Artifact}
    (pair : stage.outputs chunk = [first, second]) (apart : second ≠ first)
    (fit : artifact.fits second = true) (prepared : Prepared run stage chunk ledger)
    (reached : Reaches reserved (fun other => False ∨ other = first) ledger later) :
    Supplies own reserved stage chunk ledger (run.store second artifact) later := by
  refine (supplies_part mine kept (by simp [pair]) fit prepared reached ?_).mono ?_ fun _ _ => id
  · simpa using apart
  · exact fun _ final reached => reached.congr fun other => by simp [pair]

/-- It does not matter what a task makes of its value. -/
theorem Supplies.value {job : Job α} {make : α → β}
    (supplies : Supplies own reserved stage chunk ledger job later) :
    Supplies own reserved stage chunk ledger (job >>= fun value => pure (make value)) later :=
  Job.Ensures.andThen supplies fun _ _ reached =>
    Job.ensures_pure fun _ more => reached.after more

/-! ### Barrier stages -/

include mine kept in
/-- Both outputs of a lineage are stored. -/
theorem supplies_storeLineage {lineage : Lineage} (proper : lineage = .v0 ∨ lineage = .v1)
    (same : lineage.stage = stage) (encoded : Encoded) (prepared : Prepared run stage chunk ledger)
    (reached : Reaches reserved (fun _ => False) ledger later) :
    Supplies own reserved stage chunk ledger (run.storeLineage lineage chunk encoded) later := by
  subst same
  obtain ⟨outputs, apart, stream, state⟩ :
      lineage.stage.outputs chunk = [⟨chunk, lineage.stream⟩, ⟨chunk, lineage.state⟩] ∧
        lineage.state ≠ lineage.stream ∧ lineage.stream.payload = .bitstream ∧
        lineage.state.payload = .state := by
    rcases proper with rfl | rfl <;> simp [Lineage.v0, Lineage.v1, Stage.outputs, Kind.payload]
  refine Job.Ensures.andThen (supplies_part mine kept (by simp [outputs])
    (by simp [Artifact.fits, Artifact.payload, stream]) prepared reached id)
    fun _ final reached => ?_
  exact supplies_second mine kept outputs (by simp [apart])
    (by simp [Artifact.fits, Artifact.payload, state]) prepared reached

include mine kept in
/-- A chunk in one of the lineages. -/
theorem supplies_encodeLineage {lineage : Lineage} (proper : lineage = .v0 ∨ lineage = .v1)
    (same : lineage.stage = stage) (prepared : Prepared run stage chunk ledger)
    (reached : Reaches reserved (fun _ => False) ledger later) :
    Supplies own reserved stage chunk ledger (run.encodeLineage lineage chunk) later := by
  cases chunk with
  | zero =>
    obtain ⟨baseline, state⟩ : ledger.Has ⟨0, .baseline⟩ ∧ ledger.Has ⟨0, .decodeState⟩ := by
      rcases proper with rfl | rfl <;> subst same <;>
        exact ⟨prepared.inputs _ (by simp [Lineage.v0, Lineage.v1, Stage.inputs]) rfl,
          prepared.inputs _ (by simp [Lineage.v0, Lineage.v1, Stage.inputs]) rfl⟩
    refine (succeeds_bitstream rfl reached (.inl baseline)).andThen fun stream middle reached => ?_
    refine (succeeds_state rfl reached (.inl state)).andThen fun handle final reached => ?_
    exact supplies_storeLineage mine kept proper same _ prepared reached
  | succ previous =>
    obtain ⟨payload, predecessor, baseline⟩ : lineage.predecessor.payload = .state ∧
        ledger.Has ⟨previous, lineage.predecessor⟩ ∧ ledger.Has ⟨previous + 1, .baseline⟩ := by
      rcases proper with rfl | rfl <;> subst same <;>
        exact ⟨rfl, prepared.inputs _ (by simp [Lineage.v0, Lineage.v1, Stage.inputs]) rfl,
          prepared.inputs _ (by simp [Lineage.v0, Lineage.v1, Stage.inputs]) rfl⟩
    refine (succeeds_state payload reached (.inl predecessor)).andThen
      fun handle middle reached => ?_
    refine (succeeds_bitstream rfl reached (.inl baseline)).andThen fun stream middle reached => ?_
    refine (succeeds_raw prepared.inside reached).andThen fun raw middle reached => ?_
    refine (succeeds_codec reached).andThen fun encoded final reached => ?_
    exact supplies_storeLineage mine kept proper same encoded prepared reached

include mine kept in
/-- **What a task of a barrier stage computes**, it stores. -/
theorem supplies_compute (barrier : stage.isSerial = false)
    (prepared : Prepared run stage chunk ledger)
    (reached : Reaches reserved (fun _ => False) ledger later) :
    Supplies own reserved stage chunk ledger (run.compute stage chunk) later := by
  have input {key : Key} (read : key ∈ stage.inputs chunk)
      (early : key.kind.stage.isSerial = false) : ledger.Has key ∨ False :=
    .inl (prepared.inputs key read early)
  cases stage with
  | baselineEncode =>
    refine (succeeds_raw prepared.inside reached).andThen fun raw middle reached => ?_
    refine (succeeds_codec reached).andThen fun stream final reached => ?_
    exact supplies_single mine kept rfl rfl prepared reached
  | stateExtraction =>
    refine (succeeds_bitstream rfl reached (input (by simp [Stage.inputs]) rfl)).andThen
      fun baseline middle reached => ?_
    refine (succeeds_codec reached).andThen fun handle final reached => ?_
    exact supplies_single mine kept rfl rfl prepared reached
  | encodeGivenStateV0 => exact supplies_encodeLineage mine kept (.inl rfl) rfl prepared reached
  | encodeGivenStateV1 => exact supplies_encodeLineage mine kept (.inr rfl) rfl prepared reached
  | rebase => cases barrier
  | merge => cases barrier

include mine kept in
/-- **A prepared task of a barrier stage** succeeds and leaves its outputs filled. -/
theorem supplies_barrierTask (barrier : stage.isSerial = false)
    (prepared : Prepared run stage chunk ledger) :
    Supplies own reserved stage chunk ledger (run.barrierTask stage chunk) ledger := by
  refine supplies_unlessStored kept prepared (fun later reached _ => ?_) fun later reached => ?_
  · exact Job.ensures_pure fun _ more => reached.after more
  · exact (supplies_compute mine kept barrier prepared reached).value

end Tasks

/-! ### The chain -/

/-- The slots that the chain fills for a chunk. -/
def Linked (chunk : ChunkIndex) (key : Key) : Prop :=
  key ∈ Stage.rebase.outputs chunk ∨ key ∈ Stage.merge.outputs chunk

section Chain

variable {chunk previous : ChunkIndex} (mine : ∀ key, Linked chunk key → own key)
  (kept : ∀ key, Linked chunk key → reserved key)

theorem supplies_takeOverState (mine : ∀ key, Linked 0 key → own key)
    (kept : ∀ key, Linked 0 key → reserved key) (prepared : Prepared run .rebase 0 ledger) :
    Supplies own reserved .rebase 0 ledger run.takeOverState ledger := by
  refine supplies_unlessStored (fun key output => kept key (.inl output)) prepared
    (fun later reached filled => ?_) fun later reached => ?_
  · refine (succeeds_state rfl reached (.inl (filled _ (List.mem_singleton_self _)))).andThen
      fun handle final reached => ?_
    exact Job.ensures_pure fun _ more => reached.after more
  · refine (succeeds_state rfl reached (.inl (prepared.inputs _ (List.mem_singleton_self _)
      rfl))).andThen fun handle final reached => ?_
    exact (supplies_single (fun key output => mine key (.inl output))
      (fun key output => kept key (.inl output)) rfl rfl prepared reached).value

theorem supplies_takeOverStream (mine : ∀ key, Linked 0 key → own key)
    (kept : ∀ key, Linked 0 key → reserved key) (prepared : Prepared run .merge 0 ledger) :
    Supplies own reserved .merge 0 ledger run.takeOverStream ledger := by
  refine supplies_unlessStored (fun key output => kept key (.inr output)) prepared
    (fun later reached filled => ?_) fun later reached => ?_
  · refine (succeeds_bitstream rfl reached (.inl (filled _ (List.mem_singleton_self _)))).andThen
      fun stream final reached => ?_
    exact Job.ensures_pure fun _ more => reached.after more
  · refine (succeeds_bitstream rfl reached (.inl (prepared.inputs _ (List.mem_singleton_self _)
      rfl))).andThen fun stream final reached => ?_
    exact (supplies_single (fun key output => mine key (.inr output))
      (fun key output => kept key (.inr output)) rfl rfl prepared reached).value

/-- **A chunk is rebased**: first its stream is stored, then its state. -/
theorem supplies_rebaseOnto (mine : ∀ key, Linked (previous + 1) key → own key)
    (kept : ∀ key, Linked (previous + 1) key → reserved key) (newState : StateHandle)
    (prepared : Prepared run .rebase (previous + 1) ledger) :
    Supplies own reserved .rebase (previous + 1) ledger (run.rebaseOnto previous newState)
      ledger := by
  have mine (key : Key) (output : key ∈ Stage.rebase.outputs (previous + 1)) : own key :=
    mine key (.inl output)
  have kept (key : Key) (output : key ∈ Stage.rebase.outputs (previous + 1)) : reserved key :=
    kept key (.inl output)
  refine supplies_unlessStored kept prepared (fun later reached filled => ?_)
    fun later reached => ?_
  · refine (succeeds_bitstream rfl reached (.inl (filled _ (by simp [Stage.outputs])))).andThen
      fun stream middle reached => ?_
    refine (succeeds_state rfl reached (.inl (filled _ (by simp [Stage.outputs])))).andThen
      fun handle final reached => ?_
    exact Job.ensures_pure fun _ more => reached.after more
  · have input {key : Key} (read : key ∈ Stage.rebase.inputs (previous + 1))
        (early : key.kind.stage.isSerial = false) : ledger.Has key ∨ False :=
      .inl (prepared.inputs key read early)
    refine (succeeds_state rfl reached (input (by simp [Stage.inputs]) rfl)).andThen
      fun oldState middle reached => ?_
    refine (succeeds_bitstream rfl reached (input (by simp [Stage.inputs]) rfl)).andThen
      fun predictor middle reached => ?_
    refine (succeeds_raw prepared.inside reached).andThen fun raw middle reached => ?_
    refine (succeeds_codec reached).andThen fun encoded final reached => ?_
    refine Job.Ensures.andThen (supplies_part mine kept (by simp [Stage.outputs]) rfl prepared
      reached id) fun _ last reached => ?_
    exact (supplies_second mine kept rfl (by simp) rfl prepared reached).value

/-- **A chunk is merged** to the output so far. -/
theorem supplies_mergeOnto (mine : ∀ key, Linked chunk key → own key)
    (kept : ∀ key, Linked chunk key → reserved key) (output rebased : Bitstream)
    (prepared : Prepared run .merge chunk ledger) :
    Supplies own reserved .merge chunk ledger (run.mergeOnto chunk output rebased) ledger := by
  have mine (key : Key) (output : key ∈ Stage.merge.outputs chunk) : own key :=
    mine key (.inr output)
  have kept (key : Key) (output : key ∈ Stage.merge.outputs chunk) : reserved key :=
    kept key (.inr output)
  refine supplies_unlessStored kept prepared (fun later reached filled => ?_)
    fun later reached => ?_
  · refine (succeeds_bitstream rfl reached (.inl (filled _ (List.mem_singleton_self _)))).andThen
      fun merged final reached => ?_
    exact Job.ensures_pure fun _ more => reached.after more
  · refine (succeeds_codec reached).andThen fun merged final reached => ?_
    exact (supplies_single mine kept rfl rfl prepared reached).value

include kept in
/-- **One chunk of the chain**: its rebase, and then its merge. -/
theorem succeeds_step {rebase : Job α} {merge : α → Job (Bitstream × Outcome)}
    {step : α → Bitstream × Outcome → ChainStep} (prepared : Prepared run .merge chunk ledger)
    (rebases : Supplies own reserved .rebase chunk ledger rebase ledger)
    (merges : ∀ value later, Prepared run .merge chunk later →
      Supplies own reserved .merge chunk later (merge value) later) :
    (rebase >>= fun first => merge first >>= fun second => pure (step first second)).Succeeds own
      reserved (fun _ later => Reaches reserved (Linked chunk) ledger later) ledger := by
  refine Job.Ensures.andThen rebases fun first later rebased => ?_
  have next : Prepared run .merge chunk later := by
    refine prepared.after rebased (fun key output => kept key (.inr output))
      fun key output again => ?_
    cases (Stage.stage_and_chunk_of_mem_outputs output).1.symm.trans
      (Stage.stage_and_chunk_of_mem_outputs again).1
  refine Job.Ensures.andThen (merges first later next) fun second final merged => ?_
  exact Job.ensures_pure fun last more => (rebased.trans merged fun _ => Iff.rfl).after more

/-- **The first chunk of the chain.** -/
theorem succeeds_seed (mine : ∀ key, Linked 0 key → own key)
    (kept : ∀ key, Linked 0 key → reserved key) (rebase : Prepared run .rebase 0 ledger)
    (merge : Prepared run .merge 0 ledger) :
    run.seed.Succeeds own reserved (fun _ later => Reaches reserved (Linked 0) ledger later)
      ledger :=
  succeeds_step kept merge (supplies_takeOverState mine kept rebase)
    fun _ _ => supplies_takeOverStream mine kept

/-- **Every other chunk of the chain.** -/
theorem succeeds_extend (mine : ∀ key, Linked (previous + 1) key → own key)
    (kept : ∀ key, Linked (previous + 1) key → reserved key) (link : Link)
    (rebase : Prepared run .rebase (previous + 1) ledger)
    (merge : Prepared run .merge (previous + 1) ledger) :
    (run.extend previous link).Succeeds own reserved
      (fun _ later => Reaches reserved (Linked (previous + 1)) ledger later) ledger :=
  succeeds_step kept merge (supplies_rebaseOnto mine kept link.state rebase)
    fun _ _ => supplies_mergeOnto mine kept _ _

end Chain

end Transcode.Run
