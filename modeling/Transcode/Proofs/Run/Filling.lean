/-
**Filling slots in order.** Which slots a run has filled at any moment depends neither on what the
ledger holds nor on what the codec answers, but on how far the run has come.

* `filling` is the conduct of a part of a run that fills slots of its own, each only once those
  `before` it are filled, and to which the slots reserved for it stay as they are.
* `Gains` compares what is filled at two moments.
* `fills_store`, `fills_canSkip` and the reading lemmas are the single actions of a run; each of
  them either does what it is to do, or fails in a plain way and fills nothing.
* A task that fails has filled nothing, or has found one of its slots taken (`Leaves`), so it leaves
  no outputs half filled that were not half filled before (`Leaves.whole`).
-/
import Transcode.Proofs.Run.Additions

namespace Transcode

/-! ### What has been filled -/

/-- What has been filled between two moments. -/
structure Gains (reserved added : Key → Prop) (ledger later : MemoryLedger) : Prop where
  keeps : ∀ key, ledger.Has key → later.Has key
  adds : ∀ key, added key → later.Has key
  only : ∀ key, reserved key → later.Has key → ledger.Has key ∨ added key

/-- Nothing of what is reserved. -/
abbrev GainsNothing (reserved : Key → Prop) (ledger later : MemoryLedger) : Prop :=
  Gains reserved (fun _ => False) ledger later

/-- Either all of the slots are filled or none is. -/
def MemoryLedger.Whole (ledger : MemoryLedger) (keys : List Key) : Prop :=
  (∀ key ∈ keys, ledger.Has key) ∨ ∀ key ∈ keys, ¬ ledger.Has key

theorem MemoryLedger.whole_congr {ledger later : MemoryLedger} {keys : List Key}
    (same : ∀ key ∈ keys, later.Has key ↔ ledger.Has key) (whole : ledger.Whole keys) :
    later.Whole keys :=
  whole.imp (fun all key member => (same key member).mpr (all key member))
    fun none key member => mt (same key member).mp (none key member)

namespace Gains

variable {reserved added more total : Key → Prop} {ledger middle later : MemoryLedger}

theorem nothing (reserved : Key → Prop) (ledger : MemoryLedger) :
    GainsNothing reserved ledger ledger :=
  ⟨fun _ => id, fun _ => False.elim, fun _ _ => .inl⟩

theorem trans (first : Gains reserved added ledger middle)
    (second : Gains reserved more middle later)
    (sum : ∀ key, total key ↔ added key ∨ more key) : Gains reserved total ledger later where
  keeps key held := second.keeps key (first.keeps key held)
  adds key gained :=
    ((sum key).mp gained).elim (fun early => second.keeps key (first.adds key early))
      (second.adds key)
  only key kept held := by
    rcases second.only key kept held with before | late
    · exact (first.only key kept before).imp_right fun early => (sum key).mpr (.inl early)
    · exact .inr ((sum key).mpr (.inr late))

theorem then_nothing (first : Gains reserved added ledger middle)
    (second : GainsNothing reserved middle later) : Gains reserved added ledger later :=
  first.trans second fun _ => (or_iff_left id).symm

theorem of_nothing (first : GainsNothing reserved ledger middle)
    (second : Gains reserved added middle later) : Gains reserved added ledger later :=
  first.trans second fun _ => (or_iff_right id).symm

/-- What was filled before is no gain. -/
theorem of_filled (same : GainsNothing reserved ledger later)
    (filled : ∀ key, added key → ledger.Has key) : Gains reserved added ledger later where
  keeps := same.keeps
  adds key gained := same.keeps key (filled key gained)
  only key kept held := .inl ((same.only key kept held).resolve_right id)

theorem congr (gains : Gains reserved added ledger later)
    (same : ∀ key, more key ↔ added key) : Gains reserved more ledger later :=
  funext (fun key => propext (same key)) ▸ gains

theorem has_iff (gains : Gains reserved added ledger later) {key : Key} (kept : reserved key) :
    later.Has key ↔ ledger.Has key ∨ added key :=
  ⟨gains.only key kept, fun held => held.elim (gains.keeps key) (gains.adds key)⟩

/-- Where all of the slots are gained or none is, they are still whole. -/
theorem whole (gains : Gains reserved added ledger later) {keys : List Key}
    (kept : ∀ key ∈ keys, reserved key)
    (together : (∀ key ∈ keys, added key) ∨ ∀ key ∈ keys, ¬ added key)
    (whole : ledger.Whole keys) : later.Whole keys := by
  rcases together with all | none
  · exact .inl fun key member => gains.adds key (all key member)
  · refine whole.imp (fun held key member => gains.keeps key (held key member)) ?_
    exact fun absent key member held =>
      (gains.only key (kept key member) held).elim (absent key member) (none key member)

end Gains

/-- A task that failed has filled none of its outputs, or has found one of them filled. -/
structure Leaves (reserved : Key → Prop) (outputs : List Key) (ledger later : MemoryLedger) :
    Prop where
  keeps : ∀ key, ledger.Has key → later.Has key
  only : ∀ key, reserved key → later.Has key → ledger.Has key ∨ key ∈ outputs
  nothing : GainsNothing reserved ledger later ∨ ∃ key ∈ outputs, ledger.Has key

namespace Leaves

variable {reserved : Key → Prop} {outputs : List Key} {ledger middle later : MemoryLedger}

theorem of_nothing (gains : GainsNothing reserved ledger later) :
    Leaves reserved outputs ledger later :=
  ⟨gains.keeps, fun key kept held => .inl ((gains.only key kept held).resolve_right id),
    .inl gains⟩

theorem then_nothing (leaves : Leaves reserved outputs ledger middle)
    (gains : GainsNothing reserved middle later) : Leaves reserved outputs ledger later where
  keeps key held := gains.keeps key (leaves.keeps key held)
  only key kept held := leaves.only key kept ((gains.only key kept held).resolve_right id)
  nothing := leaves.nothing.imp_left (·.then_nothing gains)

/-- **A failed task leaves nothing half done** that was not half done before. -/
theorem whole (leaves : Leaves reserved outputs ledger later)
    (kept : ∀ key ∈ outputs, reserved key) (whole : ledger.Whole outputs) :
    later.Whole outputs := by
  rcases leaves.nothing with gains | ⟨key, member, held⟩
  · exact gains.whole kept (.inr fun _ _ => id) whole
  · refine .inl fun other inside => leaves.keeps other ?_
    exact whole.elim (fun all => all other inside) fun none => absurd held (none key member)

end Leaves

/-- An error that reports neither a codec call nor an interruption. -/
def RunError.IsPlain : RunError → Prop
  | .codec .. | .rebase .. | .merge .. | .cancelled _ => False
  | _ => True

theorem RunError.isPlain_ofLedger (error : LedgerError) : (RunError.ofLedger error).IsPlain := by
  cases error <;> trivial

namespace Run

variable {α β : Type}

/-! ### Conduct -/

/-- Filling slots of one's own, each only once those before it are filled. -/
def filling (before : Key → Key → Prop) (own reserved : Key → Prop) : Conduct MemoryLedger where
  rely ledger later := ∀ key,
    (ledger.Has key → later.Has key) ∧ (reserved key → later.get? key = ledger.get? key)
  guarantee ledger later := ∀ key, later.get? key = ledger.get? key ∨
    (own key ∧ later.Has key ∧ ∀ other, before other key → ledger.Has other)
  rely_refl _ _ := ⟨id, fun _ => rfl⟩
  rely_trans first second key :=
    ⟨fun held => (second key).1 ((first key).1 held),
      fun kept => ((second key).2 kept).trans ((first key).2 kept)⟩
  guarantee_refl _ _ := .inl rfl

variable {before : Key → Key → Prop} {own reserved : Key → Prop} {run : Run}
  {ledger middle later : MemoryLedger}

theorem within_filling {wider larger : Key → Prop} (owned : ∀ key, own key → wider key)
    (kept : ∀ key, reserved key → larger key) :
    (filling before own reserved).Within (filling before wider larger) where
  rely allowed key := ⟨(allowed key).1, fun mine => (allowed key).2 (kept key mine)⟩
  guarantee guaranteed key := (guaranteed key).imp_right (And.imp_left (owned key))

/-- What was filled stays filled. -/
theorem has_of_guarantee (guaranteed : (filling before own reserved).guarantee ledger later)
    {key : Key} (held : ledger.Has key) : later.Has key :=
  (guaranteed key).elim (fun same => (MemoryLedger.has_congr same).mpr held)
    fun filled => filled.2.1

/-- What one part fills is nothing to another that it is not reserved for. -/
theorem rely_of_filling {mine kept : Key → Prop} (apart : ∀ key, own key → ¬ kept key)
    (guaranteed : (filling before own reserved).guarantee ledger later) :
    (filling before mine kept).rely ledger later := by
  refine fun key => ⟨has_of_guarantee guaranteed, fun needed => ?_⟩
  exact (guaranteed key).resolve_right fun filled => apart key filled.1 needed

theorem gains_of_rely (allowed : (filling before own reserved).rely ledger later) :
    GainsNothing reserved ledger later where
  keeps key := (allowed key).1
  adds _ := False.elim
  only key kept held := .inl ((MemoryLedger.has_congr ((allowed key).2 kept)).mp held)

/-- What a part of a run promises that fills its slots in order. -/
abbrev Job.Fills (before : Key → Key → Prop) (own reserved : Key → Prop)
    (statement : α → MemoryLedger → Prop) (excuse : RunError → MemoryLedger → Prop) (job : Job α)
    (ledger : MemoryLedger) : Prop :=
  job.Ensures (Serves AnyAnswer) (filling before own reserved) statement excuse ledger

/-! ### Looking -/

/-- The job fills nothing, whether it succeeds or fails. -/
abbrev Job.Spares (before : Key → Key → Prop) (own reserved : Key → Prop)
    (statement : α → MemoryLedger → Prop) (blames : RunError → Prop) (job : Job α)
    (ledger : MemoryLedger) : Prop :=
  job.Fills before own reserved
    (fun value later => GainsNothing reserved ledger later ∧ statement value later)
    (fun error later => GainsNothing reserved ledger later ∧ (error.IsPlain ∨ blames error)) ledger

/-- A ledger operation that leaves the ledger as it is. -/
theorem spares_look {op : Ledger.Op} {read : op.Answer → Except RunError α}
    {statement : α → MemoryLedger → Prop} {blames : RunError → Prop}
    (looks : ∀ later : MemoryLedger, (later.answer op).2 = later)
    (plain : ∀ (later : MemoryLedger) error, read (later.answer op).1 = .error error →
      error.IsPlain)
    (holds : ∀ later final value, (filling before own reserved).rely ledger later →
      (filling before own reserved).rely later final → read (later.answer op).1 = .ok value →
      statement value final) :
    (Job.interpret op read).Spares before own reserved statement blames ledger := by
  refine Job.ensures_interpret fun later allowed service serves => ?_
  rw [serves.change, serves.ledger, looks]
  refine ⟨(filling before own reserved).guarantee_refl later, fun final more => ?_⟩
  have same := gains_of_rely ((filling before own reserved).rely_trans allowed more)
  cases result : read (later.answer op).1 with
  | ok value => exact ⟨same, holds later final value allowed more result⟩
  | error error => exact ⟨same, .inl (plain later error result)⟩

theorem spares_ofExcept {result : Except RunError α} {statement : α → MemoryLedger → Prop}
    {blames : RunError → Prop} (plain : ∀ error, result = .error error → error.IsPlain)
    (holds : ∀ later value, (filling before own reserved).rely ledger later →
      result = .ok value → statement value later) :
    (Job.ofExcept result).Spares before own reserved statement blames ledger := by
  intro later allowed
  cases result with
  | ok value => exact ⟨gains_of_rely allowed, holds later value allowed rfl⟩
  | error error => exact ⟨gains_of_rely allowed, .inl (plain error rfl)⟩

theorem spares_raw {blames : RunError → Prop} (chunk : ChunkIndex) :
    (Job.ofExcept (run.raw chunk)).Spares before own reserved (fun _ _ => True) blames ledger := by
  refine spares_ofExcept (fun error failed => ?_) fun _ _ _ _ => trivial
  unfold raw at failed
  split at failed
  · cases failed
  · cases failed
    trivial

theorem spares_codec {call : Codec.Call} {blame : CodecError → RunError}
    {blames : RunError → Prop} (blamed : ∀ cause, blames (blame cause)) :
    (Job.codec call blame).Spares before own reserved (fun _ _ => True) blames ledger := by
  refine Job.ensures_codec fun later allowed service serves => ?_
  rw [serves.quiet]
  refine ⟨(filling before own reserved).guarantee_refl later, fun final more => ?_⟩
  have same := gains_of_rely ((filling before own reserved).rely_trans allowed more)
  cases ((service.reply (.codec call) later).answer : call.Answer) with
  | ok value => exact ⟨same, trivial⟩
  | error cause => exact ⟨same, .inr (blamed cause)⟩

/-- What a failed ledger operation turns into is plain. -/
theorem isPlain_of_mapError {γ : Type} {result : Except LedgerError γ} {error : RunError}
    (failed : result.mapError RunError.ofLedger = .error error) : error.IsPlain := by
  cases result with
  | ok value => cases failed
  | error cause =>
    cases failed
    exact RunError.isPlain_ofLedger cause

theorem spares_get {blames : RunError → Prop} (key : Key) :
    (Job.ledger (.get key)).Spares before own reserved
      (fun artifact later => reserved key → later.get? key = some artifact) blames ledger := by
  refine spares_look (fun _ => rfl) (fun _ _ failed => isPlain_of_mapError failed) ?_
  intro later final artifact _ more found kept
  rw [(more key).2 kept]
  cases held : later.get? key with
  | none => simp [MemoryLedger.answer, MemoryLedger.get, held, Except.mapError] at found
  | some other =>
    rw [MemoryLedger.answer_get_of_some held] at found
    exact congrArg some (Except.ok.inj found)

/-- **A job that fills nothing**, and then another. -/
theorem Job.Spares.andThen {job : Job α} {after : α → Job β} {statement : α → MemoryLedger → Prop}
    {blames : RunError → Prop} {further : β → MemoryLedger → Prop}
    {excuse : RunError → MemoryLedger → Prop}
    (spares : job.Spares before own reserved statement blames ledger)
    (excused : ∀ error later, GainsNothing reserved ledger later →
      error.IsPlain ∨ blames error → excuse error later)
    (onward : ∀ value later, GainsNothing reserved ledger later → statement value later →
      (after value).Fills before own reserved further excuse later) :
    (job >>= after).Fills before own reserved further excuse ledger :=
  Job.Ensures.bind (Job.Ensures.mono spares
    (fun value later holds => onward value later holds.1 holds.2)
    fun error later failed => excused error later failed.1 failed.2)

/-- What a job spares later on, it spares from the beginning. -/
theorem Job.Spares.since {job : Job α} {statement : α → MemoryLedger → Prop}
    {blames : RunError → Prop}
    (spares : job.Spares before own reserved statement blames middle)
    (same : GainsNothing reserved ledger middle) :
    job.Fills before own reserved
      (fun value later => GainsNothing reserved ledger later ∧ statement value later)
      (fun error later => GainsNothing reserved ledger later ∧ (error.IsPlain ∨ blames error))
      middle :=
  Job.Ensures.mono spares (fun _ _ holds => ⟨same.then_nothing holds.1, holds.2⟩)
    fun _ _ failed => ⟨same.then_nothing failed.1, failed.2⟩

theorem spares_bitstream {blames : RunError → Prop} (chunk : ChunkIndex) (kind : Kind) :
    (bitstream chunk kind).Spares before own reserved
      (fun stream later =>
        reserved ⟨chunk, kind⟩ → later.get? ⟨chunk, kind⟩ = some (.bitstream stream))
      blames ledger := by
  refine (spares_get ⟨chunk, kind⟩).andThen (fun _ _ same plain => ⟨same, plain⟩)
    fun artifact later same found => ?_
  refine Job.Spares.since
    (spares_ofExcept (fun error failed => isPlain_of_mapError failed) ?_) same
  intro final stream more read kept
  rw [(more _).2 kept, found kept]
  cases artifact with
  | bitstream other =>
    cases read
    rfl
  | state handle => cases read

theorem spares_state {blames : RunError → Prop} (chunk : ChunkIndex) (kind : Kind) :
    (state chunk kind).Spares before own reserved
      (fun handle later =>
        reserved ⟨chunk, kind⟩ → later.get? ⟨chunk, kind⟩ = some (.state handle))
      blames ledger := by
  refine (spares_get ⟨chunk, kind⟩).andThen (fun _ _ same plain => ⟨same, plain⟩)
    fun artifact later same found => ?_
  refine Job.Spares.since
    (spares_ofExcept (fun error failed => isPlain_of_mapError failed) ?_) same
  intro final handle more read kept
  rw [(more _).2 kept, found kept]
  cases artifact with
  | bitstream stream => cases read
  | state other =>
    cases read
    rfl

theorem spares_contains {blames : RunError → Prop} {key : Key} (kept : reserved key) :
    (Job.ledger (.contains key)).Spares before own reserved
      (fun found later => found = true ↔ later.Has key) blames ledger := by
  refine spares_look (fun _ => rfl) (fun _ _ failed => by cases failed) ?_
  intro later final found _ more answer
  cases answer
  exact (MemoryLedger.has_congr ((more key).2 kept)).symm

/-- Slots that are looked at one after another are all found exactly if all are filled. -/
theorem spares_allStored {blames : RunError → Prop} {keys : List Key}
    (kept : ∀ key ∈ keys, reserved key) :
    (allStored keys).Spares before own reserved
      (fun found later => found = true ↔ ∀ key ∈ keys, later.Has key) blames ledger := by
  induction keys generalizing ledger with
  | nil => exact Job.ensures_pure fun later allowed => ⟨gains_of_rely allowed, by simp⟩
  | cons key rest ih =>
    refine (spares_contains (kept key List.mem_cons_self)).andThen
      (fun _ _ same plain => ⟨same, plain⟩) fun found later same shown => ?_
    cases found with
    | false =>
      refine Job.ensures_pure fun final more => ⟨same.then_nothing (gains_of_rely more), ?_⟩
      have absent : ¬ final.Has key := by
        rw [MemoryLedger.has_congr ((more key).2 (kept key List.mem_cons_self)), ← shown]
        simp
      simp [absent]
    | true =>
      refine Job.Ensures.mono
        (ih fun other member => kept other (List.mem_cons_of_mem _ member))
        (fun found final ⟨onward, all⟩ => ⟨same.then_nothing onward, ?_⟩)
        fun _ _ failed => ⟨same.then_nothing failed.1, failed.2⟩
      show found = true ↔ ∀ other ∈ key :: _, final.Has other
      rw [List.forall_mem_cons, and_iff_right (onward.keeps key (shown.mp rfl))]
      exact all

/-- **A task is skipped** exactly if it resumes and all its slots are filled. -/
theorem spares_canSkip {blames : RunError → Prop} {keys : List Key}
    (kept : ∀ key ∈ keys, reserved key) :
    (run.canSkip keys).Spares before own reserved
      (fun skips later => skips = true ↔ run.policy = .resume ∧ ∀ key ∈ keys, later.Has key)
      blames ledger := by
  unfold canSkip
  split
  · next resumes =>
    refine Job.Ensures.mono (spares_allStored kept) (fun _ _ ⟨same, all⟩ => ⟨same, ?_⟩)
      fun _ _ => id
    exact all.trans (and_iff_right resumes).symm
  · next others =>
    exact Job.ensures_pure fun later allowed => ⟨gains_of_rely allowed, by simp [others]⟩

/-! ### Filling -/

/-- What an artifact put into its slot amounts to at any later moment. -/
theorem gains_insert {key : Key} {artifact : Artifact} {final : MemoryLedger}
    (allowed : (filling before own reserved).rely ledger later)
    (more : (filling before own reserved).rely (later.insert key artifact) final) :
    Gains reserved (· = key) ledger final where
  keeps other held := (more other).1 (MemoryLedger.has_insert.mpr (.inr ((allowed other).1 held)))
  adds other same := (more other).1 (MemoryLedger.has_insert.mpr (.inl same))
  only other kept held := by
    rw [MemoryLedger.has_congr ((more other).2 kept), MemoryLedger.has_insert,
      MemoryLedger.has_congr ((allowed other).2 kept)] at held
    exact held.symm

theorem guarantee_insert {key : Key} (mine : own key)
    (ready : ∀ other, before other key → ledger.Has other) (artifact : Artifact) :
    (filling before own reserved).guarantee ledger (ledger.insert key artifact) := by
  intro other
  by_cases same : other = key
  · subst same
    exact .inr ⟨mine, MemoryLedger.has_insert.mpr (.inl rfl), ready⟩
  · exact .inl (MemoryLedger.get?_insert_of_ne ledger same artifact)

/-- An artifact is put into a slot, which may turn out to be filled. -/
theorem fills_put {key : Key} {artifact : Artifact} (fit : artifact.fits key = true)
    (kept : reserved key) {read : (Ledger.Op.put key artifact).Answer → Except RunError Unit}
    (fine : read (.ok ()) = .ok ()) {statement : Unit → MemoryLedger → Prop}
    {excuse : RunError → MemoryLedger → Prop}
    (guaranteed : ∀ {later}, (filling before own reserved).rely ledger later →
      (filling before own reserved).guarantee later (later.insert key artifact))
    (stores : ∀ {later final}, (filling before own reserved).rely ledger later →
      (filling before own reserved).rely (later.insert key artifact) final → statement () final)
    (taken : ∀ final, GainsNothing reserved ledger final → ledger.Has key →
      Verdict statement excuse (read (.error (.duplicateKey key))) final) :
    (Job.interpret (.put key artifact) read).Fills before own reserved statement excuse ledger := by
  refine Job.ensures_interpret fun later allowed service serves => ?_
  rw [serves.change, serves.ledger]
  cases held : later.get? key with
  | none =>
    rw [MemoryLedger.answer_put_of_none fit held, fine]
    exact ⟨guaranteed allowed, fun final more => stores allowed more⟩
  | some other =>
    rw [MemoryLedger.answer_put_of_some fit held]
    refine ⟨(filling before own reserved).guarantee_refl later, fun final more => ?_⟩
    have found : later.Has key := MemoryLedger.has_iff_exists.mpr ⟨other, held⟩
    exact taken final (gains_of_rely ((filling before own reserved).rely_trans allowed more))
      ((MemoryLedger.has_congr ((allowed key).2 kept)).mp found)

/-- **An artifact is stored** in a slot whose predecessors are filled. Unless the run keeps what is
there, it is what the slot holds afterwards; and storing fails only if the slot was filled. -/
theorem fills_store {key : Key} {artifact : Artifact} (fit : artifact.fits key = true)
    (mine : own key) (kept : reserved key) (ready : ∀ other, before other key → ledger.Has other) :
    (run.store key artifact).Fills before own reserved
      (fun _ later => Gains reserved (· = key) ledger later ∧
        ((run.policy = .resume → ¬ ledger.Has key) → later.get? key = some artifact))
      (fun error later => GainsNothing reserved ledger later ∧ error.IsPlain ∧ ledger.Has key)
      ledger := by
  have stores {later final : MemoryLedger}
      (allowed : (filling before own reserved).rely ledger later)
      (more : (filling before own reserved).rely (later.insert key artifact) final) :
      Gains reserved (· = key) ledger final ∧
        ((run.policy = .resume → ¬ ledger.Has key) → final.get? key = some artifact) := by
    refine ⟨gains_insert allowed more, fun _ => ?_⟩
    rw [(more key).2 kept, MemoryLedger.get?_insert_self]
  have guaranteed {later : MemoryLedger}
      (allowed : (filling before own reserved).rely ledger later) :
      (filling before own reserved).guarantee later (later.insert key artifact) :=
    guarantee_insert mine (fun other earlier => (allowed other).1 (ready other earlier)) artifact
  unfold store
  split
  · refine Job.ensures_interpret fun later allowed service serves => ?_
    rw [serves.change, serves.ledger, MemoryLedger.answer_overwrite fit]
    exact ⟨guaranteed allowed, fun final more => stores allowed more⟩
  · refine fills_put fit kept rfl guaranteed (fun allowed more => stores allowed more) ?_
    exact fun final same before => ⟨same, trivial, before⟩
  · next policy =>
    refine fills_put fit kept rfl guaranteed (fun allowed more => stores allowed more) ?_
    exact fun final same before =>
      ⟨.of_filled same fun _ here => here ▸ before, fun vacant => absurd before (vacant policy)⟩

end Run

end Transcode
