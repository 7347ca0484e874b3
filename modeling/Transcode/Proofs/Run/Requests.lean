/-
**What the single actions of a run do to its slots**, while others are at work.

* Reading a filled slot yields what belongs there (`promises_bitstream`, `promises_state`), and a
  codec call yields what the codec answers, or fails where that is excused (`promises_call`).
* `promises_store` fills a vacant slot; `Blueprint.Fills` says what holds afterwards.
* A task is skipped only if all its slots are filled (`promises_canSkip`), and nothing is found
  missing where all is filled (`promises_firstMissing`).
-/
import Transcode.Proofs.Run.Blueprint

namespace Transcode.Blueprint

open Run

variable {blueprint : Blueprint} {own reserved : Key → Prop} {ledger : MemoryLedger}

/-- What a part of a run promises: its error is one of the excused ones. -/
abbrev Promises {α : Type} (blueprint : Blueprint) (own reserved : Key → Prop)
    (statement : α → MemoryLedger → Prop) (job : Job α) (ledger : MemoryLedger) : Prop :=
  job.Ensures blueprint.setting.services (blueprint.conduct own reserved) statement
    (fun error _ => blueprint.excused error) ledger

/-- A ledger operation that leaves the ledger as it is. -/
theorem promises_look {α : Type} {op : Ledger.Op} {read : op.Answer → Except RunError α}
    {statement : α → MemoryLedger → Prop} (value : MemoryLedger → α)
    (looks : ∀ later, (blueprint.conduct own reserved).rely ledger later →
      (later.answer op).2 = later ∧ read (later.answer op).1 = .ok (value later))
    (holds : ∀ later final, (blueprint.conduct own reserved).rely ledger later →
      (blueprint.conduct own reserved).rely later final → statement (value later) final) :
    blueprint.Promises own reserved statement (Job.interpret op read) ledger := by
  refine Job.ensures_interpret fun later allowed service serves => ?_
  have answers := blueprint.serves serves
  obtain ⟨same, fine⟩ := looks later allowed
  rw [answers.ledger, answers.change, same, fine]
  exact ⟨(blueprint.conduct own reserved).guarantee_refl later,
    fun final more => holds later final allowed more⟩

/-! ### Reading -/

/-- The artifact in a filled slot. -/
theorem promises_get {key : Key} {artifact : Artifact} {statement : Artifact → MemoryLedger → Prop}
    (filled : blueprint.Filled key (ledger.get? key)) (here : blueprint.slot key = some artifact)
    (holds : ∀ later, (blueprint.conduct own reserved).rely ledger later →
      statement artifact later) :
    blueprint.Promises own reserved statement (Job.ledger (.get key)) ledger := by
  refine promises_look (fun _ => artifact) (fun later allowed => ?_) fun later final first second =>
    holds final ((blueprint.conduct own reserved).rely_trans first second)
  have found : later.get? key = some artifact := ((allowed key).1 filled).held.trans here
  rw [MemoryLedger.answer_get_of_some found]
  exact ⟨rfl, rfl⟩

/-- The stream in a filled slot. -/
theorem promises_bitstream {chunk : ChunkIndex} {kind : Kind} {stream : Bitstream}
    {statement : Bitstream → MemoryLedger → Prop}
    (filled : blueprint.Filled ⟨chunk, kind⟩ (ledger.get? ⟨chunk, kind⟩))
    (here : blueprint.slot ⟨chunk, kind⟩ = some (.bitstream stream))
    (holds : ∀ later, (blueprint.conduct own reserved).rely ledger later →
      statement stream later) :
    blueprint.Promises own reserved statement (bitstream chunk kind) ledger :=
  Job.Ensures.bind (promises_get filled here fun _ first => Job.ensures_ok rfl fun final second =>
    holds final ((blueprint.conduct own reserved).rely_trans first second))

/-- The decoder state in a filled slot. -/
theorem promises_state {chunk : ChunkIndex} {kind : Kind} {handle : StateHandle}
    {statement : StateHandle → MemoryLedger → Prop}
    (filled : blueprint.Filled ⟨chunk, kind⟩ (ledger.get? ⟨chunk, kind⟩))
    (here : blueprint.slot ⟨chunk, kind⟩ = some (.state handle))
    (holds : ∀ later, (blueprint.conduct own reserved).rely ledger later →
      statement handle later) :
    blueprint.Promises own reserved statement (state chunk kind) ledger :=
  Job.Ensures.bind (promises_get filled here fun _ first => Job.ensures_ok rfl fun final second =>
    holds final ((blueprint.conduct own reserved).rely_trans first second))

/-- **A codec call**: the answer of the codec, unless the call fails. -/
theorem promises_call {call : Codec.Call} {value : call.Result} {blame : CodecError → RunError}
    {statement : call.Result → MemoryLedger → Prop}
    (yields : blueprint.codec.answer call = .ok value)
    (holds : ∀ later, (blueprint.conduct own reserved).rely ledger later →
      blueprint.answers call (.ok value) → statement value later) :
    blueprint.Promises own reserved statement (Job.codec call blame) ledger := by
  refine Job.ensures_codec fun later allowed service serves => ?_
  have answered := (blueprint.serves serves).codec call later
  rw [(blueprint.serves serves).quiet]
  refine ⟨(blueprint.conduct own reserved).guarantee_refl later, fun final more => ?_⟩
  revert answered
  generalize ((service.reply (.codec call) later).answer : call.Answer) = answer
  intro answered
  rcases blueprint.truthful answered with same | ⟨excused, error, failed⟩
  · rw [same, yields] at answered ⊢
    exact holds final ((blueprint.conduct own reserved).rely_trans allowed more) answered
  · rw [failed]
    exact excused _

/-! ### Writing -/

/-- What holds once the slot has been filled: nothing that was filled is undone, and the other
reserved slots are still vacant. -/
structure Fills (blueprint : Blueprint) (reserved : Key → Prop) (key : Key)
    (ledger later : MemoryLedger) : Prop where
  filled : blueprint.Filled key (later.get? key)
  keeps : ∀ other, blueprint.Filled other (ledger.get? other) →
    blueprint.Filled other (later.get? other)
  vacant : ∀ other, reserved other → other ≠ key → blueprint.Vacant other (ledger.get? other) →
    blueprint.Vacant other (later.get? other)

/-- What is in its slot right after an operation is there at any later moment. -/
theorem fills_of_rely {key : Key} {later after final : MemoryLedger}
    (before : (blueprint.conduct own reserved).rely ledger later)
    (others : ∀ other, other ≠ key → after.get? other = later.get? other)
    (filled : blueprint.Filled key (after.get? key))
    (more : (blueprint.conduct own reserved).rely after final) :
    blueprint.Fills reserved key ledger final := by
  constructor
  case filled => exact (more key).1 filled
  case keeps =>
    intro other held
    by_cases same : other = key
    · exact same ▸ (more key).1 filled
    · refine (more other).1 ?_
      rw [others other same]
      exact (before other).1 held
  case vacant =>
    intro other kept differs held
    refine (more other).2 kept ?_
    rw [others other differs]
    exact (before other).2 kept held

/-- A slot of one's own is filled with what belongs there. -/
theorem guarantee_insert {key : Key} {artifact : Artifact} (mine : own key)
    (filled : blueprint.Filled key (some artifact)) (ledger : MemoryLedger) :
    (blueprint.conduct own reserved).guarantee ledger (ledger.insert key artifact) := by
  intro other
  by_cases same : other = key
  · subst same
    rw [MemoryLedger.get?_insert_self]
    exact .inr ⟨mine, filled⟩
  · exact .inl (MemoryLedger.get?_insert_of_ne ledger same artifact)

/-- **Filling a slot that may be taken.** If it is, that is excused, or what belongs there is what
has taken it. -/
theorem promises_put {key : Key} {artifact : Artifact} {statement : Unit → MemoryLedger → Prop}
    {read : (Ledger.Op.put key artifact).Answer → Except RunError Unit} (mine : own key)
    (fit : artifact.fits key = true) (fine : read (.ok ()) = .ok ())
    (free : ∀ later, (blueprint.conduct own reserved).rely ledger later →
      later.get? key = none → blueprint.Filled key (some artifact))
    (taken : ∀ later other, (blueprint.conduct own reserved).rely ledger later →
      later.get? key = some other →
      (∃ error, read (.error (.duplicateKey key)) = .error error ∧ blueprint.excused error) ∨
        (blueprint.Filled key (some other) ∧ read (.error (.duplicateKey key)) = .ok ()))
    (holds : ∀ later, blueprint.Fills reserved key ledger later → statement () later) :
    blueprint.Promises own reserved statement (Job.interpret (.put key artifact) read) ledger := by
  refine Job.ensures_interpret fun later allowed service serves => ?_
  rw [(blueprint.serves serves).ledger, (blueprint.serves serves).change]
  cases held : later.get? key with
  | none =>
    rw [MemoryLedger.answer_put_of_none fit held, fine]
    have filled := free later allowed held
    refine ⟨guarantee_insert mine filled later, fun final more => ?_⟩
    rw [← MemoryLedger.get?_insert_self later key artifact] at filled
    exact holds final (fills_of_rely allowed
      (fun other differs => MemoryLedger.get?_insert_of_ne later differs artifact) filled more)
  | some other =>
    rw [MemoryLedger.answer_put_of_some fit held]
    refine ⟨(blueprint.conduct own reserved).guarantee_refl later, fun final more => ?_⟩
    rcases taken later other allowed held with ⟨error, failed, excused⟩ | ⟨filled, same⟩
    · rw [failed]
      exact excused
    · rw [same]
      exact holds final (fills_of_rely allowed (fun _ _ => rfl) (held ▸ filled) more)

/-- **Filling a vacant slot** with what belongs there. -/
theorem promises_store {key : Key} {artifact : Artifact} {statement : Unit → MemoryLedger → Prop}
    (mine : own key) (kept : reserved key) (here : blueprint.slot key = some artifact)
    (earned : ∀ raw, blueprint.run.chunks[key.chunk]? = some raw → blueprint.Earned raw key)
    (vacant : blueprint.Vacant key (ledger.get? key))
    (holds : ∀ later, blueprint.Fills reserved key ledger later → statement () later) :
    blueprint.Promises own reserved statement (blueprint.run.store key artifact) ledger := by
  have fit : artifact.fits key = true := Row.artifact?_fits here
  unfold Run.store
  split
  · next policy =>
    refine Job.ensures_interpret fun later allowed service serves => ?_
    rw [(blueprint.serves serves).ledger, (blueprint.serves serves).change,
      MemoryLedger.answer_overwrite fit]
    have filled : blueprint.Filled key (some artifact) := ⟨here.symm, earned, by simp [policy]⟩
    refine ⟨guarantee_insert mine filled later, fun final more => ?_⟩
    rw [← MemoryLedger.get?_insert_self later key artifact] at filled
    exact holds final (fills_of_rely allowed
      (fun other differs => MemoryLedger.get?_insert_of_ne later differs artifact) filled more)
  · next policy =>
    refine promises_put mine fit rfl (fun later allowed absent => ?_)
      (fun later other allowed held => ?_) holds
    · have free := (allowed key).2 kept vacant
      rw [absent, Vacant, policy] at free
      exact ⟨here.symm, earned, fun _ => (free.resolve_right (by simp)).2⟩
    · have free := (allowed key).2 kept vacant
      rw [held, Vacant, policy] at free
      exact .inl ⟨_, rfl, (free.resolve_left (by simp)).2⟩
  · next policy =>
    refine promises_put mine fit rfl (fun later allowed absent => ?_)
      (fun later other allowed held => ?_) holds
    · exact ⟨here.symm, earned, by simp [policy]⟩
    · have free := (allowed key).2 kept vacant
      rw [held, Vacant, policy] at free
      exact .inr ⟨free.resolve_left (by simp), rfl⟩

/-! ### Looking for slots -/

/-- A resumed run finds a slot that it may fill only if it is filled already. -/
theorem promises_contains {key : Key} {statement : Bool → MemoryLedger → Prop}
    (policy : blueprint.run.policy = .resume) (kept : reserved key)
    (vacant : blueprint.Vacant key (ledger.get? key))
    (holds : ∀ later found, (blueprint.conduct own reserved).rely ledger later →
      (found = true → blueprint.Filled key (later.get? key)) → statement found later) :
    blueprint.Promises own reserved statement (Job.ledger (.contains key)) ledger := by
  refine promises_look (fun later => (later.get? key).isSome) (fun _ _ => ⟨rfl, rfl⟩) ?_
  intro later final first second
  refine holds final _ ((blueprint.conduct own reserved).rely_trans first second) fun found => ?_
  have free := (first key).2 kept vacant
  rw [Vacant, policy] at free
  refine (second key).1 (free.resolve_left fun absent => ?_)
  rw [absent] at found
  cases found

/-- Slots that are looked at one after another are all found only if each is filled. -/
theorem promises_allStored {keys : List Key} {statement : Bool → MemoryLedger → Prop}
    (policy : blueprint.run.policy = .resume) (kept : ∀ key ∈ keys, reserved key)
    (vacant : ∀ key ∈ keys, blueprint.Vacant key (ledger.get? key))
    (holds : ∀ later found, (blueprint.conduct own reserved).rely ledger later →
      (found = true → ∀ key ∈ keys, blueprint.Filled key (later.get? key)) →
      statement found later) :
    blueprint.Promises own reserved statement (allStored keys) ledger := by
  induction keys generalizing ledger with
  | nil =>
    exact Job.ensures_pure fun later allowed =>
      holds later true allowed fun _ key member => absurd member List.not_mem_nil
  | cons key rest ih =>
    refine Job.Ensures.bind (promises_contains policy (kept key List.mem_cons_self)
      (vacant key List.mem_cons_self) fun later found allowed filled => ?_)
    cases found with
    | false =>
      exact Job.ensures_pure fun final more =>
        holds final false ((blueprint.conduct own reserved).rely_trans allowed more)
          fun absurd => by cases absurd
    | true =>
      refine ih (fun other member => kept other (List.mem_cons_of_mem _ member))
        (fun other member => (allowed other).2 (kept other (List.mem_cons_of_mem _ member))
          (vacant other (List.mem_cons_of_mem _ member))) fun final found more others => ?_
      refine holds final found ((blueprint.conduct own reserved).rely_trans allowed more) ?_
      intro all other member
      rcases List.mem_cons.mp member with rfl | member
      · exact (more other).1 (filled rfl)
      · exact others all other member

/-- **A task is skipped** only if all its slots are filled. -/
theorem promises_canSkip {keys : List Key} {statement : Bool → MemoryLedger → Prop}
    (kept : ∀ key ∈ keys, reserved key)
    (vacant : ∀ key ∈ keys, blueprint.Vacant key (ledger.get? key))
    (holds : ∀ later skips, (blueprint.conduct own reserved).rely ledger later →
      (skips = true → ∀ key ∈ keys, blueprint.Filled key (later.get? key)) →
      statement skips later) :
    blueprint.Promises own reserved statement (blueprint.run.canSkip keys) ledger := by
  unfold Run.canSkip
  split
  · next policy => exact promises_allStored policy kept vacant holds
  · exact Job.ensures_pure fun later allowed =>
      holds later false allowed fun absurd => by cases absurd

/-- Nothing is missing where all that is required is filled. -/
theorem promises_firstMissing {required : KeySet} {statement : Option Key → MemoryLedger → Prop}
    (filled : ∀ key ∈ required, blueprint.Filled key (ledger.get? key))
    (present : ∀ key ∈ required, (blueprint.slot key).isSome)
    (holds : ∀ later, (blueprint.conduct own reserved).rely ledger later → statement none later) :
    blueprint.Promises own reserved statement (firstMissing required) ledger := by
  refine Job.Ensures.bind (promises_look (fun later => later.keys) (fun _ _ => ⟨rfl, rfl⟩) ?_)
  intro later final first second
  have complete : required.firstMissing later.keys = none := by
    refine List.find?_eq_none.mpr fun key member => ?_
    have stored : key ∈ later.keys := by
      rw [MemoryLedger.mem_keys, ((first key).1 (filled key member)).held]
      exact present key member
    simpa using stored
  rw [complete]
  exact Job.ensures_pure fun last third => holds last
    ((blueprint.conduct own reserved).rely_trans first
      ((blueprint.conduct own reserved).rely_trans second third))

end Transcode.Blueprint
