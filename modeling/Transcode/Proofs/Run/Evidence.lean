/-
**What the questions of a task tell about its end**, whatever the answers.

* `Stores`, `Shows` and `Reports` say what an answer means: a slot was filled, is known to be
  filled, or the codec has failed. `Run.Hinders` holds of the answers that a task cannot get over.
* `Job.Runs` says something of the end of a job and of its questions together; `Job.Acts` is the
  case of a job that calls no codec.
* `Run.bears_barrierTask` — a task of a barrier stage fails as its codec call did, and then it has
  stored nothing; and if no answer hinders it, it ends well and its outputs are known to be filled.
-/
import Transcode.Proofs.Run.Filling
import Transcode.Proofs.Schedule.Log
import Transcode.Run.Coordinator

namespace Transcode.Run

variable {α β : Type}

/-! ### What answers mean -/

/-- The request has stored an artifact in the slot. -/
def Stores (key : Key) : Exchange interface → Prop
  | ⟨.ledger (.put slot _), .ok _⟩ | ⟨.ledger (.overwrite slot _), .ok _⟩ => slot = key
  | _ => False

/-- The answer shows that the slot is filled. -/
def Shows (key : Key) : Exchange interface → Prop
  | ⟨.ledger (.contains slot), .ok found⟩ => slot = key ∧ found = true
  | ⟨.ledger (.put slot _), .ok _⟩ | ⟨.ledger (.put slot _), .error (.duplicateKey _)⟩
  | ⟨.ledger (.overwrite slot _), .ok _⟩ => slot = key
  | _ => False

/-- The codec has failed, for this cause. -/
def Reports (cause : CodecError) : Exchange interface → Prop
  | ⟨.codec _, .error found⟩ => found = cause
  | _ => False

/-- The answer is one that a task does not get over: the codec has failed, the ledger has failed, or
what it holds does not belong there. That a slot is taken does not hinder a resumed run. -/
def Hinders (run : Run) : Exchange interface → Prop
  | ⟨.codec _, .error _⟩ => True
  | ⟨.ledger (.get slot), .ok artifact⟩ => artifact.fits slot = false
  | ⟨.ledger (.put _ _), .error (.duplicateKey _)⟩ => run.policy ≠ .resume
  | ⟨.ledger _, .error _⟩ => True
  | _ => False

theorem not_reports_ledger {cause : CodecError} {op : Ledger.Op} {answer : op.Answer} :
    ¬ Reports cause ⟨.ledger op, answer⟩ :=
  id

/-! ### What becomes of the ledger -/

section Ledger

variable {answers : (call : Codec.Call) → call.Answer → Prop} {ledger later : MemoryLedger}
  {key : Key}

/-- What a request does to a slot, by its answer. -/
theorem slot_of_reply {service : Service interface MemoryLedger} (serves : Serves answers service)
    (request : Request) (ledger : MemoryLedger) (key : Key) :
    let exchange : Exchange interface := ⟨request, (service.reply request ledger).answer⟩
    let after := (service.reply request ledger).state
    (Stores key exchange ∧ after.Has key) ∨
      (¬ Stores key exchange ∧ after.get? key = ledger.get? key ∧
        (Shows key exchange → ledger.Has key)) := by
  cases request with
  | codec call => exact .inr ⟨id, by rw [serves.quiet], False.elim⟩
  | ledger op =>
    dsimp only
    rw [serves.ledger, serves.change]
    cases op with
    | contains slot => exact .inr ⟨id, rfl, fun ⟨same, found⟩ => same ▸ found⟩
    | keys => exact .inr ⟨id, rfl, False.elim⟩
    | get slot => exact .inr ⟨id, rfl, False.elim⟩
    | overwrite slot artifact =>
      cases fit : artifact.fits slot with
      | false =>
        rw [MemoryLedger.answer_overwrite_of_misfit fit]
        exact .inr ⟨id, rfl, False.elim⟩
      | true =>
        rw [MemoryLedger.answer_overwrite fit]
        by_cases same : slot = key
        · exact .inl ⟨same, MemoryLedger.has_insert.mpr (.inl same.symm)⟩
        · refine .inr ⟨same, ?_, (absurd · same)⟩
          exact MemoryLedger.get?_insert_of_ne ledger (Ne.symm same) artifact
    | put slot artifact =>
      cases fit : artifact.fits slot with
      | false =>
        rw [MemoryLedger.answer_put_of_misfit fit]
        exact .inr ⟨id, rfl, False.elim⟩
      | true =>
        cases held : ledger.get? slot with
        | some other =>
          rw [MemoryLedger.answer_put_of_some fit held]
          refine .inr ⟨id, rfl, fun same => ?_⟩
          exact MemoryLedger.has_iff_exists.mpr ⟨other, (show slot = key from same) ▸ held⟩
        | none =>
          rw [MemoryLedger.answer_put_of_none fit held]
          by_cases same : slot = key
          · exact .inl ⟨same, MemoryLedger.has_insert.mpr (.inl same.symm)⟩
          · refine .inr ⟨same, ?_, (absurd · same)⟩
            exact MemoryLedger.get?_insert_of_ne ledger (Ne.symm same) artifact

/-- A slot in which nothing was stored is as it was. -/
theorem get?_of_log {trace : List (Exchange interface)}
    (log : Log (Serves answers) ledger trace later)
    (untouched : ∀ exchange ∈ trace, ¬ Stores key exchange) :
    later.get? key = ledger.get? key := by
  induction log with
  | nothing => rfl
  | ask _ serves request ih =>
    obtain ⟨before, now⟩ := List.forall_mem_append.mp untouched
    rcases slot_of_reply serves request _ key with ⟨stored, -⟩ | ⟨-, same, -⟩
    · exact absurd stored (now _ (List.mem_singleton_self _))
    · exact same.trans (ih before)

/-- **A slot that was seen filled stays filled**: nothing is ever deleted. -/
theorem has_of_log {trace : List (Exchange interface)}
    (log : Log (Serves answers) ledger trace later) {exchange : Exchange interface}
    (member : exchange ∈ trace) (shows : Shows key exchange) : later.Has key := by
  induction log with
  | nothing => cases member
  | ask _ serves request ih =>
    rcases slot_of_reply serves request _ key with ⟨-, filled⟩ | ⟨-, same, seen⟩
    · exact filled
    · refine (MemoryLedger.has_congr same).mpr ?_
      rcases List.mem_append.mp member with before | now
      · exact ih before
      · exact seen (List.mem_singleton.mp now ▸ shows)

end Ledger

/-! ### Jobs with their questions -/

namespace Job

/-- What can be said of the end of a job and of the questions that it has asked. -/
def Runs (spec : Except RunError α → List (Exchange interface) → Prop) (job : Job α) : Prop :=
  ∀ trace result, job.run.Yields trace result → spec result trace

theorem Runs.mono {spec weaker : Except RunError α → List (Exchange interface) → Prop}
    {job : Job α} (runs : job.Runs spec)
    (implies : ∀ result trace, spec result trace → weaker result trace) : job.Runs weaker :=
  fun trace result yields => implies _ _ (runs trace result yields)

/-- **A job followed by another** asks the questions of both, unless the first fails. -/
theorem Runs.bind {spec : Except RunError β → List (Exchange interface) → Prop} {job : Job α}
    {after : α → Job β}
    (runs : job.Runs (Verdict
      (fun value trace => (after value).Runs fun result more => spec result (trace ++ more))
      fun error trace => spec (.error error) trace)) :
    (job >>= after).Runs spec := by
  intro trace result yields
  obtain ⟨first, second, middle, rfl, here, there⟩ := Task.Yields.of_bind yields
  have told := runs first middle here
  cases middle with
  | ok value => exact told second result there
  | error error =>
    obtain ⟨rfl, rfl⟩ := Task.Yields.of_done there
    rwa [List.append_nil]

/-- **A job that calls no codec** stores in the given slots only, and fails only where it is
hindered. -/
def Acts (run : Run) (keys : List Key) (statement : α → List (Exchange interface) → Prop) :
    Job α → Prop :=
  Runs fun result trace =>
    (∀ exchange ∈ trace, (∀ key, Stores key exchange → key ∈ keys) ∧
      ∀ cause, ¬ Reports cause exchange) ∧
    Verdict statement (fun error trace => error.IsPlain ∧ ∃ exchange ∈ trace, run.Hinders exchange)
      result trace

variable {run : Run} {keys : List Key}

theorem acts_pure {value : α} {statement : α → List (Exchange interface) → Prop}
    (holds : statement value []) : (pure value : Job α).Acts run keys statement := by
  intro trace result yields
  obtain ⟨rfl, rfl⟩ := Task.Yields.of_done yields
  exact ⟨by simp, holds⟩

/-- A single ledger operation. -/
theorem acts_interpret {op : Ledger.Op} {read : op.Answer → Except RunError α}
    {statement : α → List (Exchange interface) → Prop}
    (stores : ∀ answer key, Stores key ⟨.ledger op, answer⟩ → key ∈ keys)
    (values : ∀ answer value, read answer = .ok value → statement value [⟨.ledger op, answer⟩])
    (errors : ∀ answer error, read answer = .error error →
      error.IsPlain ∧ run.Hinders ⟨.ledger op, answer⟩) :
    (interpret op read).Acts run keys statement := by
  intro trace result yields
  cases yields with
  | ask _ answer rest =>
    obtain ⟨rfl, rfl⟩ := rest.of_done
    refine ⟨List.forall_mem_singleton.mpr ⟨stores answer, fun _ => not_reports_ledger⟩, ?_⟩
    cases told : read answer with
    | ok value => exact values answer value told
    | error error =>
      obtain ⟨plain, hinders⟩ := errors answer error told
      exact ⟨plain, _, List.mem_singleton_self _, hinders⟩

/-- A job that acts, and then another. -/
theorem Acts.bind {statement : α → List (Exchange interface) → Prop}
    {further : β → List (Exchange interface) → Prop} {job : Job α} {after : α → Job β}
    (acts : job.Acts run keys statement)
    (onward : ∀ value trace, statement value trace →
      (after value).Acts run keys fun result more => further result (trace ++ more)) :
    (job >>= after).Acts run keys further := by
  refine Runs.bind (Runs.mono acts fun result trace ⟨harmless, verdict⟩ => ?_)
  cases result with
  | error error => exact ⟨harmless, verdict⟩
  | ok value =>
    refine (onward value trace verdict).mono fun final more ⟨others, ends⟩ => ?_
    refine ⟨List.forall_mem_append.mpr ⟨harmless, others⟩, ?_⟩
    cases final with
    | ok value => exact ends
    | error error =>
      obtain ⟨plain, exchange, member, hinders⟩ := ends
      exact ⟨plain, exchange, List.mem_append_right _ member, hinders⟩

theorem Acts.mono {more : List Key} {statement weaker : α → List (Exchange interface) → Prop}
    {job : Job α} (acts : job.Acts run keys statement) (within : ∀ key ∈ keys, key ∈ more)
    (implies : ∀ value trace, statement value trace → weaker value trace) :
    job.Acts run more weaker :=
  Runs.mono acts fun _ trace ⟨harmless, verdict⟩ =>
    ⟨fun exchange member => (harmless exchange member).imp_left fun stores key stored =>
        within key (stores key stored),
      verdict.imp (fun value => implies value trace) fun _ => id⟩

end Job

variable {run : Run} {keys : List Key}

/-! ### Single actions -/

theorem acts_raw {chunk : ChunkIndex} (inside : chunk < run.count) :
    (Job.ofExcept (run.raw chunk)).Acts run keys fun _ _ => True := by
  have found : run.raw chunk = .ok run.chunks[chunk] := by
    rw [raw, List.getElem?_eq_getElem inside]
  rw [found]
  exact Job.acts_pure trivial

/-- Reading a slot, whose artifact is what belongs there. -/
theorem acts_read {key : Key} {read : Artifact → Except LedgerError α}
    (fine : ∀ artifact, artifact.fits key = true → ∃ value, read artifact = .ok value) :
    (do
      let artifact ← Job.ledger (.get key)
      Job.ofExcept ((read artifact).mapError RunError.ofLedger)).Acts run keys fun _ _ => True := by
  intro trace result yields
  cases yields with
  | ask _ answer rest =>
    change (Ledger.Op.get key).Answer at answer
    cases answer with
    | error cause =>
      obtain ⟨rfl, rfl⟩ := Task.Yields.of_done rest
      exact ⟨List.forall_mem_singleton.mpr ⟨fun _ => False.elim, fun _ => not_reports_ledger⟩,
        RunError.isPlain_ofLedger cause, _, List.mem_singleton_self _, trivial⟩
    | ok artifact =>
      obtain ⟨rfl, rfl⟩ := Task.Yields.of_done rest
      refine ⟨List.forall_mem_singleton.mpr ⟨fun _ => False.elim, fun _ => not_reports_ledger⟩, ?_⟩
      cases told : read artifact with
      | ok value => trivial
      | error cause =>
        refine ⟨RunError.isPlain_ofLedger cause, _, List.mem_singleton_self _, ?_⟩
        refine Bool.eq_false_iff.mpr fun fit => ?_
        obtain ⟨value, good⟩ := fine artifact fit
        cases told.symm.trans good

theorem acts_bitstream {chunk : ChunkIndex} {kind : Kind} (payload : kind.payload = .bitstream) :
    (bitstream chunk kind).Acts run keys fun _ _ => True := by
  refine acts_read fun artifact fit => ?_
  cases artifact with
  | bitstream stream => exact ⟨stream, rfl⟩
  | state handle => simp [Artifact.fits, Artifact.payload, payload] at fit

theorem acts_state {chunk : ChunkIndex} {kind : Kind} (payload : kind.payload = .state) :
    (state chunk kind).Acts run keys fun _ _ => True := by
  refine acts_read fun artifact fit => ?_
  cases artifact with
  | bitstream stream => simp [Artifact.fits, Artifact.payload, payload] at fit
  | state handle => exact ⟨handle, rfl⟩

/-- The questions show all of the slots filled. -/
def ShowsAll (keys : List Key) (trace : List (Exchange interface)) : Prop :=
  ∀ key ∈ keys, ∃ exchange ∈ trace, Shows key exchange

theorem acts_allStored (looked : List Key) :
    (allStored looked).Acts run keys fun found trace => found = true → ShowsAll looked trace := by
  induction looked with
  | nil => exact Job.acts_pure fun _ _ member => absurd member List.not_mem_nil
  | cons key rest ih =>
    have first : (Job.ledger (.contains key)).Acts run keys
        fun found trace => found = true → ∃ exchange ∈ trace, Shows key exchange := by
      refine Job.acts_interpret (fun _ _ => False.elim) ?_ ?_
      · rintro (cause | found) value told shown
        · cases told
        · cases told
          exact ⟨_, List.mem_singleton_self _, rfl, shown⟩
      · rintro (cause | found) error told
        · cases told
          exact ⟨RunError.isPlain_ofLedger cause, trivial⟩
        · cases told
    refine first.bind fun found trace shown => ?_
    cases found with
    | false => exact Job.acts_pure fun never => by cases never
    | true =>
      refine ih.mono (fun _ => id) fun found more all there => ?_
      refine List.forall_mem_cons.mpr ⟨?_, fun other member => ?_⟩
      · obtain ⟨exchange, member, shows⟩ := shown rfl
        exact ⟨exchange, List.mem_append_left _ member, shows⟩
      · obtain ⟨exchange, member, shows⟩ := all there other member
        exact ⟨exchange, List.mem_append_right _ member, shows⟩

theorem acts_canSkip (looked : List Key) :
    (run.canSkip looked).Acts run keys fun skips trace => skips = true → ShowsAll looked trace := by
  unfold canSkip
  split
  · exact acts_allStored looked
  · exact Job.acts_pure fun never => by cases never

theorem acts_firstMissing (required : KeySet) :
    (firstMissing required).Acts run keys fun _ _ => True := by
  have keys : (Job.ledger .keys).Acts run keys fun _ _ => True := by
    refine Job.acts_interpret (fun _ _ => False.elim) (fun _ _ _ => trivial) ?_
    rintro (cause | found) error told
    · cases told
      exact ⟨RunError.isPlain_ofLedger cause, trivial⟩
    · cases told
  exact keys.bind fun _ _ _ => Job.acts_pure trivial

/-- **An artifact is stored**, or the run is hindered. -/
theorem acts_store {key : Key} (mine : key ∈ keys) (artifact : Artifact) :
    (run.store key artifact).Acts run keys
      fun _ trace => ∃ exchange ∈ trace, Shows key exchange := by
  have stores {op : Ledger.Op} (fills : op = .put key artifact ∨ op = .overwrite key artifact)
      (answer : op.Answer) (other : Key) (stored : Stores other ⟨.ledger op, answer⟩) :
      other ∈ keys := by
    rcases fills with rfl | rfl <;> cases answer <;> first | exact stored ▸ mine | exact stored.elim
  unfold store
  split
  · refine Job.acts_interpret (stores (.inr rfl)) ?_ ?_
    · rintro (cause | _) _ told
      · cases told
      · exact ⟨_, List.mem_singleton_self _, rfl⟩
    · rintro (cause | _) error told
      · cases told
        exact ⟨RunError.isPlain_ofLedger cause, trivial⟩
      · cases told
  · next policy =>
    refine Job.acts_interpret (stores (.inl rfl)) ?_ ?_
    · rintro (cause | _) _ told
      · cases told
      · exact ⟨_, List.mem_singleton_self _, rfl⟩
    · rintro (cause | _) error told
      · cases told
        refine ⟨RunError.isPlain_ofLedger cause, ?_⟩
        cases cause <;> simp [Hinders, policy]
      · cases told
  · next policy =>
    refine Job.acts_interpret (stores (.inl rfl)) ?_ ?_
    · rintro (cause | _) _ told
      · cases cause <;> first | exact ⟨_, List.mem_singleton_self _, rfl⟩ | cases told
      · exact ⟨_, List.mem_singleton_self _, rfl⟩
    · rintro (cause | _) error told
      · cases cause <;> cases told <;> exact ⟨trivial, trivial⟩
      · cases told

/-- Two artifacts are stored one after the other. -/
theorem acts_storeLineage (lineage : Lineage) (chunk : ChunkIndex) (encoded : Encoded) :
    (run.storeLineage lineage chunk encoded).Acts run
      [⟨chunk, lineage.stream⟩, ⟨chunk, lineage.state⟩]
      fun _ trace => ShowsAll [⟨chunk, lineage.stream⟩, ⟨chunk, lineage.state⟩] trace := by
  refine (acts_store List.mem_cons_self _).bind fun _ trace ⟨first, here, shows⟩ => ?_
  refine (acts_store (List.mem_cons_of_mem _ (List.mem_singleton_self _)) _).mono (fun _ => id) ?_
  rintro _ more ⟨second, there, shown⟩
  refine List.forall_mem_cons.mpr ⟨⟨first, List.mem_append_left _ here, shows⟩, ?_⟩
  exact List.forall_mem_singleton.mpr ⟨second, List.mem_append_right _ there, shown⟩

/-! ### Tasks -/

/-- **What the questions of a task of a barrier stage tell about its end.** -/
structure Bears (run : Run) (stage : Stage) (chunk : ChunkIndex) (result : Except RunError α)
    (trace : List (Exchange interface)) : Prop where
  /-- It stores its own outputs only. -/
  owns : ∀ exchange ∈ trace, ∀ key, Stores key exchange → key ∈ stage.outputs chunk
  /-- It stores nothing if its codec call fails. -/
  spares : ∀ exchange ∈ trace, ∀ cause, Reports cause exchange →
    ∀ other ∈ trace, ∀ key, ¬ Stores key other
  /-- A codec failure is that of its own call. -/
  blames : ∀ part place cause, result = .error (.codec part place cause) →
    part = chunk ∧ place = stage ∧ ∃ exchange ∈ trace, Reports cause exchange
  /-- If nothing hinders it, it ends well. -/
  settles : (∀ exchange ∈ trace, ¬ run.Hinders exchange) → ∃ value, result = .ok value
  /-- If it ends well, its outputs are filled. -/
  shows : ∀ value, result = .ok value → ShowsAll (stage.outputs chunk) trace

variable {stage : Stage} {chunk : ChunkIndex}

/-- It does not matter what a task makes of its value. -/
theorem Bears.map {result : Except RunError α} {trace : List (Exchange interface)}
    (bears : run.Bears stage chunk result trace) (make : α → β) :
    run.Bears stage chunk (result.map make) trace := by
  cases result with
  | error error =>
    refine ⟨bears.owns, bears.spares, fun part place cause failed => ?_, fun fine => ?_, ?_⟩
    · cases failed
      exact bears.blames part place cause rfl
    · obtain ⟨value, ended⟩ := bears.settles fine
      cases ended
    · rintro value ⟨⟩
  | ok value =>
    refine ⟨bears.owns, bears.spares, ?_, fun _ => ⟨make value, rfl⟩, fun _ _ => ?_⟩
    · rintro part place cause ⟨⟩
    · exact bears.shows value rfl

/-- A part of a task that calls no codec, to its end. -/
theorem Job.Acts.bears {job : Job α}
    (acts : job.Acts run (stage.outputs chunk) fun _ => ShowsAll (stage.outputs chunk)) :
    job.Runs (run.Bears stage chunk) := by
  refine Runs.mono acts fun result trace ⟨harmless, verdict⟩ => ?_
  constructor
  case owns => exact fun exchange member => (harmless exchange member).1
  case spares =>
    exact fun exchange member cause reports =>
      absurd reports ((harmless exchange member).2 cause)
  case blames =>
    rintro part place cause rfl
    exact verdict.1.elim
  case settles =>
    intro fine
    cases result with
    | ok value => exact ⟨value, rfl⟩
    | error error =>
      obtain ⟨-, exchange, member, hinders⟩ := verdict
      exact absurd hinders (fine exchange member)
  case shows =>
    rintro value rfl
    exact verdict

/-- Questions that neither store anything nor find the codec failing. -/
def Harmless (trace : List (Exchange interface)) : Prop :=
  ∀ exchange ∈ trace, (∀ key, ¬ Stores key exchange) ∧ ∀ cause, ¬ Reports cause exchange

/-- Harmless questions may come first. -/
theorem Bears.after {result : Except RunError α} {early late : List (Exchange interface)}
    (harmless : Harmless early) (bears : run.Bears stage chunk result late) :
    run.Bears stage chunk result (early ++ late) where
  owns := List.forall_mem_append.mpr ⟨fun exchange member key stored =>
    absurd stored ((harmless exchange member).1 key), bears.owns⟩
  spares exchange member cause reports := by
    have here := (List.mem_append.mp member).resolve_left fun first =>
      (harmless exchange first).2 cause reports
    exact List.forall_mem_append.mpr ⟨fun other first => (harmless other first).1,
      bears.spares exchange here cause reports⟩
  blames part place cause failed := by
    obtain ⟨own, here, exchange, member, reports⟩ := bears.blames part place cause failed
    exact ⟨own, here, exchange, List.mem_append_right _ member, reports⟩
  settles fine := bears.settles fun exchange member =>
    fine exchange (List.mem_append_right _ member)
  shows value ended key output := by
    obtain ⟨exchange, member, shows⟩ := bears.shows value ended key output
    exact ⟨exchange, List.mem_append_right _ member, shows⟩

/-- A part of a task that stores nothing and calls no codec, and then the rest of it. -/
theorem Job.Acts.first {statement : α → List (Exchange interface) → Prop} {job : Job α}
    {after : α → Job β} (acts : job.Acts run [] statement)
    (onward : ∀ value early, Harmless early → statement value early →
      (after value).Runs fun result late => run.Bears stage chunk result (early ++ late)) :
    (job >>= after).Runs (run.Bears stage chunk) := by
  refine Runs.bind (Runs.mono acts fun result early ⟨quiet, verdict⟩ => ?_)
  have harmless : Harmless early := fun exchange member =>
    (quiet exchange member).imp_left fun stores key stored =>
      absurd (stores key stored) List.not_mem_nil
  cases result with
  | ok value => exact onward value early harmless verdict
  | error error =>
    -- The part fails in a plain way, and nothing has been stored.
    obtain ⟨plain, exchange, member, hinders⟩ := verdict
    constructor
    case owns =>
      exact fun exchange member key stored => absurd stored ((harmless exchange member).1 key)
    case spares =>
      exact fun exchange member cause reports => absurd reports ((harmless exchange member).2 cause)
    case blames =>
      rintro part place cause ⟨⟩
      exact plain.elim
    case settles => exact fun fine => absurd hinders (fine exchange member)
    case shows => rintro value ⟨⟩

theorem Job.Acts.andThen {statement : α → List (Exchange interface) → Prop} {job : Job α}
    {after : α → Job β} (acts : job.Acts run [] statement)
    (onward : ∀ value, (after value).Runs (run.Bears stage chunk)) :
    (job >>= after).Runs (run.Bears stage chunk) :=
  acts.first fun value _ harmless _ => (onward value).mono fun _ _ bears => bears.after harmless

/-- A codec failure is put down to the task that made the call. -/
theorem eq_of_ofCodec {part : ChunkIndex} {place : Stage} {cause reason : CodecError}
    (same : RunError.ofCodec chunk stage cause = .codec part place reason) :
    part = chunk ∧ place = stage ∧ reason = cause := by
  unfold RunError.ofCodec at same
  split at same <;> cases same
  exact ⟨rfl, rfl, rfl⟩

/-- **The codec call of a task**, and then the rest of it. -/
theorem bears_codec {call : Codec.Call} {after : call.Result → Job β}
    (onward : ∀ value, (after value).Runs (run.Bears stage chunk)) :
    (Job.codec call (.ofCodec chunk stage) >>= after).Runs (run.Bears stage chunk) := by
  refine Job.Runs.bind fun trace result yields => ?_
  cases yields with
  | ask _ answer rest =>
    change call.Answer at answer
    obtain ⟨rfl, rfl⟩ := rest.of_done
    cases answer with
    | ok value =>
      refine (onward value).mono fun _ _ bears => bears.after ?_
      exact List.forall_mem_singleton.mpr ⟨fun _ => id, fun _ => id⟩
    | error cause =>
      constructor
      case owns => exact List.forall_mem_singleton.mpr fun _ => False.elim
      case spares => exact fun _ _ _ _ => List.forall_mem_singleton.mpr fun _ => id
      case blames =>
        intro part place found failed
        obtain ⟨rfl, rfl, rfl⟩ := eq_of_ofCodec (Except.error.inj failed)
        exact ⟨rfl, rfl, _, List.mem_singleton_self _, rfl⟩
      case settles => exact fun fine => absurd trivial (fine _ (List.mem_singleton_self _))
      case shows => rintro value ⟨⟩

/-- A task that looks for its outputs first. -/
theorem bears_unlessStored {made : Job Outcome} (makes : made.Runs (run.Bears stage chunk)) :
    (run.canSkip (stage.outputs chunk) >>= fun skips =>
      if skips then pure .skipped else made).Runs (run.Bears stage chunk) := by
  refine (acts_canSkip _).first fun skips early harmless shown => ?_
  cases skips with
  | false => exact makes.mono fun _ _ bears => bears.after harmless
  | true =>
    intro late result yields
    obtain ⟨rfl, rfl⟩ := Task.Yields.of_done yields
    rw [List.append_nil]
    constructor
    case owns =>
      exact fun exchange member key stored => absurd stored ((harmless exchange member).1 key)
    case spares =>
      exact fun exchange member cause reports => absurd reports ((harmless exchange member).2 cause)
    case blames => rintro part place cause ⟨⟩
    case settles => exact fun _ => ⟨_, rfl⟩
    case shows => exact fun _ _ => shown rfl

theorem bears_encodeLineage {lineage : Lineage} (proper : lineage = .v0 ∨ lineage = .v1)
    (inside : chunk < run.count) :
    (run.encodeLineage lineage chunk).Runs (run.Bears lineage.stage chunk) := by
  obtain ⟨outputs, predecessor⟩ :
      lineage.stage.outputs chunk = [⟨chunk, lineage.stream⟩, ⟨chunk, lineage.state⟩] ∧
        lineage.predecessor.payload = .state := by
    rcases proper with rfl | rfl <;> exact ⟨rfl, rfl⟩
  have stores (encoded : Encoded) :
      (run.storeLineage lineage chunk encoded).Runs (run.Bears lineage.stage chunk) :=
    Job.Acts.bears (outputs ▸ acts_storeLineage lineage chunk encoded)
  cases chunk with
  | zero =>
    exact (acts_bitstream rfl).andThen fun _ => (acts_state rfl).andThen fun _ => stores _
  | succ previous =>
    exact (acts_state predecessor).andThen fun _ => (acts_bitstream rfl).andThen fun _ =>
      (acts_raw inside).andThen fun _ => bears_codec fun encoded => stores encoded

theorem bears_compute (barrier : stage.isSerial = false) (inside : chunk < run.count) :
    (run.compute stage chunk).Runs (run.Bears stage chunk) := by
  have stores {key : Key} (single : stage.outputs chunk = [key]) (artifact : Artifact) :
      (run.store key artifact).Runs (run.Bears stage chunk) := by
    refine Job.Acts.bears (single ▸ (acts_store (List.mem_singleton_self key) artifact).mono
      (fun _ => id) fun _ trace shown => ?_)
    exact List.forall_mem_singleton.mpr shown
  cases stage with
  | baselineEncode =>
    exact (acts_raw inside).andThen fun _ => bears_codec fun _ => stores rfl _
  | stateExtraction =>
    exact (acts_bitstream rfl).andThen fun _ => bears_codec fun _ => stores rfl _
  | encodeGivenStateV0 => exact bears_encodeLineage (.inl rfl) inside
  | encodeGivenStateV1 => exact bears_encodeLineage (.inr rfl) inside
  | rebase => cases barrier
  | merge => cases barrier

/-- **A task of a barrier stage** fails as its codec call did, and then it has stored nothing; and
unless an answer hinders it, it ends well and its outputs are filled. -/
theorem bears_barrierTask (barrier : stage.isSerial = false) (inside : chunk < run.count) :
    (run.barrierTask stage chunk).Runs (run.Bears stage chunk) := by
  refine bears_unlessStored (Job.Runs.bind ((bears_compute barrier inside).mono ?_))
  rintro (error | value) trace bears
  · exact bears.map fun _ => Outcome.completed
  · intro more result yields
    obtain ⟨rfl, rfl⟩ := Task.Yields.of_done yields
    rw [List.append_nil]
    exact bears.map fun _ => Outcome.completed

end Transcode.Run
