/-
**Codec calls of a run**, counted along its requests.

* `Job.Makes` relates a job to the values it can end in and the codec calls made on the way; a job
  that is followed by another is taken apart by `Job.Makes.bind`.
* `Stage.calls` is what the task of a chunk asks of the codec unless it is skipped: one call, or
  none where the first chunk takes over what it has. The tasks of the barrier stages
  (`makes_barrierTask`) and the steps of the chain (`makes_extend`) keep to it.
-/
import Transcode.Proofs.Run.Job
import Transcode.Run.Coordinator

namespace Transcode

/-- The codec calls that the task of a chunk makes unless it is skipped. -/
def Stage.calls : Stage → ChunkIndex → List Codec.Operation
  | .baselineEncode, _ => [.encode]
  | .stateExtraction, _ => [.decodeState]
  | _, 0 => []
  | .encodeGivenStateV0, _ + 1 | .encodeGivenStateV1, _ + 1 => [.encodeGivenState]
  | .rebase, _ + 1 => [.rebase]
  | .merge, _ + 1 => [.merge]

/-- The codec calls that a task with this outcome has made. -/
def Outcome.calls (stage : Stage) (chunk : ChunkIndex) : Outcome → List Codec.Operation
  | .completed => stage.calls chunk
  | .skipped => []

namespace Run

variable {α β : Type}

/-- The operations of the codec calls among requests. -/
def calls (trace : List (Exchange interface)) : List Codec.Operation :=
  trace.filterMap fun
    | ⟨.codec call, _⟩ => some call.operation
    | ⟨.ledger _, _⟩ => none

@[simp]
theorem calls_append (trace more : List (Exchange interface)) :
    calls (trace ++ more) = calls trace ++ calls more :=
  List.filterMap_append ..

theorem calls_flatMap (chunks : List ChunkIndex) (traces : ChunkIndex → List (Exchange interface)) :
    calls (chunks.flatMap traces) = chunks.flatMap fun chunk => calls (traces chunk) := by
  induction chunks with
  | nil => rfl
  | cons chunk rest ih => rw [List.flatMap_cons, List.flatMap_cons, calls_append, ih]

theorem perm_calls {trace more : List (Exchange interface)} (same : trace.Perm more) :
    (calls trace).Perm (calls more) :=
  same.filterMap _

namespace Job

/-- What can be said of the value of a job and of the codec calls that it has made. -/
def Makes (spec : α → List Codec.Operation → Prop) (job : Job α) : Prop :=
  ∀ trace value, job.run.Yields trace (.ok value) → spec value (calls trace)

/-- The job makes no codec calls. -/
abbrev Quiet (job : Job α) : Prop :=
  job.Makes fun _ made => made = []

variable {spec : α → List Codec.Operation → Prop}

theorem Makes.mono {weaker : α → List Codec.Operation → Prop} {job : Job α}
    (makes : job.Makes spec) (implies : ∀ value made, spec value made → weaker value made) :
    job.Makes weaker :=
  fun trace value yields => implies _ _ (makes trace value yields)

/-- **A job followed by another** makes the calls of both. -/
theorem Makes.bind {spec : β → List Codec.Operation → Prop} {job : Job α} {after : α → Job β}
    (makes : job.Makes fun value made =>
      (after value).Makes fun result more => spec result (made ++ more)) :
    (job >>= after).Makes spec := by
  intro trace result yields
  obtain ⟨first, second, middle, rfl, here, there⟩ := Task.Yields.of_bind yields
  cases middle with
  | error error => cases there
  | ok value =>
    rw [calls_append]
    exact makes first value here second result there

/-- Calls are made by the second job only. -/
theorem Quiet.bind {spec : β → List Codec.Operation → Prop} {job : Job α} {after : α → Job β}
    (quiet : job.Quiet) (makes : ∀ value, (after value).Makes spec) : (job >>= after).Makes spec :=
  Makes.bind (quiet.mono fun value _ nothing => nothing ▸ makes value)

theorem makes_pure {value : α} (holds : spec value []) : Makes spec (pure value) := by
  intro trace result yields
  cases yields
  exact holds

theorem makes_throw {error : RunError} : Makes spec (throw error) := by
  intro trace value yields
  cases yields

theorem quiet_ofExcept (result : Except RunError α) : Quiet (ofExcept result) := by
  intro trace value yields
  cases yields
  rfl

theorem quiet_interpret (op : Ledger.Op) (read : op.Answer → Except RunError α) :
    Quiet (interpret op read) := by
  intro trace value yields
  cases yields with
  | ask request answer rest =>
    obtain ⟨rfl, -⟩ := rest.of_done
    rfl

theorem makes_codec (call : Codec.Call) (blame : CodecError → RunError) :
    Makes (fun _ made => made = [call.operation]) (codec call blame) := by
  intro trace value yields
  cases yields with
  | ask request answer rest =>
    obtain ⟨rfl, -⟩ := rest.of_done
    rfl

end Job

/-! ### Jobs without calls -/

variable (run : Run)

theorem quiet_bitstream (chunk : ChunkIndex) (kind : Kind) : (bitstream chunk kind).Quiet :=
  (Job.quiet_interpret _ _).bind fun _ => Job.quiet_ofExcept _

theorem quiet_state (chunk : ChunkIndex) (kind : Kind) : (state chunk kind).Quiet :=
  (Job.quiet_interpret _ _).bind fun _ => Job.quiet_ofExcept _

theorem quiet_store (key : Key) (artifact : Artifact) : (run.store key artifact).Quiet := by
  unfold store
  split <;> exact Job.quiet_interpret _ _

theorem quiet_allStored (keys : List Key) : (allStored keys).Quiet := by
  induction keys with
  | nil => exact Job.makes_pure rfl
  | cons key rest ih =>
    refine (Job.quiet_interpret _ _).bind fun found => ?_
    cases found with
    | true => exact ih
    | false => exact Job.makes_pure rfl

theorem quiet_canSkip (keys : List Key) : (run.canSkip keys).Quiet := by
  unfold canSkip
  split
  · exact quiet_allStored keys
  · exact Job.makes_pure rfl

/-- Looking for stored outputs makes no calls. -/
theorem makes_unlessStored {spec : α → List Codec.Operation → Prop} {keys : List Key}
    {stored made : Job α} (takes : stored.Makes spec) (makes : made.Makes spec) :
    (run.canSkip keys >>= fun skips => if skips then stored else made).Makes spec := by
  refine (run.quiet_canSkip keys).bind fun skips => ?_
  cases skips with
  | true => exact takes
  | false => exact makes

theorem quiet_firstMissing (required : KeySet) : (firstMissing required).Quiet :=
  (Job.quiet_interpret _ _).bind fun _ => Job.makes_pure rfl

theorem quiet_storeLineage (lineage : Lineage) (chunk : ChunkIndex) (encoded : Encoded) :
    (run.storeLineage lineage chunk encoded).Quiet :=
  (run.quiet_store _ _).bind fun _ => run.quiet_store _ _

/-! ### Tasks -/

/-- A chunk in one of the lineages is one call, unless it is the first. -/
theorem makes_encodeLineage (lineage : Lineage) (chunk : ChunkIndex) :
    (run.encodeLineage lineage chunk).Makes fun _ made =>
      made = match chunk with
        | 0 => []
        | _ + 1 => [.encodeGivenState] := by
  cases chunk with
  | zero =>
    exact (quiet_bitstream _ _).bind fun _ => (quiet_state _ _).bind fun _ =>
      run.quiet_storeLineage lineage 0 _
  | succ previous =>
    refine (quiet_state _ _).bind fun predecessor => (quiet_bitstream _ _).bind fun predictor =>
      (Job.quiet_ofExcept _).bind fun raw => ?_
    refine Job.Makes.bind ((Job.makes_codec _ _).mono fun encoded made called => ?_)
    refine (run.quiet_storeLineage lineage _ encoded).mono fun _ more nothing => ?_
    rw [called, nothing]
    rfl

/-- **What the task of a barrier stage asks of the codec.** -/
theorem makes_compute (stage : Stage) (chunk : ChunkIndex) :
    (run.compute stage chunk).Makes fun _ made => made = stage.calls chunk := by
  cases stage with
  | baselineEncode =>
    refine (Job.quiet_ofExcept _).bind fun raw => ?_
    refine Job.Makes.bind ((Job.makes_codec _ _).mono fun stream made called => ?_)
    refine (run.quiet_store _ _).mono fun _ more nothing => ?_
    rw [called, nothing]
    rfl
  | stateExtraction =>
    refine (quiet_bitstream _ _).bind fun baseline => ?_
    refine Job.Makes.bind ((Job.makes_codec _ _).mono fun handle made called => ?_)
    refine (run.quiet_store _ _).mono fun _ more nothing => ?_
    rw [called, nothing]
    rfl
  | encodeGivenStateV0 =>
    exact (run.makes_encodeLineage .v0 chunk).mono fun _ made same => by cases chunk <;> exact same
  | encodeGivenStateV1 =>
    exact (run.makes_encodeLineage .v1 chunk).mono fun _ made same => by cases chunk <;> exact same
  | rebase => exact Job.makes_throw
  | merge => exact Job.makes_throw

/-- **A task of a barrier stage** makes the calls of its outcome. -/
theorem makes_barrierTask (stage : Stage) (chunk : ChunkIndex) :
    (run.barrierTask stage chunk).Makes fun outcome made => made = outcome.calls stage chunk := by
  refine run.makes_unlessStored (Job.makes_pure rfl) ?_
  refine Job.Makes.bind ((run.makes_compute stage chunk).mono fun _ made same => ?_)
  exact Job.makes_pure (by rw [same, List.append_nil]; rfl)

/-! ### The chain -/

theorem quiet_seed : run.seed.Quiet := by
  have state : run.takeOverState.Quiet :=
    run.makes_unlessStored ((quiet_state _ _).bind fun _ => Job.makes_pure rfl)
      ((quiet_state _ _).bind fun _ => (run.quiet_store _ _).bind fun _ => Job.makes_pure rfl)
  have stream : run.takeOverStream.Quiet :=
    run.makes_unlessStored ((quiet_bitstream _ _).bind fun _ => Job.makes_pure rfl)
      ((quiet_bitstream _ _).bind fun _ => (run.quiet_store _ _).bind fun _ => Job.makes_pure rfl)
  exact state.bind fun _ => stream.bind fun _ => Job.makes_pure rfl

theorem makes_rebaseOnto (previous : ChunkIndex) (newState : StateHandle) :
    (run.rebaseOnto previous newState).Makes fun result made =>
      made = result.2.calls .rebase (previous + 1) := by
  refine run.makes_unlessStored ((quiet_bitstream _ _).bind fun _ => (quiet_state _ _).bind fun _ =>
    Job.makes_pure rfl) ?_
  refine (quiet_state _ _).bind fun oldState => (quiet_bitstream _ _).bind fun predictor =>
    (Job.quiet_ofExcept _).bind fun raw => ?_
  refine Job.Makes.bind ((Job.makes_codec _ _).mono fun encoded made called => ?_)
  refine (run.quiet_store _ _).bind fun _ => (run.quiet_store _ _).bind fun _ => Job.makes_pure ?_
  rw [called]
  rfl

theorem makes_mergeOnto (previous : ChunkIndex) (output rebased : Bitstream) :
    (run.mergeOnto (previous + 1) output rebased).Makes fun result made =>
      made = result.2.calls .merge (previous + 1) := by
  refine run.makes_unlessStored ((quiet_bitstream _ _).bind fun _ => Job.makes_pure rfl) ?_
  refine Job.Makes.bind ((Job.makes_codec _ _).mono fun merged made called => ?_)
  refine (run.quiet_store _ _).bind fun _ => Job.makes_pure ?_
  rw [called]
  rfl

/-- **A step of the chain** makes the calls of its two outcomes. -/
theorem makes_extend (previous : ChunkIndex) (link : Link) :
    (run.extend previous link).Makes fun step made =>
      made = step.rebase.calls .rebase (previous + 1) ++
        step.merge.calls .merge (previous + 1) := by
  refine Job.Makes.bind
    ((run.makes_rebaseOnto previous link.state).mono fun rebased made first => ?_)
  refine Job.Makes.bind ((run.makes_mergeOnto previous _ _).mono fun merged more second => ?_)
  refine Job.makes_pure ?_
  rw [first, second, List.append_nil]

end Run

end Transcode
