/-
**The serial chain**, over slots that are done as far as the chain has come.

* Whether an artifact is taken from its slot or computed anew, the chain goes on with what belongs
  in that slot (`promises_takeOverState`, `promises_takeOverStream`, `promises_rebaseOnto`,
  `promises_mergeOnto`), so each link is the one of its row (`Blueprint.Linked`).
* `delivers_chain` takes the chain from its seed to the last chunk.
-/
import Transcode.Proofs.Run.Barriers

namespace Transcode

namespace Blueprint

open Run

variable {blueprint : Blueprint} {ledger : MemoryLedger} {done : Key → Prop}

/-- What the chain hands on after the chunk, by the rows. -/
structure Linked (blueprint : Blueprint) (chunk : ChunkIndex) (link : Link) : Prop where
  state : link.state = (blueprint.rows chunk).rebased.state
  output : link.output = (blueprint.rows chunk).merged

theorem slots_of_lt {chunk : ChunkIndex} {kind : Kind} (inside : chunk < blueprint.run.count)
    (present : (⟨chunk, kind⟩ : Key) ≠ ⟨0, .rebased⟩) : blueprint.slots ⟨chunk, kind⟩ :=
  mem_runKeys_iff.mpr ⟨inside, present⟩

/-- A slot that is filled anyway is done. -/
theorem Standing.adds {key : Key} (standing : blueprint.Standing done ledger)
    (filled : blueprint.Filled key (ledger.get? key)) :
    blueprint.Standing (fun other => done other ∨ other = key) ledger where
  filled other inside finished := by
    rcases finished with finished | rfl
    · exact standing.filled other inside finished
    · exact filled
  vacant other inside unfinished :=
    standing.vacant other inside fun finished => unfinished (.inl finished)

/-- **A task of the chain** takes its outputs from their slots, where it finds them all filled, or
makes them. -/
theorem promises_unlessStored {α : Type} {keys : List Key}
    (mine : ∀ key ∈ keys, blueprint.slots key) (fresh : ∀ key ∈ keys, ¬ done key)
    {stored made : Job α} {statement : α → MemoryLedger → Prop}
    (standing : blueprint.Standing done ledger)
    (takes : ∀ later, (∀ key ∈ keys, blueprint.Filled key (later.get? key)) →
      blueprint.Standing done later →
      blueprint.Promises blueprint.slots blueprint.slots statement stored later)
    (makes : ∀ later, blueprint.Standing done later →
      blueprint.Promises blueprint.slots blueprint.slots statement made later) :
    blueprint.Promises blueprint.slots blueprint.slots statement
      (blueprint.run.canSkip keys >>= fun skips => if skips then stored else made) ledger := by
  refine Job.Ensures.bind (promises_canSkip mine
    (fun key member => standing.vacant key (mine key member) (fresh key member))
    fun later skips allowed filled => ?_)
  cases skips with
  | true => exact takes later (filled rfl) (standing.later allowed)
  | false => exact makes later (standing.later allowed)

/-! ### The first chunk -/

/-- **The first chunk hands an artifact on** as it is, whatever kind of artifact is loaded. -/
theorem promises_takeOver {β : Type} {source target : Key} {value : β} {wrap : β → Artifact}
    {load : Key → Job β}
    (loads : ∀ {key : Key} {ledger : MemoryLedger} {statement : β → MemoryLedger → Prop},
      blueprint.Filled key (ledger.get? key) → blueprint.slot key = some (wrap value) →
      (∀ later, (blueprint.conduct blueprint.slots blueprint.slots).rely ledger later →
        statement value later) →
      blueprint.Promises blueprint.slots blueprint.slots statement (load key) ledger)
    (mine : blueprint.slots target) (here : blueprint.slot target = some (wrap value))
    (earned : ∀ raw, blueprint.Earned raw target) (inside : blueprint.slots source)
    (there : blueprint.slot source = some (wrap value))
    (standing : blueprint.Standing done ledger) (read : done source) (fresh : ¬ done target) :
    blueprint.Promises blueprint.slots blueprint.slots
      (fun result later => result.1 = value ∧
        blueprint.Standing (fun key => done key ∨ key = target) later)
      (blueprint.run.canSkip [target] >>= fun skips =>
        if skips then load target >>= fun value => pure (value, Outcome.skipped)
        else load source >>= fun value => blueprint.run.store target (wrap value) >>= fun _ =>
          pure (value, Outcome.completed)) ledger := by
  refine promises_unlessStored (by simpa using mine) (by simpa using fresh) standing
    (fun later filled reached => ?_) fun later reached => ?_
  · have filled := filled _ (List.mem_singleton_self _)
    refine Job.Ensures.bind (loads filled here fun final first => ?_)
    exact Job.ensures_pure fun last second =>
      ⟨rfl, ((reached.adds filled).later first).later second⟩
  · refine Job.Ensures.bind (loads (reached.filled _ inside read) there fun final first => ?_)
    have vacant := (reached.later first).vacant _ mine fresh
    refine Job.Ensures.bind (promises_store mine mine here (fun raw _ => earned raw) vacant
      fun last stored => ?_)
    exact Job.ensures_pure fun latest more =>
      ⟨rfl, ((reached.later first).fills stored).later more⟩

/-- The final state of the first chunk is the one that the second lineage left. -/
theorem promises_takeOverState {raw : RawChunk} (found : blueprint.run.chunks[0]? = some raw)
    (standing : blueprint.Standing done ledger) (read : done ⟨0, .encodeV1State⟩)
    (fresh : ¬ done ⟨0, .rebasedState⟩) :
    blueprint.Promises blueprint.slots blueprint.slots
      (fun result later => result.1 = (blueprint.rows 0).rebased.state ∧
        blueprint.Standing (fun key => done key ∨ key = ⟨0, .rebasedState⟩) later)
      blueprint.run.takeOverState ledger := by
  have inside : 0 < blueprint.run.count := (List.getElem?_eq_some_iff.mp found).1
  have same := (blueprint.recurrence.opens raw found).rebasedState
  have earned (raw : RawChunk) : blueprint.Earned raw ⟨0, .rebasedState⟩ := trivial
  exact promises_takeOver promises_state (slots_of_lt inside (by decide)) rfl earned
    (slots_of_lt inside (by decide)) (congrArg (some ∘ Artifact.state) same.symm) standing read
    fresh

/-- The output opens with the stream that the second lineage made of the first chunk. -/
theorem promises_takeOverStream {raw : RawChunk} (found : blueprint.run.chunks[0]? = some raw)
    (standing : blueprint.Standing done ledger) (read : done ⟨0, .encodeV1⟩)
    (fresh : ¬ done ⟨0, .merged⟩) :
    blueprint.Promises blueprint.slots blueprint.slots
      (fun result later => result.1 = (blueprint.rows 0).merged ∧
        blueprint.Standing (fun key => done key ∨ key = ⟨0, .merged⟩) later)
      blueprint.run.takeOverStream ledger := by
  have inside : 0 < blueprint.run.count := (List.getElem?_eq_some_iff.mp found).1
  have same := (blueprint.recurrence.opens raw found).merged
  have earned (raw : RawChunk) : blueprint.Earned raw ⟨0, .merged⟩ := trivial
  exact promises_takeOver promises_bitstream (slots_of_lt inside (by decide)) rfl earned
    (slots_of_lt inside (by decide)) (congrArg (some ∘ Artifact.bitstream) same.symm) standing
    read fresh

/-! ### A chunk after another -/

/-- A chunk is rebased onto the final state of the chunk before it. -/
theorem promises_rebaseOnto {previous : ChunkIndex} {raw : RawChunk}
    (found : blueprint.run.chunks[previous + 1]? = some raw)
    (standing : blueprint.Standing done ledger) (state : done ⟨previous, .encodeV0State⟩)
    (predictor : done ⟨previous + 1, .encodeV1⟩) (stream : ¬ done ⟨previous + 1, .rebased⟩)
    (final : ¬ done ⟨previous + 1, .rebasedState⟩) :
    blueprint.Promises blueprint.slots blueprint.slots
      (fun result later => result.1 = (blueprint.rows (previous + 1)).rebased ∧
        blueprint.Standing (fun key => (done key ∨ key = ⟨previous + 1, .rebased⟩) ∨
          key = ⟨previous + 1, .rebasedState⟩) later)
      (blueprint.run.rebaseOnto previous (blueprint.rows previous).rebased.state) ledger := by
  have inside : previous + 1 < blueprint.run.count := (List.getElem?_eq_some_iff.mp found).1
  have first : blueprint.slots ⟨previous + 1, .rebased⟩ := slots_of_lt inside (by simp)
  have second : blueprint.slots ⟨previous + 1, .rebasedState⟩ := slots_of_lt inside (by simp)
  have old : blueprint.slots ⟨previous, .encodeV0State⟩ :=
    slots_of_lt (Nat.lt_of_succ_lt inside) (by simp)
  have own : blueprint.slots ⟨previous + 1, .encodeV1⟩ := slots_of_lt inside (by simp)
  have outputs : Stage.rebase.outputs (previous + 1) =
    [⟨previous + 1, .rebased⟩, ⟨previous + 1, .rebasedState⟩] := rfl
  refine promises_unlessStored ?_ ?_ standing (fun later filled reached => ?_)
    fun later reached => ?_
  · simpa [outputs] using And.intro first second
  · simpa [outputs] using And.intro stream final
  · have left : blueprint.Filled ⟨previous + 1, .rebased⟩ _ := filled _ (by simp [outputs])
    have right : blueprint.Filled ⟨previous + 1, .rebasedState⟩ _ := filled _ (by simp [outputs])
    refine Job.Ensures.bind (promises_bitstream left rfl fun middle one => ?_)
    refine Job.Ensures.bind (promises_state ((one _).1 right) rfl fun last two => ?_)
    exact Job.ensures_pure fun latest three =>
      ⟨rfl, ((((reached.adds left).adds right).later one).later two).later three⟩
  · refine Job.Ensures.bind (promises_state (reached.filled _ old state) rfl fun middle one => ?_)
    have reached := reached.later one
    refine Job.Ensures.bind (promises_bitstream (reached.filled _ own predictor) rfl
      fun last two => ?_)
    have reached := reached.later two
    refine Job.Ensures.bind (Job.ensures_ok (raw_eq_ok found) fun third three => ?_)
    have reached := reached.later three
    refine Job.Ensures.bind (promises_call
      (blueprint.recurrence.continues previous raw found).rebased fun fourth four answered => ?_)
    have reached := reached.later four
    refine Job.Ensures.bind (promises_store first first rfl (Earned.of_found answered found)
      (reached.vacant _ first stream) fun fifth stored => ?_)
    have reached := reached.fills stored
    refine Job.Ensures.bind (promises_store second second rfl (Earned.of_found answered found)
      (reached.vacant _ second (by simpa using final)) fun sixth kept => ?_)
    exact Job.ensures_pure fun latest more => ⟨rfl, (reached.fills kept).later more⟩

/-- The rebased stream is appended to the output of the chunk before it. -/
theorem promises_mergeOnto {previous : ChunkIndex} {raw : RawChunk}
    (found : blueprint.run.chunks[previous + 1]? = some raw)
    (standing : blueprint.Standing done ledger) (fresh : ¬ done ⟨previous + 1, .merged⟩) :
    blueprint.Promises blueprint.slots blueprint.slots
      (fun result later => result.1 = (blueprint.rows (previous + 1)).merged ∧
        blueprint.Standing (fun key => done key ∨ key = ⟨previous + 1, .merged⟩) later)
      (blueprint.run.mergeOnto (previous + 1) (blueprint.rows previous).merged
        (blueprint.rows (previous + 1)).rebased.stream) ledger := by
  have inside : previous + 1 < blueprint.run.count := (List.getElem?_eq_some_iff.mp found).1
  have mine : blueprint.slots ⟨previous + 1, .merged⟩ := slots_of_lt inside (by simp)
  refine promises_unlessStored (by simpa using mine) (by simpa using fresh) standing
    (fun later filled reached => ?_) fun later reached => ?_
  · have filled := filled _ (List.mem_singleton_self _)
    refine Job.Ensures.bind (promises_bitstream filled rfl fun final first => ?_)
    exact Job.ensures_pure fun last second =>
      ⟨rfl, ((reached.adds filled).later first).later second⟩
  · refine Job.Ensures.bind (promises_call
      (blueprint.recurrence.continues previous raw found).merged fun final first answered => ?_)
    have reached := reached.later first
    refine Job.Ensures.bind (promises_store mine mine rfl (Earned.of_found answered found)
      (reached.vacant _ mine fresh) fun last stored => ?_)
    exact Job.ensures_pure fun latest more => ⟨rfl, (reached.fills stored).later more⟩

/-! ### The chain -/

/-- What is done once the chain has come through that many chunks. -/
def chained (count : Nat) (key : Key) : Prop :=
  key.kind.stage.isSerial = false ∨ key.chunk < count

/-- **The seed of the chain.** -/
theorem promises_seed {raw : RawChunk} (found : blueprint.run.chunks[0]? = some raw)
    (standing : blueprint.Standing (chained 0) ledger) :
    blueprint.Promises blueprint.slots blueprint.slots
      (fun step later => blueprint.Linked 0 step.link ∧ blueprint.Standing (chained 1) later)
      blueprint.run.seed ledger := by
  refine Job.Ensures.andThen (promises_takeOverState found standing (.inl rfl) ?_) ?_
  · simp [chained, Kind.stage, Stage.isSerial]
  rintro ⟨state, rebase⟩ later ⟨rfl, reached⟩
  refine Job.Ensures.andThen (promises_takeOverStream found reached (.inl (.inl rfl)) ?_) ?_
  · simp [chained, Kind.stage, Stage.isSerial]
  rintro ⟨output, merge⟩ final ⟨rfl, finished⟩
  refine Job.ensures_pure fun last more =>
    ⟨⟨rfl, rfl⟩, (finished.later more).congr fun key mine => ?_⟩
  obtain ⟨_, present⟩ := mem_runKeys_iff.mp mine
  obtain ⟨chunk, kind⟩ := key
  cases kind <;> simp_all [chained, Kind.stage, Stage.isSerial]

/-- **One more chunk.** -/
theorem promises_extend {previous : ChunkIndex} {raw : RawChunk}
    (found : blueprint.run.chunks[previous + 1]? = some raw) {link : Link}
    (linked : blueprint.Linked previous link)
    (standing : blueprint.Standing (chained (previous + 1)) ledger) :
    blueprint.Promises blueprint.slots blueprint.slots
      (fun step later => blueprint.Linked (previous + 1) step.link ∧
        blueprint.Standing (chained (previous + 2)) later)
      (blueprint.run.extend previous link) ledger := by
  obtain ⟨state, output⟩ := link
  obtain ⟨rfl, rfl⟩ := linked
  refine Job.Ensures.andThen (promises_rebaseOnto found standing (.inl rfl) (.inl rfl) ?_ ?_) ?_
  · simp [chained, Kind.stage, Stage.isSerial]
  · simp [chained, Kind.stage, Stage.isSerial]
  rintro ⟨encoded, rebase⟩ later ⟨rfl, reached⟩
  refine Job.Ensures.andThen (promises_mergeOnto found reached ?_) ?_
  · simp [chained, Kind.stage, Stage.isSerial]
  rintro ⟨output, merge⟩ final ⟨rfl, finished⟩
  refine Job.ensures_pure fun last more =>
    ⟨⟨rfl, rfl⟩, (finished.later more).congr fun key mine => ?_⟩
  obtain ⟨chunk, kind⟩ := key
  have last : chunk < previous + 2 ↔ chunk < previous + 1 ∨ chunk = previous + 1 :=
    Nat.lt_succ_iff_lt_or_eq
  cases kind <;> simp [chained, Kind.stage, Stage.isSerial, last]

/-- The chain over the chunks that remain. -/
theorem delivers_chainFrom {previous remaining : Nat}
    (inside : previous + remaining < blueprint.run.count) {first : ChainStep}
    (linked : blueprint.Linked previous first.link)
    (standing : blueprint.Standing (chained (previous + 1)) ledger) :
    blueprint.Delivers blueprint.slots blueprint.slots
      (fun rest later => blueprint.Linked (previous + remaining) (rest.getLastD first).link ∧
        blueprint.Standing (chained (previous + remaining + 1)) later)
      (blueprint.run.chainFrom previous first.link remaining) ledger := by
  induction remaining generalizing previous first ledger with
  | zero => exact Plan.ensures_pure fun later allowed => ⟨linked, standing.later allowed⟩
  | succ remaining ih =>
    have below : previous + 1 < blueprint.run.count := by omega
    have found := List.getElem?_eq_getElem below
    refine Delivers.bind (Plan.ensures_checkCancelled (fun later begun => ?_) fun fires _ _ =>
      blueprint.interruptible fires _)
    refine Delivers.andThen (delivers_ofJob (promises_extend found linked
      (standing.later begun))) ?_
    rintro step final ⟨onward, reached⟩
    have around : previous + (remaining + 1) = previous + 1 + remaining := by omega
    rw [around] at inside ⊢
    refine Delivers.andThen (ih inside onward reached) ?_
    rintro rest last ⟨latest, finished⟩
    refine Plan.ensures_pure fun later more => ⟨?_, finished.later more⟩
    rwa [List.getLastD_cons]

/-- **The whole chain** fills what the barrier stages have left, and its output is the merged
stream of the last chunk. -/
theorem delivers_chain {last : Nat} (count : blueprint.run.count = last + 1)
    (standing : blueprint.Standing (chained 0) ledger) :
    blueprint.Delivers blueprint.slots blueprint.slots
      (fun result later => result.output = (blueprint.rows last).merged ∧
        blueprint.Standing (fun _ => True) later)
      blueprint.run.chain ledger := by
  have required {key : Key} (member : key ∈ chainInputs blueprint.run.count) :
      key.kind.stage.isSerial = false ∧ blueprint.slots key ∧ key ≠ ⟨0, .rebased⟩ := by
    obtain ⟨barrier, chunk, inside, read⟩ := mem_chainInputs.mp member
    obtain ⟨before, present⟩ := read.elim Stage.le_of_mem_inputs Stage.le_of_mem_inputs
    exact ⟨barrier, mem_runKeys_iff.mpr ⟨Nat.lt_of_le_of_lt before inside, present⟩, present⟩
  rw [chain_eq]
  refine delivers_requiring (fun key member => ?_) (fun key member => (required member).2.2)
    fun later begun => ?_
  · exact standing.filled key (required member).2.1 (.inl (required member).1)
  have found : blueprint.run.chunks[0]? = some _ :=
    List.getElem?_eq_getElem (by rw [← Run.count, count]; exact Nat.succ_pos last)
  refine Delivers.andThen (delivers_ofJob (promises_seed found (standing.later begun))) ?_
  rintro first middle ⟨linked, reached⟩
  refine Delivers.andThen (delivers_chainFrom (by omega) linked reached) ?_
  rintro rest final ⟨onward, finished⟩
  have whole : 0 + (blueprint.run.count - 1) = last := by omega
  rw [whole] at onward finished
  refine Plan.ensures_pure fun latest more => ⟨onward.output, (finished.later more).congr ?_⟩
  intro key mine
  have below := (mem_runKeys_iff.mp mine).1
  rw [count] at below
  exact ⟨fun _ => trivial, fun _ => .inr below⟩

end Blueprint

end Transcode
