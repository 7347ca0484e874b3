/-
**The look before a stage is exact** over the ledger in memory. A barrier stage and the chain both
say beforehand which slots they read. If one of these is empty they say which, and do nothing else;
and if none is, no task of theirs ever comes upon an empty slot.

* `growing` is the conduct of all who leave filled slots filled; in it the ledger in memory is in
  good hands (`custody_growing`).
* `Plan.FindsAll` holds of a plan that never fails for an empty slot: a barrier stage and the chain
  over filled inputs (`findsAll_stagePlan`, `findsAll_chain`), and a whole run (`findsAll_plan`).
* `stops_requiring` — where something is missing, a plan ends before it has done anything.
* `Run.looks_exactly` puts the two together.
-/
import Transcode.Proofs.Run.Advance
import Transcode.Proofs.Run.Precheck
import Transcode.Proofs.Schedule.Drive
import Transcode.Proofs.Schedule.Termination

namespace Transcode

namespace Run

variable {α β : Type} {run : Run} {required : Key → Prop} {ledger : MemoryLedger}

/-! ### Good hands -/

/-- Filled slots stay filled. -/
def growing : Conduct MemoryLedger where
  rely ledger later := ∀ key, ledger.Has key → later.Has key
  guarantee ledger later := ∀ key, ledger.Has key → later.Has key
  rely_refl _ _ := id
  rely_trans first second key held := second key (first key held)
  guarantee_refl _ _ := id

/-- **The ledger in memory is in good hands** with all who leave filled slots filled, and it is
exact. -/
theorem custody_growing (answers : (call : Codec.Call) → call.Answer → Prop) :
    Custody (Serves answers) growing (fun key ledger => ledger.Has key) True where
  stays allowed key held := allowed key held
  relies := id
  keeps serves request ledger key held := by
    cases request with
    | codec call => rwa [serves.quiet]
    | ledger op =>
      rw [serves.change]
      exact held.answer op
  found serves op ledger slot missing := by
    rw [serves.ledger] at missing
    cases op with
    | contains key => cases missing
    | keys => cases missing
    | get key =>
      refine ⟨key, rfl, fun held => ?_⟩
      obtain ⟨artifact, found⟩ := MemoryLedger.has_iff_exists.mp held
      rw [MemoryLedger.answer_get_of_some found] at missing
      cases missing
    | put key artifact =>
      rcases ledger.answer_put_cases key artifact with same | ⟨-, same⟩ | same <;>
        rw [same] at missing <;> cases missing
    | overwrite key artifact =>
      rcases ledger.answer_overwrite_cases key artifact with same | same <;>
        rw [same] at missing <;> cases missing
  shows _ service serves key ledger seen := by
    rw [serves.ledger] at seen
    exact Except.ok.inj seen
  puts _ service serves key artifact ledger stored := by
    rw [serves.change]
    rw [serves.ledger] at stored
    rcases ledger.answer_put_cases key artifact with same | ⟨held, same⟩ | same
    · rw [same] at stored
      rcases stored with stored | ⟨slot, stored⟩ <;> cases stored
    · exact held.answer _
    · rw [same]
      exact MemoryLedger.has_insert.mpr (.inl rfl)
  overwrites _ service serves key artifact ledger stored := by
    rw [serves.change]
    rw [serves.ledger] at stored
    rcases ledger.answer_overwrite_cases key artifact with same | same
    · rw [same] at stored
      cases stored
    · rw [same]
      exact MemoryLedger.has_insert.mpr (.inl rfl)

/-! ### Parts of a run that find what they read -/

/-- A plan that never fails for an empty slot, and leaves the slots filled. -/
abbrev Plan.FindsAll (keys : Key → Prop) (plan : Plan α) (ledger : MemoryLedger) : Prop :=
  plan.Secures (serving AnyAnswer) growing (fun key ledger => ledger.Has key) (fun _ => keys) ledger

theorem Plan.FindsAll.andThen {keys further : Key → Prop} {plan : Plan α} {after : α → Plan β}
    (finds : plan.FindsAll keys ledger)
    (onward : ∀ value later, (∀ key, keys key → later.Has key) →
      (after value).FindsAll further later) : (plan >>= after).FindsAll further ledger :=
  Plan.Ensures.bind (fun _ _ _ _ => id)
    (Plan.Ensures.mono finds (fun value later _ kept => onward value later kept) fun _ _ => id)

theorem Plan.FindsAll.mono {keys fewer : Key → Prop} {plan : Plan α}
    (finds : plan.FindsAll keys ledger) (within : ∀ key, fewer key → keys key) :
    plan.FindsAll fewer ledger :=
  Plan.Ensures.mono finds (fun _ _ _ kept key mine => kept key (within key mine)) fun _ _ => id

theorem Job.Secures.findsAll {keys : Key → Prop} {job : Job α}
    (secures : job.Secures (Serves AnyAnswer) growing (fun key ledger => ledger.Has key)
      (fun _ => keys) ledger) : (Plan.ofJob job).FindsAll keys ledger := by
  have asPlan : (Plan.ofJob job).Ensures (serving AnyAnswer) growing _ _ ledger :=
    Plan.ensures_ofJob secures
  exact asPlan.mono (fun _ _ _ holds => holds.1) fun _ _ => id

section Finding

variable (kept : ∀ key, required key → ledger.Has key)
include kept

theorem findsAll_pure (value : α) : (pure value : Plan α).FindsAll required ledger :=
  Plan.ensures_pure fun _ allowed key needed => allowed key (kept key needed)

theorem findsAll_checkCancelled (stage : Stage) :
    (Plan.checkCancelled stage).FindsAll required ledger :=
  Plan.ensures_checkCancelled (fun _ allowed key needed => allowed key (kept key needed))
    fun _ _ _ _ same => by cases same

/-- Where all that is required is filled, the look before a plan finds nothing missing. -/
theorem findsAll_requiring {keys : Key → Prop} {needed : KeySet} {plan : Plan α}
    (within : ∀ key ∈ needed, required key)
    (finds : ∀ later, (∀ key, required key → later.Has key) → plan.FindsAll keys later) :
    (Plan.requiring needed plan).FindsAll keys ledger := by
  have lists : (Job.ledger .keys).Ensures (Serves AnyAnswer) growing
      (fun existing later => needed.firstMissing existing = none ∧
        ∀ key, required key → later.Has key) (fun error _ => error.IsFound) ledger := by
    refine Job.ensures_interpret fun later allowed service serves => ?_
    rw [serves.change, serves.ledger]
    refine ⟨fun _ => id, fun final more =>
      ⟨?_, fun key mine => more key (allowed key (kept key mine))⟩⟩
    exact MemoryLedger.firstMissing_keys_eq_none.mpr fun key member =>
      allowed key (kept key (within key member))
  have looks : (firstMissing needed).Ensures (Serves AnyAnswer) growing
      (fun found later => found = none ∧ ∀ key, required key → later.Has key)
      (fun error _ => error.IsFound) ledger :=
    lists.andThen fun existing later ⟨nothing, kept⟩ => Job.ensures_pure fun final more =>
      ⟨nothing, fun key mine => more key (kept key mine)⟩
  have asPlan : (Plan.ofJob (firstMissing needed)).Ensures (serving AnyAnswer) growing _ _ ledger :=
    Plan.ensures_ofJob looks
  refine Plan.Ensures.bind (fun _ _ _ _ => id) (asPlan.mono ?_ fun _ _ => id)
  rintro _ later _ ⟨⟨rfl, kept⟩, -⟩
  exact finds later kept

/-- **A barrier stage** over filled inputs fills its outputs, or fails for another reason than an
empty slot. -/
theorem findsAll_stagePlan {stage : Stage} (barrier : stage.isSerial = false)
    (needed : ∀ key ∈ stage.barrierInputs run.count, required key) :
    (run.stagePlan stage).FindsAll (fun key => required key ∨ FilledBy run stage key) ledger := by
  rw [stagePlan_eq run barrier]
  refine findsAll_requiring kept needed fun later kept => ?_
  have custody : Custody (serving AnyAnswer).services growing _ True := custody_growing AnyAnswer
  refine Plan.FindsAll.mono (secures_pool custody needed kept) fun key => Or.imp_right ?_
  rintro ⟨present, rfl, inside⟩
  exact ⟨trivial, key.chunk, inside, mem_outputs_iff.mpr ⟨rfl, rfl, present⟩⟩

/-- The chain over the chunks that remain. -/
theorem findsAll_chainFrom {previous : ChunkIndex} {remaining : Nat} {link : Link}
    (length : previous + 1 + remaining = run.count)
    (needed : ∀ key ∈ chainInputs run.count, required key) :
    (run.chainFrom previous link remaining).FindsAll required ledger := by
  induction remaining generalizing previous link ledger with
  | zero => exact findsAll_pure kept _
  | succ remaining ih =>
    have inside : previous + 1 < run.count := by
      simp only [ChunkIndex] at *
      omega
    have old : required ⟨previous, .encodeV0State⟩ :=
      needed _ (mem_chainInputs.mpr ⟨rfl, previous + 1, inside, .inl (by simp [Stage.inputs])⟩)
    have stream : required ⟨previous + 1, .encodeV1⟩ :=
      needed _ (mem_chainInputs.mpr ⟨rfl, previous + 1, inside, .inl (by simp [Stage.inputs])⟩)
    refine (findsAll_checkCancelled kept .rebase).andThen fun _ later kept => ?_
    refine Plan.FindsAll.andThen (Job.Secures.findsAll
      (secures_extend (custody_growing AnyAnswer) kept trivial old stream))
      fun step final kept => ?_
    refine (ih kept (by simp only [ChunkIndex] at *; omega)).andThen fun rest last kept => ?_
    exact findsAll_pure kept _

/-- **The chain** over filled inputs never fails for an empty slot. -/
theorem findsAll_chain (nonempty : 0 < run.count)
    (needed : ∀ key ∈ chainInputs run.count, required key) :
    run.chain.FindsAll required ledger := by
  rw [chain_eq]
  refine findsAll_requiring kept needed fun later kept => ?_
  have seeds (kind : Kind) (either : kind ∈ [Kind.encodeV1State, .encodeV1]) :
      required ⟨0, kind⟩ := by
    refine needed _ (mem_chainInputs.mpr ⟨?_, 0, nonempty, ?_⟩) <;>
      rcases List.mem_cons.mp either with rfl | last <;>
      simp_all [Stage.inputs, Kind.stage, Stage.isSerial]
  refine Plan.FindsAll.andThen (Job.Secures.findsAll
    (secures_seed (custody_growing AnyAnswer) kept trivial seeds)) fun first final kept => ?_
  have length : 0 + 1 + (run.count - 1) = run.count := by
    rw [Nat.zero_add, Nat.add_comm, Nat.sub_add_cancel nonempty]
  refine (findsAll_chainFrom kept length needed).andThen fun rest last kept => ?_
  exact findsAll_pure kept _

end Finding

/-- **Barrier stages in their order** find what they read, whatever was there before. -/
theorem findsAll_stagePlans {stages : List Stage} (start : Nat)
    (order : stages.map Stage.place = List.range' start stages.length)
    (barriers : ∀ stage ∈ stages, stage.isSerial = false)
    (kept : ∀ key, Passed run.count start key → ledger.Has key) :
    (run.stagePlans stages).FindsAll (Passed run.count (start + stages.length)) ledger := by
  induction stages generalizing start ledger with
  | nil => exact findsAll_pure kept _
  | cons stage rest ih =>
    obtain ⟨rfl, further⟩ := List.cons.inj order
    have barrier := barriers stage List.mem_cons_self
    refine (findsAll_stagePlan kept barrier fun key => passed_of_mem_barrierInputs barrier).andThen
      fun summary later kept => ?_
    refine (ih (stage.place + 1) further (fun other member =>
      barriers other (List.mem_cons_of_mem _ member)) fun key passed =>
        kept key (passed_succ_iff.mp passed)).andThen fun summaries final kept => ?_
    rw [List.length_cons, Nat.add_comm rest.length, ← Nat.add_assoc]
    exact findsAll_pure kept _

/-- **A run never fails for an empty slot**, whatever its ledger holds. -/
theorem findsAll_plan (run : Run) (ledger : MemoryLedger) :
    run.plan.FindsAll (fun _ => False) ledger := by
  unfold plan
  cases count : run.count with
  | zero => exact Plan.ensures_throw fun _ _ _ same => by cases same
  | succ last =>
    refine (findsAll_stagePlans 0 rfl (fun stage => Stage.mem_barriers.mp)
      fun key passed => by simp [Passed] at passed).andThen fun summaries later kept => ?_
    refine (findsAll_checkCancelled kept .rebase).andThen fun _ middle kept => ?_
    refine (findsAll_chain kept (count ▸ Nat.succ_pos last) fun key member =>
      passed_of_mem_chainInputs member).andThen fun chained final kept => ?_
    exact findsAll_pure (fun _ => False.elim) _

/-! ### The look itself -/

variable {world world' : World MemoryLedger} {trace : List (Exchange interface)}

/-- A look at the list of slots, and what follows if one is missing. -/
theorem exists_requiring_run (needed : KeySet) (plan : Plan α) :
    ∃ next, (Plan.requiring needed plan).run = .ask (.ledger .keys) next ∧
      ∀ existing key, needed.firstMissing existing = some key →
        next (.ok existing) = .done (.error (.notFound key)) := by
  rw [Plan.requiring_eq]
  refine ⟨_, rfl, fun existing key missing => ?_⟩
  show ((needed.firstMissing existing).elim plan fun key => throw (.notFound key)).run = _
  rw [missing]
  rfl

/-- **Where something is missing, nothing is done**: the slots are listed, and that is all. -/
theorem stops_requiring {needed : KeySet} {plan : Plan α} {key : Key}
    (missing : needed.firstMissing world.state.keys = some key)
    {flow : Flow interface (Except RunError α)}
    (path : Flow.Path (serving AnyAnswer) Eq (Plan.requiring needed plan).run world trace flow
      world') :
    world'.state = world.state ∧ (∀ exchange ∈ trace, exchange.1 = .ledger .keys) ∧
      ∀ result, flow = .done result → result = .error (.notFound key) := by
  obtain ⟨next, shape, ends⟩ := exists_requiring_run needed plan
  rw [shape] at path
  suffices world'.state = world.state ∧ (∀ exchange ∈ trace, exchange.1 = .ledger .keys) ∧
      (flow = .ask (.ledger .keys) next ∨ flow = .done (.error (.notFound key))) by
    refine this.imp_right (And.imp_right ?_)
    rintro (rfl | rfl) result same
    · cases same
    · exact (Flow.done.inj same).symm
  induction path with
  | start => exact ⟨rfl, List.forall_mem_nil _, .inl rfl⟩
  | disturb _ same _ ih => exact ⟨same.symm.trans ih.1, ih.2⟩
  | step _ step ih =>
    obtain ⟨same, asked, rfl | rfl⟩ := ih
    · cases step with
      | @ask _ _ _ service serves =>
        have serves : Serves AnyAnswer service := serves
        refine ⟨(serves.change .keys _).trans same, fun exchange member => ?_, .inr ?_⟩
        · rcases List.mem_append.mp member with before | now
          · exact asked exchange before
          · rw [List.mem_singleton.mp now]
        · refine (congrArg next (serves.ledger .keys _)).trans (ends _ key ?_)
          rw [same]
          exact missing
    · cases step

/-- Some service answers. -/
theorem exists_serves : ∃ service, (serving AnyAnswer).services service :=
  ⟨inMemory .verbatim, serves_service fun _ => trivial⟩

/-! ### What a run reports -/

/-- **The result reports an empty slot just if one that is needed is empty**, and then the least of
those. -/
def ReportsMissing (needed : KeySet) (ledger : MemoryLedger) (result : Except RunError α) : Prop :=
  ((∃ key, result = .error (.notFound key)) ↔ ∃ key ∈ needed, ¬ ledger.Has key) ∧
  ∀ key, result = .error (.notFound key) → key ∈ needed ∧ ¬ ledger.Has key ∧
    ∀ other ∈ needed, ¬ ledger.Has other → other = key ∨ key.lt other = true

/-- **A plan that looks exactly** at what it needs before it does anything. -/
structure LooksExactly (needed : KeySet) (plan : Plan α) (world : World MemoryLedger) : Prop where
  /-- It ends under every schedule. -/
  ends : Flow.EndsIn (Serves AnyAnswer)
    (fun result _ => ReportsMissing needed world.state result) plan.run world
  /-- Whenever the token fires, its result reports what is missing. -/
  reports : ∀ trace result world',
    Flow.Path (serving AnyAnswer) Eq plan.run world trace (.done result) world' →
      ReportsMissing needed world.state result
  /-- Where something is missing, the ledger is never changed and the codec is never called. -/
  untouched : (∃ key ∈ needed, ¬ world.state.Has key) → ∀ trace flow world',
    Flow.Path (serving AnyAnswer) Eq plan.run world trace flow world' →
      world'.state = world.state ∧ ∀ exchange ∈ trace, exchange.1 = .ledger .keys

/-- The first slot that is missing from the list is what the result is to report. -/
theorem reports_of_missing {needed : KeySet} (increasing : needed.Increasing) {key : Key}
    (missing : needed.firstMissing ledger.keys = some key) :
    ReportsMissing needed ledger (.error (.notFound key) : Except RunError α) := by
  obtain ⟨member, absent, least⟩ := KeySet.firstMissing_eq_some increasing missing
  rw [MemoryLedger.mem_keys] at absent
  refine ⟨⟨fun _ => ⟨key, member, absent⟩, fun _ => ⟨key, rfl⟩⟩, ?_⟩
  rintro _ ⟨⟩
  exact ⟨member, absent, fun other inside empty =>
    least other inside (mt MemoryLedger.mem_keys.mp empty)⟩

/-- Where nothing is missing, no empty slot is to be reported. -/
theorem reports_of_found {needed : KeySet} {result : Except RunError α}
    (held : ∀ key ∈ needed, ledger.Has key)
    (found : ∀ key, result ≠ .error (.notFound key)) : ReportsMissing needed ledger result := by
  refine ⟨⟨?_, ?_⟩, fun key same => absurd same (found key)⟩
  · rintro ⟨key, same⟩
    exact absurd same (found key)
  · rintro ⟨key, member, absent⟩
    exact absurd (held key member) absent

/-- A plan that finds all slots never reports an empty one. -/
theorem Plan.FindsAll.ne_notFound {keys : Key → Prop} {plan : Plan α}
    (finds : plan.FindsAll keys world.state) {result : Except RunError α}
    (path : Flow.Path (serving AnyAnswer) Eq plan.run world trace (.done result) world')
    (key : Key) : result ≠ .error (.notFound key) := by
  have alone := Flow.Ensures.within finds (Conduct.within_alone _)
  have settled := (alone world rfl (fun _ => trivial) trace _ world' path).2 result rfl
  rintro rfl
  exact settled key rfl

/-- **A plan that first looks for what it needs**, and finds all slots if that is there, looks
exactly. -/
theorem looksExactly_requiring {needed : KeySet} (increasing : needed.Increasing) {plan : Plan α}
    {keys : Key → Prop} (workers : 0 < world.free)
    (finds : (∀ key ∈ needed, world.state.Has key) →
      (Plan.requiring needed plan).FindsAll keys world.state) :
    LooksExactly needed (Plan.requiring needed plan) world := by
  have reports (trace : List (Exchange interface)) (result : Except RunError α)
      (world' : World MemoryLedger) (path : Flow.Path (serving AnyAnswer) Eq
        (Plan.requiring needed plan).run world trace (.done result) world') :
      ReportsMissing needed world.state result := by
    cases missing : needed.firstMissing world.state.keys with
    | some key =>
      rw [(stops_requiring missing path).2.2 result rfl]
      exact reports_of_missing increasing missing
    | none =>
      have held := MemoryLedger.firstMissing_keys_eq_none.mp missing
      exact reports_of_found held (Plan.FindsAll.ne_notFound (finds held) path)
  refine ⟨?_, reports, fun ⟨key, member, absent⟩ trace flow world' path => ?_⟩
  · exact Flow.endsIn_of_path exists_serves (Nat.add_pos_left workers _) reports
  · cases missing : needed.firstMissing world.state.keys with
    | none => exact absurd (MemoryLedger.firstMissing_keys_eq_none.mp missing key member) absent
    | some first => exact ⟨(stops_requiring missing path).1, (stops_requiring missing path).2.1⟩

/-- **The look before a stage is exact.** Whatever the ledger holds, the policy is and the codec
answers, under every schedule: a barrier stage reports an empty slot if and only if one of its
inputs is empty, and so does the chain; it is the least of those, the ledger is as it was, and
nothing was asked of the codec. And a whole run never reports one. -/
theorem looks_exactly (run : Run) (nonempty : run.chunks ≠ []) (world : World MemoryLedger)
    (workers : 0 < world.free) :
    (∀ stage : Stage, stage.isSerial = false →
      LooksExactly (stage.barrierInputs run.count) (run.stagePlan stage) world) ∧
    LooksExactly (chainInputs run.count) run.chain world ∧
    (∀ trace result world',
      Flow.Path (serving AnyAnswer) Eq run.plan.run world trace (.done result) world' →
        ∀ key, result ≠ .error (.notFound key)) ∧
    Flow.EndsIn (Serves AnyAnswer) (fun result _ => ∀ key, result ≠ .error (.notFound key))
      run.plan.run world := by
  have never (trace : List (Exchange interface)) (result : Except RunError Result)
      (world' : World MemoryLedger)
      (path : Flow.Path (serving AnyAnswer) Eq run.plan.run world trace (.done result) world') :
      ∀ key, result ≠ .error (.notFound key) :=
    Plan.FindsAll.ne_notFound (findsAll_plan run world.state) path
  refine ⟨fun stage barrier => ?_, ?_, never, ?_⟩
  · have finds (held : ∀ key ∈ stage.barrierInputs run.count, world.state.Has key) :=
      findsAll_stagePlan held barrier fun _ => id
    rw [stagePlan_eq run barrier] at finds ⊢
    exact looksExactly_requiring (KeySet.increasing_ofList _) workers finds
  · have finds (held : ∀ key ∈ chainInputs run.count, world.state.Has key) :=
      findsAll_chain held (List.length_pos_iff.mpr nonempty) fun _ => id
    rw [chain_eq] at finds ⊢
    exact looksExactly_requiring (KeySet.increasing_ofList _) workers finds
  · exact Flow.endsIn_of_path exists_serves (Nat.add_pos_left workers _) never

/-- The baseline encoding of the first of two chunks. -/
def halfEncoded : MemoryLedger :=
  ⟨[(⟨0, .baseline⟩, .bitstream ⟨[1]⟩)]⟩

/-- The state of two chunks is to be extracted, but only the first of them is encoded: under every
schedule the stage reports the second. -/
theorem looks_exactly_halfEncoded :
    twoChunks ≠ [] ∧ 0 < (World.fresh 2 halfEncoded).free ∧
      Flow.EndsIn (Serves AnyAnswer) (fun result _ => result = .error (.notFound ⟨1, .baseline⟩))
        (Run.stagePlan ⟨"clip", twoChunks, .resume⟩ .stateExtraction).run
        (World.fresh 2 halfEncoded) := by
  have nonempty : twoChunks ≠ [] := List.cons_ne_nil _ _
  have workers : 0 < (World.fresh 2 halfEncoded).free := Flow.free_fresh 2 _
  obtain ⟨stages, -⟩ :=
    looks_exactly ⟨"clip", twoChunks, .resume⟩ nonempty (World.fresh 2 halfEncoded) workers
  refine ⟨nonempty, workers, (stages .stateExtraction rfl).ends.mono fun result _ reports => ?_⟩
  have empty : ¬ halfEncoded.Has ⟨1, .baseline⟩ := by unfold MemoryLedger.Has; decide
  obtain ⟨key, rfl⟩ := reports.1.mpr ⟨⟨1, .baseline⟩, by decide, empty⟩
  obtain ⟨member, absent, -⟩ := reports.2 key rfl
  obtain ⟨chunk, inside, read⟩ := Stage.mem_barrierInputs.mp member
  obtain rfl := List.mem_singleton.mp read
  rcases Nat.le_one_iff_eq_zero_or_eq_one.mp (Nat.le_of_lt_succ inside) with rfl | rfl
  · exact absurd rfl absent
  · rfl

end Run

end Transcode
