/-
**Batches**: orders over several sources that share one pool of workers, while codec calls may fail.

* `Order.ComesTo` says what an order can come to alone, `Order.EndsAlone` what it always comes to
  when no codec call fails; `Order.ComesTo.endsAlone` ties the two.
* `Batch.gather_of_perm` — in whatever order the runs end, their results are put back in the order of
  the orders; a run that has panicked has none.
* `Batch.isolates` — what an order comes to in a batch, it can come to alone, and no failure of
  another source takes anything from it.
-/
import Transcode.Proofs.Run.Determinacy
import Transcode.Proofs.Run.Evidence
import Transcode.Proofs.Run.Fresh
import Transcode.Proofs.Schedule.Apart
import Transcode.Run.Batch

namespace Transcode

/-! ### Codecs that may fail -/

namespace Run

/-- No codec call has failed. -/
def Faultless (trace : List (Exchange interface)) : Prop :=
  ∀ exchange ∈ trace, ∀ cause, ¬ Reports cause exchange

/-- A codec that has not failed has answered as it should. -/
theorem trades_failing (codec : Codec) :
    Service.Trades (failing codec).services (exactly codec).services
      fun exchange => ∀ cause, ¬ Reports cause exchange := by
  rintro service ⟨serves, quiet⟩ request ledger fine
  refine ⟨inMemory codec, rfl, ?_⟩
  have silent := quiet request ledger
  cases request with
  | ledger op =>
    have answer := serves.ledger op ledger
    have state := serves.change op ledger
    cases reply : service.reply (.ledger op) ledger
    rw [reply] at silent answer state
    cases silent
    cases answer
    cases state
    rfl
  | codec call =>
    have answer := serves.codec call ledger
    have state := serves.quiet call ledger
    cases reply : service.reply (.codec call) ledger
    rw [reply] at silent answer state fine
    cases silent
    cases state
    rcases answer with answer | ⟨error, answer⟩
    · cases answer
      rfl
    · cases answer
      exact absurd rfl (fine error)

/-- No call of a codec that never fails has failed. -/
theorem faultless_of_path {codec : Codec}
    (reliable : ∀ call : Codec.Call, ∃ value, codec.answer call = .ok value) {α : Type}
    {flow flow' : Flow interface α} {world world' : World MemoryLedger}
    {trace : List (Exchange interface)}
    (path : Flow.Path (exactly codec) (fun _ _ => False) flow world trace flow' world') :
    Faultless trace := by
  intro exchange member cause reports
  have undisturbed : Flow.Path (exactly codec) Eq flow world trace flow' world' :=
    path.mono fun _ _ => False.elim
  obtain ⟨_, ledger, rfl, same⟩ := undisturbed.log.answered member
  rw [same] at reports
  cases request : exchange.1 with
  | ledger op =>
    rw [request] at reports
    exact not_reports_ledger reports
  | codec call =>
    obtain ⟨value, fine⟩ := reliable call
    have reports : Reports cause ⟨.codec call, codec.answer call⟩ := by rwa [request] at reports
    rw [fine] at reports
    exact reports

/-! ### No stage has been started -/

namespace Plan

variable {α β : Type}

/-- No stage of the plan has been started. -/
abbrev Unstarted (plan : Plan α) : Prop :=
  Flow.Unstarted plan.run

theorem Unstarted.andThen {plan : Plan α} {after : α → Plan β} (unstarted : plan.Unstarted)
    (rest : ∀ value, (after value).Unstarted) : (plan >>= after).Unstarted := by
  refine Flow.Unstarted.bind unstarted fun result => ?_
  cases result with
  | ok value => exact rest value
  | error error => trivial

theorem unstarted_ofJob (job : Job α) : (ofJob job).Unstarted :=
  Flow.unstarted_ofTask job.run

end Plan

theorem unstarted_plan (run : Run) : run.plan.Unstarted :=
  Composes.plan {
    value := fun _ => trivial
    error := fun _ => trivial
    bind := Plan.Unstarted.andThen
    look := fun _ => Plan.unstarted_ofJob _
    token := fun _ _ => trivial
    pool := fun _ => ⟨rfl, fun _ => trivial⟩
    seed := Plan.unstarted_ofJob _
    extend := fun _ _ => Plan.unstarted_ofJob _ }

end Run

/-! ### Orders -/

namespace Order

open Run

variable {order : Order} {chunks : Except SplitError (List RawChunk)} {codec : Codec}

theorem unstarted_plan (order : Order) (chunks : Except SplitError (List RawChunk)) :
    (order.plan chunks).Unstarted :=
  (Plan.unstarted_ofJob _).andThen Run.unstarted_plan

theorem settled_plan (order : Order) (chunks : Except SplitError (List RawChunk)) :
    (order.plan chunks).Settled codec :=
  (Plan.settled_ofJob _).bind Run.settled_plan

/-- **What the order can come to alone**, with a pool of workers of its own and nobody else at work:
the requests, the result, and the ledger in the end. -/
def ComesTo (order : Order) (setting : Setting interface MemoryLedger)
    (chunks : Except SplitError (List RawChunk)) (workers : Nat) (ledger : MemoryLedger)
    (trace : List (Exchange interface)) (result : Except RunError Result) (later : MemoryLedger) :
    Prop :=
  ∃ world, Flow.Path setting (fun _ _ => False) (order.plan chunks).run
    (World.fresh workers ledger) trace (.done result) world ∧ world.state = later

/-- **This is how the order ends alone** with a codec that does not fail, under every schedule and
with any number of workers: if it ends well, then with this value and with the same in every slot. -/
def EndsAlone (order : Order) (codec : Codec) (chunks : Except SplitError (List RawChunk))
    (ledger : MemoryLedger) (result : Except RunError Result) (later : MemoryLedger) : Prop :=
  ∀ workers, Flow.EndsIn (exactly codec).services
    (fun sole world => ∀ value, (sole = .ok value ↔ result = .ok value) ∧
      (result = .ok value → world.state.get? = later.get?))
    (order.plan chunks).run (World.fresh workers ledger)

/-- **An order whose codec calls have all succeeded** has ended as it always ends alone. -/
theorem ComesTo.endsAlone {workers : Nat} {ledger later : MemoryLedger}
    {trace : List (Exchange interface)} {result : Except RunError Result}
    (comes : order.ComesTo (failing codec) chunks workers ledger trace result later)
    (faultless : Faultless trace) : order.EndsAlone codec chunks ledger result later := by
  intro others
  obtain ⟨world, path, rfl⟩ := comes
  have mine : Flow.Path (exactly codec) calm.rely (order.plan chunks).run _ trace _ world :=
    (path.trade (trades_failing codec) ⟨_, rfl⟩ id faultless).mono fun _ _ => False.elim
  refine Flow.endsIn_of_path ⟨_, rfl⟩ (Nat.add_pos_left (Flow.free_fresh _ _) _) ?_
  intro more sole final further
  have further : Flow.Path (exactly codec) calm.rely (order.plan chunks).run _ more _ final :=
    further.mono fun state _ same => same ▸ calm.rely_refl state
  have settled : (order.plan chunks).Settled codec := settled_plan order chunks
  refine fun value => ⟨⟨?_, ?_⟩, ?_⟩
  · rintro rfl
    exact (settled.same further mine rfl rfl rfl).1
  · rintro rfl
    exact (settled.same mine further rfl rfl rfl).1
  · rintro rfl
    exact (settled.same mine further rfl rfl rfl).2

end Order

/-! ### Results in any order of arrival -/

namespace Batch

variable {α : Type}

/-- A slot keeps what it holds while results for other slots arrive. -/
theorem getElem?_fill_of_notMem {arrived : List (Nat × α)} {slots : List (Option α)}
    {position : Nat} (absent : position ∉ arrived.map Prod.fst) :
    (arrived.foldl (fun slots (position, result) => slots.set position (some result)) slots)[
      position]? = slots[position]? := by
  induction arrived generalizing slots with
  | nil => rfl
  | cons first rest ih =>
    simp only [List.map_cons, List.mem_cons, not_or] at absent
    rw [List.foldl_cons, ih absent.2, List.getElem?_set_ne (Ne.symm absent.1)]

/-- A result that has arrived is in its slot. -/
theorem getElem?_fill_of_mem {arrived : List (Nat × α)} {slots : List (Option α)}
    (distinct : (arrived.map Prod.fst).Nodup) {position : Nat} (inside : position < slots.length)
    {result : α} (member : (position, result) ∈ arrived) :
    (arrived.foldl (fun slots (position, result) => slots.set position (some result)) slots)[
      position]? = some (some result) := by
  induction arrived generalizing slots with
  | nil => cases member
  | cons first rest ih =>
    obtain ⟨absent, others⟩ := List.nodup_cons.mp distinct
    rw [List.foldl_cons]
    rcases List.mem_cons.mp member with rfl | later
    · rw [getElem?_fill_of_notMem absent, List.getElem?_set_self inside]
    · exact ih others (by rwa [List.length_set]) later

/-- What a batch reports of a run: its result, unless it has panicked and there is none. -/
def reported (source : String) (result : Except RunError α) : Except RunError α :=
  if arrives result then result else .error (.internal (.noResult source))

theorem mem_arrived {ended : List (Nat × Except RunError α)} {position : Nat}
    {result : Except RunError α} :
    (position, result) ∈ arrived ended ↔ (position, result) ∈ ended ∧ arrives result :=
  List.mem_filter

/-- Once all runs have ended, each slot holds what has arrived of its run. -/
theorem slots_arrived {orders : List Order} {results : Fin orders.length → Except RunError α}
    {ended : List (Nat × Except RunError α)}
    (all : ended.Perm (List.ofFn fun place => (place.val, results place))) :
    slots orders.length (arrived ended) = List.ofFn fun place =>
      if arrives (results place) then some (results place) else none := by
  have distinct : ((arrived ended).map Prod.fst).Nodup := by
    have each : (ended.map Prod.fst).Nodup := by
      rw [(all.map Prod.fst).nodup_iff, List.map_ofFn]
      exact List.nodup_ofFn.mpr fun _ _ => Fin.ext
    exact each.sublist (List.filter_sublist.map Prod.fst)
  refine List.ext_getElem? fun position => ?_
  by_cases sent : ∃ inside : position < orders.length, arrives (results ⟨position, inside⟩)
  · obtain ⟨inside, sent⟩ := sent
    have listed : (position, results ⟨position, inside⟩) ∈ ended :=
      all.symm.subset (List.mem_ofFn.mpr ⟨⟨position, inside⟩, rfl⟩)
    rw [slots, getElem?_fill_of_mem distinct (by simpa using inside)
      (mem_arrived.mpr ⟨listed, sent⟩)]
    simp [inside, sent]
  · have absent : position ∉ (arrived ended).map Prod.fst := fun member => by
      obtain ⟨⟨_, result⟩, here, rfl⟩ := List.mem_map.mp member
      obtain ⟨listed, arrives⟩ := mem_arrived.mp here
      obtain ⟨place, same⟩ := List.mem_ofFn.mp (all.subset listed)
      cases same
      exact sent ⟨place.isLt, arrives⟩
    rw [slots, getElem?_fill_of_notMem absent]
    by_cases inside : position < orders.length
    · have panicked : arrives (results ⟨position, inside⟩) = false :=
        Bool.eq_false_of_not_eq_true fun arrives => sent ⟨inside, arrives⟩
      simp [inside, panicked]
    · simp [inside]

/-- **In whatever order the runs end**, their results are put back in the order of the orders. -/
theorem gather_of_perm {orders : List Order} {results : Fin orders.length → Except RunError α}
    {ended : List (Nat × Except RunError α)}
    (all : ended.Perm (List.ofFn fun place => (place.val, results place))) :
    gather orders ended = List.ofFn fun place =>
      (orders[place].source, reported orders[place].source (results place)) := by
  rw [gather, slots_arrived all]
  refine List.ext_getElem (by simp) fun position _ _ => ?_
  simp only [List.getElem_map, List.getElem_zip, List.getElem_ofFn, reported]
  split <;> rfl

/-! ### Batches -/

open Run

/-- The orders of a batch, each with a ledger of its own, and one pool of workers for all. -/
def company (orders : List Order) (setting : Setting interface MemoryLedger) :
    Company (Fin orders.length) Unit interface (String → MemoryLedger) :=
  Company.apart setting fun place => orders[place].source

/-- The orders before anything is done, each with the chunks that were found for it. -/
def flows (orders : List Order) (chunks : Order → Except SplitError (List RawChunk))
    (place : Fin orders.length) : Flow interface (Except RunError Result) :=
  (orders[place].plan (chunks orders[place])).run

variable {orders : List Order} {chunks : Order → Except SplitError (List RawChunk)} {workers : Nat}
  {ledgers : String → MemoryLedger} {setting : Setting interface MemoryLedger}

/-- **Every schedule of a batch comes to an end.** -/
theorem endsIn (served : ∃ service, setting.services service) :
    (company orders setting).EndsIn (fun _ => True) (fun _ _ _ => True) [] (flows orders chunks)
      (Commons.fresh (fun _ => workers) ledgers) := by
  obtain ⟨service, serves⟩ := served
  have served (place : Fin orders.length) :
      ∃ service, ((company orders setting).setting place).services service :=
    ⟨_, service, serves, rfl⟩
  refine Company.endsIn_of_path served (fun _ => .inl ?_) (fun _ _ _ _ => trivial)
    fun _ _ _ _ => trivial
  exact Nat.lt_of_lt_of_le Nat.one_pos (Nat.le_max_right _ 1)

/-- What happens with a codec that does not fail, may happen with one that may. -/
theorem signed_failing {codec : Codec}
    {later now : Fin orders.length → Flow interface (Except RunError Result)}
    {commons final : Commons Unit (String → MemoryLedger)}
    {signed : List (Fin orders.length × Exchange interface)}
    (path : (company orders (exactly codec)).Signed later commons signed now final) :
    (company orders (failing codec)).Signed later commons signed now final := by
  have crews : (company orders (exactly codec)).crew = (company orders (failing codec)).crew := rfl
  refine path.mono crews ?_
  rintro place _ ⟨_, rfl, rfl⟩
  exact ⟨_, serves_failing codec, rfl⟩

/-- **What an order comes to in a batch, it can come to alone.** -/
theorem comesTo_of_signed (distinct : (orders.map Order.source).Nodup)
    (still : ¬ setting.interruptible) {signed : List (Fin orders.length × Exchange interface)}
    {results : Fin orders.length → Except RunError Result}
    {commons : Commons Unit (String → MemoryLedger)}
    (path : (company orders setting).Signed (flows orders chunks)
      (Commons.fresh (fun _ => workers) ledgers) signed (fun place => .done (results place))
      commons)
    (place : Fin orders.length) :
    orders[place].ComesTo setting (chunks orders[place]) workers (ledgers orders[place].source)
      (Company.own place signed) (results place) (commons.state orders[place].source) := by
  have apart : Function.Injective fun place : Fin orders.length => orders[place].source := by
    intro place other same
    have length : orders.length = (orders.map Order.source).length := by simp
    refine Fin.cast_injective length (List.nodup_iff_injective_get.mp distinct ?_)
    simpa using same
  have stands := path.alone still apart fun place =>
    Order.unstarted_plan orders[place] (chunks orders[place])
  obtain ⟨world, mine, same, -⟩ := stands.alone place
  exact ⟨world, mine, same⟩

/-- **The sources of a batch do not disturb one another.** Let orders for different sources be
carried out side by side by one pool of workers, while codec calls may fail. Every schedule comes to
an end. Then, in whatever order the runs end, what they report is put back in the order of the
orders; each result and the ledger of its source are what the order can come to alone; and an order
of which no codec call has failed has ended as it always ends alone, whatever has become of the other
sources. -/
theorem isolates {orders : List Order} (distinct : (orders.map Order.source).Nodup)
    (chunks : Order → Except SplitError (List RawChunk)) (codec : Codec) (workers : Nat)
    (ledgers : String → MemoryLedger) :
    (company orders (failing codec)).EndsIn (fun _ => True) (fun _ _ _ => True) []
        (flows orders chunks) (Commons.fresh (fun _ => workers) ledgers) ∧
      ∀ (signed : List (Fin orders.length × Exchange interface))
        (results : Fin orders.length → Except RunError Result)
        (commons : Commons Unit (String → MemoryLedger)),
        (company orders (failing codec)).Signed (flows orders chunks)
          (Commons.fresh (fun _ => workers) ledgers) signed (fun place => .done (results place))
          commons →
        (∀ ended, ended.Perm (List.ofFn fun place => (place.val, results place)) →
          gather orders ended = List.ofFn fun place =>
            (orders[place].source, reported orders[place].source (results place))) ∧
        ∀ place,
          let order := orders[place]
          let own := Company.own place signed
          let later := commons.state order.source
          order.ComesTo (failing codec) (chunks order) workers (ledgers order.source) own
            (results place) later ∧
          (Faultless own → order.EndsAlone codec (chunks order) (ledgers order.source)
            (results place) later) := by
  refine ⟨endsIn ⟨_, serves_failing codec⟩, fun signed results commons path => ?_⟩
  refine ⟨fun ended all => gather_of_perm all, fun place => ?_⟩
  have comes := comesTo_of_signed distinct id path place
  exact ⟨comes, comes.endsAlone⟩

/-- A source without chunks, and one with two. -/
def twoSources : List Order :=
  [⟨"absent", 1, .resume⟩, ⟨"clip", 2, .resume⟩]

/-- The chunks of the second source. -/
def chunksOfClip (order : Order) : Except SplitError (List RawChunk) :=
  if order.source = "clip" then .ok twoChunks else .error (.missingChunk order.source)

/-- **One source is not to be had, and the other gets its output**, whichever of them is done
first. -/
theorem isolates_absentSource :
    ∃ (signed : List (Fin twoSources.length × Exchange interface))
      (results : Fin twoSources.length → Except RunError Result)
      (commons : Commons Unit (String → MemoryLedger)) (value : Result),
      (company twoSources (failing .verbatim)).Signed (flows twoSources chunksOfClip)
        (Commons.fresh (fun _ => 1) fun _ => .empty) signed (fun place => .done (results place))
        commons ∧
      value.output = ⟨[1, 2, 1]⟩ ∧
      ∀ ended, ended.Perm (List.ofFn fun place => (place.val, results place)) →
        gather twoSources ended =
          [("absent", .error (.split (.missingChunk "absent"))), ("clip", .ok value)] := by
  have distinct : (twoSources.map Order.source).Nodup := by decide
  have ends : (company twoSources (exactly .verbatim)).EndsIn (fun _ => True) (fun _ _ _ => True) []
      (flows twoSources chunksOfClip) (Commons.fresh (fun _ => 1) fun _ => .empty) :=
    endsIn ⟨_, rfl⟩
  obtain ⟨signed, results, commons, path⟩ := ends.exists_signed .start
  have faultless (place : Fin twoSources.length) : Faultless (Company.own place signed) := by
    obtain ⟨_, mine, -⟩ := comesTo_of_signed distinct id path place
    refine faultless_of_path (fun call => ?_) mine
    cases call <;> exact ⟨_, rfl⟩
  have path := signed_failing path
  obtain ⟨-, all⟩ := isolates distinct chunksOfClip .verbatim 1 fun _ => .empty
  obtain ⟨ordered, each⟩ := all signed results commons path
  obtain ⟨⟨_, absent, -⟩, -⟩ := each ⟨0, by decide⟩
  obtain ⟨-, sole⟩ := each ⟨1, by decide⟩
  have absent : results ⟨0, by decide⟩ = .error (.split (.missingChunk "absent")) := by
    have refused : (Flow.done (.error (.split (.missingChunk "absent"))) :
        Flow interface (Except RunError Result)).Ensures (failing .verbatim) Conduct.lax
          (fun result _ _ => result = .error (.split (.missingChunk "absent"))) .empty :=
      Flow.ensures_done fun _ _ => rfl
    exact (refused _ rfl (fun fired => by cases fired) _ _ _
      (absent.mono fun _ _ => False.elim)).2 _ rfl
  have recurrence : Recurrence .verbatim (Run.mk "clip" twoChunks .resume).chunks twoRows :=
    recurrence_twoChunks
  have clip : ∃ value, results ⟨1, by decide⟩ = .ok value ∧ value.output = ⟨[1, 2, 1]⟩ := by
    have alone := (Blueprint.reliable ⟨"clip", twoChunks, .resume⟩ recurrence).endsIn rfl id
      ⟨_, rfl⟩ (Flow.free_fresh 1 _) rfl
      (Blueprint.standing_of_empty _ (fun _ => trivial) MemoryLedger.get?_empty)
    obtain ⟨result, world, ⟨value, rfl, output, -⟩, same⟩ := alone.meets (sole (faultless _) 1)
    exact ⟨value, (same value).1.mp rfl, output⟩
  obtain ⟨value, clip, output⟩ := clip
  refine ⟨signed, results, commons, value, path, output, fun ended all => ?_⟩
  have absent := congrArg (reported "absent") absent
  have clip := congrArg (reported "clip") clip
  rw [ordered ended all]
  exact congrArg₂ (fun first second => [("absent", first), ("clip", second)]) absent clip

end Batch

end Transcode
