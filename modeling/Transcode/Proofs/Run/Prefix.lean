/-
**The serial chain only ever exposes a prefix** of the slots it is to fill, so an aborted chain can
be resumed, and part of a merge is never taken for the whole.

* `chainKeys` are the slots of the chain over so many chunks, in the order in which they are filled,
  which is the order of keys (`increasing_chainKeys`); `exposed` are those that are filled.
* `exposed_prefix_of_path` — at every moment of a chain that began with none of them, these are a
  prefix.
* `Run.chain_exposes_prefix` — where the prefix ends is told by the result: by the chunk whose
  rebase or merge failed, and before the last merge if the chain was cancelled.
-/
import Transcode.Proofs.Run.Closure

namespace Transcode

open Run

/-- The slots of the chain over `count` chunks, in the order in which they are filled. -/
def chainKeys (count : Nat) : List Key :=
  (List.range count).flatMap fun chunk => Stage.rebase.outputs chunk ++ Stage.merge.outputs chunk

/-- Those of them that are filled. -/
def exposed (ledger : MemoryLedger) (count : Nat) : List Key :=
  (chainKeys count).filter fun key => (ledger.get? key).isSome

/-! ### The order of the chain -/

theorem mem_chainKeys {count : Nat} {key : Key} :
    key ∈ chainKeys count ↔ Chained key ∧ key.chunk < count := by
  simp only [chainKeys, List.mem_flatMap, List.mem_append, List.mem_range, mem_outputs_iff, Chained]
  constructor
  · rintro ⟨_, inside, ⟨own, rfl, present⟩ | ⟨own, rfl, present⟩⟩ <;>
      exact ⟨⟨by rw [own]; rfl, present⟩, inside⟩
  · rintro ⟨⟨serial, present⟩, inside⟩
    refine ⟨key.chunk, inside, ?_⟩
    cases stage : key.kind.stage <;> simp_all [Stage.isSerial]

/-- The chain fills its slots in the order of keys. -/
theorem increasing_chainKeys (count : Nat) : KeySet.Increasing (chainKeys count) := by
  refine List.pairwise_flatMap.mpr ⟨fun chunk _ => ?_, ?_⟩
  · cases chunk <;> simp [Stage.outputs, Key.lt, Kind.rank]
  · refine List.pairwise_lt_range.imp fun {first second} earlier key left other right => ?_
    have place (chunk : ChunkIndex) (key : Key)
        (member : key ∈ Stage.rebase.outputs chunk ++ Stage.merge.outputs chunk) :
        key.chunk = chunk :=
      (List.mem_append.mp member).elim (fun written => (mem_outputs_iff.mp written).2.1)
        fun written => (mem_outputs_iff.mp written).2.1
    rw [Key.lt_iff, place _ _ left, place _ _ right]
    exact .inl earlier

theorem mem_exposed {ledger : MemoryLedger} {count : Nat} {key : Key} :
    key ∈ exposed ledger count ↔ (Chained key ∧ key.chunk < count) ∧ ledger.Has key := by
  rw [exposed, List.mem_filter, mem_chainKeys]
  rfl

/-- Those members of a list that nothing else comes before are a prefix. -/
theorem filter_prefix_of_pairwise {α : Type} {items : List α} {kept : α → Bool}
    (closed : items.Pairwise fun first second => kept second = true → kept first = true) :
    items.filter kept <+: items := by
  induction items with
  | nil => exact List.prefix_refl []
  | cons first rest ih =>
    obtain ⟨front, tail⟩ := List.pairwise_cons.mp closed
    cases here : kept first with
    | true =>
      rw [List.filter_cons_of_pos here]
      exact (List.prefix_cons_inj first).mpr (ih tail)
    | false =>
      have none : rest.filter kept = [] := List.filter_eq_nil_iff.mpr fun second member again => by
        rw [front second member again] at here
        cases here
      rw [List.filter_cons_of_neg (by simp [here]), none]
      exact List.nil_prefix

/-- The last slot that is exposed is the greatest. -/
theorem getLast?_exposed {ledger : MemoryLedger} {count : Nat} {key : Key}
    (member : key ∈ exposed ledger count)
    (greatest : ∀ other ∈ exposed ledger count, other = key ∨ other.lt key = true) :
    (exposed ledger count).getLast? = some key := by
  have increasing : KeySet.Increasing (exposed ledger count) :=
    (increasing_chainKeys count).filter _
  have nonempty := List.ne_nil_of_mem member
  rw [List.getLast?_eq_some_getLast nonempty]
  refine congrArg some ((greatest _ (List.getLast_mem nonempty)).resolve_right fun earlier => ?_)
  rw [← List.dropLast_append_getLast nonempty] at increasing member
  rcases List.mem_append.mp member with before | last
  · have later := (List.pairwise_append.mp increasing).2.2 key before _ (List.mem_singleton_self _)
    exact Key.lt_irrefl _ (Key.lt_trans later earlier)
  · rw [← List.mem_singleton.mp last] at earlier
    exact Key.lt_irrefl _ earlier

/-! ### What the chain exposes -/

/-- The order of the chain's slots alone. -/
def ChainOrder (other key : Key) : Prop :=
  Chained other ∧ Chained key ∧ other.lt key = true

theorem backed_chainOrder (count : Nat) (ledger : MemoryLedger) : Backed ChainOrder count ledger :=
  fun _ _ _ _ ⟨chained, _, lt⟩ => .inr ⟨chained, lt⟩

variable {run : Run} {world world' : World MemoryLedger} {trace : List (Exchange interface)}

/-- **At every moment** of a chain that began with none of its slots filled, those that are filled
are a prefix. -/
theorem exposed_prefix_of_path (nonempty : 0 < run.count)
    (fresh : ∀ key ∈ chainKeys run.count, ¬ world.state.Has key)
    {flow : Flow interface (Except RunError ChainResult)}
    (path : Flow.Path (serving AnyAnswer) Eq run.chain.run world trace flow world') :
    exposed world'.state run.count <+: chainKeys run.count := by
  let closed (ledger : MemoryLedger) : Prop :=
    ∀ key ∈ chainKeys run.count, ∀ other ∈ chainKeys run.count, other.lt key = true →
      ledger.Has key → ledger.Has other
  have kept : closed world'.state := by
    refine Flow.Ensures.always (fills_chain nonempty (backed_chainOrder _ world.state))
      (fun _ => trivial) ?_ ?_ (fun key mine _ _ _ held => absurd held (fresh key mine))
      (path.mono ?_)
    · intro state later allowed before key mine other also lt held
      have same (key : Key) : later.Has key ↔ state.Has key :=
        MemoryLedger.has_congr ((allowed key).2 trivial)
      exact (same other).mpr (before key mine other also lt ((same key).mp held))
    · intro state later guaranteed before key mine other also lt held
      refine has_of_guarantee guaranteed ?_
      rcases guaranteed key with same | ⟨-, -, ready⟩
      · exact before key mine other also lt ((MemoryLedger.has_congr same).mp held)
      · exact ready other ⟨(mem_chainKeys.mp also).1, (mem_chainKeys.mp mine).1, lt⟩
    · rintro state _ rfl
      exact (filling ChainOrder _ _).rely_refl state
  refine filter_prefix_of_pairwise ((increasing_chainKeys run.count).imp_of_mem ?_)
  exact fun first second lt held => kept _ second _ first lt held

/-- Where the chain has come to, if it began with none of its slots filled. -/
theorem mem_exposed_iff_behind {count : Nat} {ledger later : MemoryLedger} {stage : Stage}
    {chunk : ChunkIndex} (fresh : ∀ key ∈ chainKeys count, ¬ ledger.Has key)
    (reached : Gains (fun _ => True) (Behind stage chunk) ledger later) {key : Key} :
    key ∈ exposed later count ↔ Behind stage chunk key ∧ key.chunk < count := by
  rw [mem_exposed, reached.has_iff trivial]
  constructor
  · rintro ⟨⟨chained, inside⟩, held | behind⟩
    · exact absurd held (fresh key (mem_chainKeys.mpr ⟨chained, inside⟩))
    · exact ⟨behind, inside⟩
  · rintro ⟨behind, inside⟩
    exact ⟨⟨behind.1, inside⟩, .inr behind⟩

/-- A task that fails in a chain that began with none of its slots filled, has filled none. -/
theorem gains_of_fails {count : Nat} {ledger middle later : MemoryLedger} {stage : Stage}
    {chunk : ChunkIndex} (fresh : ∀ key ∈ chainKeys count, ¬ ledger.Has key)
    (serial : stage.isSerial = true) (inside : chunk < count)
    (reached : Gains (fun _ => True) (Behind stage chunk) ledger middle)
    (leaves : Leaves (fun _ => True) (stage.outputs chunk) middle later) :
    Gains (fun _ => True) (Behind stage chunk) ledger later := by
  refine reached.then_nothing (leaves.nothing.resolve_right ?_)
  rintro ⟨key, written, held⟩
  obtain ⟨rfl, rfl, present⟩ := mem_outputs_iff.mp written
  rcases (reached.has_iff trivial).mp held with before | ⟨-, earlier | ⟨-, sooner⟩⟩
  · exact fresh key (mem_chainKeys.mpr ⟨⟨serial, present⟩, inside⟩) before
  · exact Nat.lt_irrefl _ earlier
  · exact Nat.lt_irrefl _ sooner

/-- Between two chunks the chain has come to the merged stream of the first. -/
theorem le_of_behind_rebase {previous : ChunkIndex} {key : Key}
    (behind : Behind .rebase (previous + 1) key) :
    key = ⟨previous, .merged⟩ ∨ key.lt ⟨previous, .merged⟩ = true := by
  obtain ⟨place, kind⟩ := key
  rw [Key.lt_iff]
  revert behind
  cases kind <;> simp [Behind, Chained, Kind.stage, Kind.rank, Stage.isSerial, Stage.place,
    Stage.all, Stage.barriers, ChunkIndex] <;> omega

/-- Within a chunk the chain has come to its rebased state. -/
theorem le_of_behind_merge {chunk : ChunkIndex} {key : Key} (behind : Behind .merge chunk key) :
    key = ⟨chunk, .rebasedState⟩ ∨ key.lt ⟨chunk, .rebasedState⟩ = true := by
  obtain ⟨place, kind⟩ := key
  rw [Key.lt_iff]
  revert behind
  cases kind <;> simp [Behind, Chained, Kind.stage, Kind.rank, Stage.isSerial, Stage.place,
    Stage.all, Stage.barriers, ChunkIndex]; omega

section Ends

variable {count : Nat} {ledger later : MemoryLedger}
  (fresh : ∀ key ∈ chainKeys count, ¬ ledger.Has key)
include fresh

/-- Between two chunks, what is exposed ends with the merged stream of the first. -/
theorem getLast?_between {previous : ChunkIndex} (inside : previous < count)
    (reached : Gains (fun _ => True) (Behind .rebase (previous + 1)) ledger later) :
    (exposed later count).getLast? = some ⟨previous, .merged⟩ := by
  refine getLast?_exposed ((mem_exposed_iff_behind fresh reached).mpr ⟨?_, inside⟩)
    fun other member => le_of_behind_rebase ((mem_exposed_iff_behind fresh reached).mp member).1
  exact ⟨⟨rfl, by simp⟩, .inl (Nat.lt_succ_self previous)⟩

/-- Within a chunk, what is exposed ends with its rebased state. -/
theorem getLast?_within {chunk : ChunkIndex} (inside : chunk < count)
    (reached : Gains (fun _ => True) (Behind .merge chunk) ledger later) :
    (exposed later count).getLast? = some ⟨chunk, .rebasedState⟩ := by
  refine getLast?_exposed ((mem_exposed_iff_behind fresh reached).mpr ⟨?_, inside⟩)
    fun other member => le_of_behind_merge ((mem_exposed_iff_behind fresh reached).mp member).1
  exact behind_merge_iff.mpr (.inr (mem_outputs_iff.mpr ⟨rfl, rfl, by simp⟩))

end Ends

/-- After the last chunk, everything is exposed. -/
theorem exposed_of_finished {count : Nat} {ledger later : MemoryLedger}
    (reached : Gains (fun _ => True) (Behind .rebase count) ledger later) :
    exposed later count = chainKeys count := by
  refine List.filter_eq_self.mpr fun key member => ?_
  obtain ⟨chained, inside⟩ := mem_chainKeys.mp member
  exact reached.adds key ⟨chained, .inl inside⟩

/-- What the result of the chain says about the slots that it has filled. -/
def Tells (count : Nat) (ledger : MemoryLedger) : Except RunError ChainResult → Prop
  | .ok value => exposed ledger count = chainKeys count ∧
      ledger.get? ⟨count - 1, .merged⟩ = some (.bitstream value.output)
  | .error (.rebase chunk _) =>
    ∃ previous, chunk = previous + 1 ∧ (exposed ledger count).getLast? = some ⟨previous, .merged⟩
  | .error (.merge chunk _) => (exposed ledger count).getLast? = some ⟨chunk, .rebasedState⟩
  | .error (.cancelled _) =>
    ∃ previous, previous + 1 < count ∧ (exposed ledger count).getLast? = some ⟨previous, .merged⟩
  | .error _ => True

/-- Where the chain stops, its error says so. -/
theorem Stopped.tells {count : Nat} {ledger later : MemoryLedger} {error : RunError}
    (fresh : ∀ key ∈ chainKeys count, ¬ ledger.Has key)
    (stopped : Stopped count ledger error later) :
    Tells count later (.error error) := by
  cases stopped with
  | @cancelled chunk _ begun inside reached =>
    obtain ⟨previous, rfl⟩ := Nat.exists_eq_succ_of_ne_zero (Nat.ne_of_gt begun)
    exact ⟨previous, inside, getLast?_between fresh (Nat.lt_of_succ_lt inside) reached⟩
  | @failed stage chunk middle _ _ serial inside reached fails =>
    have reached := gains_of_fails fresh serial inside reached fails.1
    rcases fails.2 with plain | blamed
    · cases error <;> first | exact plain.elim | trivial
    · cases stage with
      | rebase =>
        obtain ⟨positive, cause, rfl⟩ := blamed
        obtain ⟨previous, rfl⟩ := Nat.exists_eq_succ_of_ne_zero positive
        exact ⟨previous, rfl, getLast?_between fresh (Nat.lt_of_succ_lt inside) reached⟩
      | merge =>
        obtain ⟨positive, cause, rfl⟩ := blamed
        exact getLast?_within fresh inside reached
      | _ => cases serial

/-- **The chain only ever exposes a prefix** of its slots, and its result tells which. Let none of
its slots be filled when it begins. Whatever the policy, the answers of the codec and the moment of
a cancellation: after every single request, the slots that are filled are a prefix of the sequence;
if a rebase fails, it ends with the merged stream of the chunk before; if a merge fails, with the
rebased state of the chunk; if the chain is cancelled, with the merged stream of a chunk before the
last; and if it ends well, the whole sequence is filled, and the last slot holds the output. -/
theorem Run.chain_exposes_prefix (nonempty : run.chunks ≠ [])
    (fresh : ∀ key ∈ chainKeys run.count, ¬ world.state.Has key)
    {flow : Flow interface (Except RunError ChainResult)}
    (path : Flow.Path (serving AnyAnswer) Eq run.chain.run world trace flow world') :
    exposed world'.state run.count <+: chainKeys run.count ∧
      ∀ result, flow = .done result → Tells run.count world'.state result := by
  have positive : 0 < run.count := List.length_pos_iff.mpr nonempty
  refine ⟨exposed_prefix_of_path positive fresh path, fun result ended => ?_⟩
  have alone := Flow.Ensures.within (fills_chain positive (backed_chainOrder _ world.state))
    (Conduct.within_alone _)
  have settled := (alone world rfl (fun _ => trivial) trace flow world' path).2 result ended
  cases result with
  | ok value => exact ⟨exposed_of_finished settled.1, settled.2⟩
  | error error => exact Stopped.tells fresh settled

/-- What the barrier stages leave of two chunks, as far as the chain needs it. -/
def readyForChain : MemoryLedger :=
  ⟨[(⟨0, .encodeV0State⟩, .state ⟨[1]⟩), (⟨0, .encodeV1⟩, .bitstream ⟨[1]⟩),
    (⟨0, .encodeV1State⟩, .state ⟨[1]⟩), (⟨1, .encodeV1⟩, .bitstream ⟨[2, 1]⟩)]⟩

/-- A chain over two chunks that breaks at the second leaves the merged stream of the first. -/
theorem Run.chain_exposes_prefix_brokenChain :
    twoChunks ≠ [] ∧ (∀ key ∈ chainKeys 2, ¬ readyForChain.Has key) ∧
      (((Run.chain ⟨"clip", twoChunks, .resume⟩).run.run (inMemory .brittle)
        (World.fresh 1 readyForChain)).1.isOk = false) ∧
      (exposed ((Run.chain ⟨"clip", twoChunks, .resume⟩).run.run (inMemory .brittle)
        (World.fresh 1 readyForChain)).2.state 2).getLast? = some ⟨0, .merged⟩ := by
  have nonempty : twoChunks ≠ [] := List.cons_ne_nil _ _
  have fresh : ∀ key ∈ chainKeys 2, ¬ readyForChain.Has key := by
    unfold MemoryLedger.Has
    decide
  have serves : (serving AnyAnswer).services (inMemory .brittle) :=
    serves_service fun _ => trivial
  obtain ⟨trace, path⟩ := Flow.path_run serves (Run.chain ⟨"clip", twoChunks, .resume⟩).run
    (World.fresh 1 readyForChain) (Nat.add_pos_left (Flow.free_fresh 1 _) _)
  obtain ⟨-, tells⟩ := @Run.chain_exposes_prefix ⟨"clip", twoChunks, .resume⟩
    (World.fresh 1 readyForChain) _ _ nonempty fresh _ path
  obtain ⟨previous, chunk, last⟩ := tells _ rfl
  cases Nat.succ.inj chunk
  exact ⟨nonempty, fresh, rfl, last⟩

end Transcode
