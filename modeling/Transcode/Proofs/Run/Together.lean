/-
**Runs that share one ledger.** Any number of runs over first chunks of one source, each of which
resumes or overwrites, may be under way in one ledger at the same time.

* `Blueprint.rely_of_reliable` — what one of the runs does, another relies on: both fill a slot with
  the same artifact, so whichever comes first, the slot holds what belongs there.
* `Run.share_ledger` — under every interleaving of all their requests each run ends well with the
  output that it would have had alone, the ledger holds at every moment nothing but what a fresh run
  would store, and if no run overwrites, each slot is filled by one `put` alone.
-/
import Transcode.Proofs.Run.Asked
import Transcode.Proofs.Run.Fresh
import Transcode.Proofs.Schedule.Company

namespace Transcode

variable {codec : Codec} {rows : ChunkIndex → Row} {run other : Run} {ledger later : MemoryLedger}

namespace Blueprint

open Run

/-! ### Two runs -/

/-- A filled slot is vacant for every run that does not mind. -/
theorem Filled.vacant {blueprint : Blueprint} (policy : blueprint.run.policy ≠ .strict) {key : Key}
    {held : Option Artifact} (filled : blueprint.Filled key held) :
    blueprint.Vacant key held := by
  unfold Vacant
  split
  · exact .inr filled
  · trivial
  · next strict => exact absurd strict policy

/-- What one run fills as it should, is filled as it should be for another over the same rows. -/
theorem Filled.ofReliable {recurrence : Recurrence codec run.chunks rows}
    {further : Recurrence codec other.chunks rows} (policy : run.policy ≠ .strict) {key : Key}
    {held : Option Artifact} (filled : (reliable other further).Filled key held) :
    (reliable run recurrence).Filled key held where
  held := filled.held
  earned raw found := earned_of_answers (fun _ => rfl) raw found
  entitled strict := absurd strict policy

/-- **What one run does, another relies on.** -/
theorem rely_of_reliable {recurrence : Recurrence codec run.chunks rows}
    {further : Recurrence codec other.chunks rows} (policy : run.policy ≠ .strict)
    {own reserved mine kept : Key → Prop}
    (guaranteed : ((reliable other further).conduct own reserved).guarantee ledger later) :
    ((reliable run recurrence).conduct mine kept).rely ledger later := by
  intro key
  rcases guaranteed key with same | ⟨-, filled⟩
  · rw [same]
    exact ⟨id, fun _ => id⟩
  · have here : (reliable run recurrence).Filled key (later.get? key) := filled.ofReliable policy
    exact ⟨fun _ => here, fun _ _ => here.vacant policy⟩

/-- A ledger of canonical artifacts is vacant for every run that does not mind. -/
theorem standing_reliable (recurrence : Recurrence codec run.chunks rows)
    (policy : run.policy ≠ .strict) {count : Nat} (within : ledger.Within (canonical rows count)) :
    (reliable run recurrence).Standing (fun _ => False) ledger := by
  cases chosen : run.policy with
  | resume => exact standing_of_within (.inl chosen) (fun _ => rfl) within
  | overwrite => exact standing_of_overwrite chosen ledger
  | strict => exact absurd chosen policy

/-- A run over first chunks puts nothing into a ledger but what a run over all of them would. -/
theorem within_of_guarantee {recurrence : Recurrence codec run.chunks rows} {count : Nat}
    (inside : run.count ≤ count) {reserved : Key → Prop}
    (guaranteed : ((reliable run recurrence).conduct (reliable run recurrence).slots
      reserved).guarantee ledger later)
    (within : ledger.Within (canonical rows count)) : later.Within (canonical rows count) := by
  intro key artifact held
  rcases guaranteed key with same | ⟨mine, filled⟩
  · exact within key artifact (same ▸ held)
  · rw [canonical_eq_of_mem (mem_runKeys_mono inside mine), ← held]
    exact filled.held.symm

end Blueprint

namespace Run

/-! ### Any number of runs -/

variable {ι κ : Type} [DecidableEq ι] [DecidableEq κ] {runs : ι → Run} {crew : ι → κ}
  {workers : κ → Nat} {last : ι → Nat} {count : Nat}

/-- Runs over one ledger, with a codec without side effects. -/
def company (crew : ι → κ) (codec : Codec) : Company ι κ interface MemoryLedger :=
  ⟨crew, fun _ => exactly codec⟩

/-- What the runs do, by the rows that they have in common. -/
theorem share_rows (recurrence : ∀ member, Recurrence codec (runs member).chunks rows)
    (counts : ∀ member, (runs member).count = last member + 1)
    (inside : ∀ member, (runs member).count ≤ count)
    (policies : ∀ member, (runs member).policy ≠ .strict)
    (within : ledger.Within (canonical rows count))
    {trace : List (Exchange interface)} {flows : ι → Flow interface (Except RunError Result)}
    {commons : Commons κ MemoryLedger}
    (path : (company crew codec).Path (fun member => (runs member).plan.run)
      (Commons.fresh workers ledger) trace flows commons) :
    commons.state.Within (canonical rows count) ∧
      (∀ member result, flows member = .done result → ∃ value, result = .ok value ∧
        value.output = (rows (last member)).merged ∧
        ∀ key ∈ runKeys (runs member).count, (commons.state.get? key).isSome) ∧
      ((∀ member, (runs member).policy = .resume) → ∀ key,
        puts trace key + (ledger.get? key).isSome.toNat =
          (commons.state.get? key).isSome.toNat) := by
  let blueprint (member : ι) : Blueprint := Blueprint.reliable (runs member) (recurrence member)
  let conduct (member : ι) : Conduct MemoryLedger :=
    (blueprint member).conduct (blueprint member).slots (blueprint member).slots
  have agrees : (company crew codec).Agrees conduct :=
    ⟨fun {member _} _ {_ _} => Blueprint.rely_of_reliable (policies member), fun _ => id⟩
  let statement (member : ι) (result : Except RunError Result) (later : MemoryLedger)
      (_ : List (Exchange interface)) : Prop :=
    Verdict (fun value later => value.output = (rows (last member)).merged ∧
      (blueprint member).Standing (fun _ => True) later) (fun _ _ => False) result later
  have delivers (member : ι) : (runs member).plan.run.Ensures (exactly codec) (conduct member)
      (statement member) (Commons.fresh workers ledger).state :=
    Blueprint.delivers_plan (counts member)
      (Blueprint.standing_reliable (recurrence member) (policies member) within)
  have quiet (member : ι) : (Commons.fresh workers ledger).cancelled (crew member) = true → False :=
    fun fired => by cases fired
  refine ⟨?_, fun member result finished => ?_, fun resumes => ?_⟩
  · exact path.always agrees delivers quiet
      (fun member => Blueprint.within_of_guarantee (inside member)) within
  · obtain ⟨_, ended⟩ := path.ended agrees delivers quiet finished
    cases result with
    | error error => exact ended.elim
    | ok value =>
      refine ⟨value, rfl, ended.1, fun key mine => ?_⟩
      rw [(ended.2.filled key mine trivial).held]
      exact (Row.artifact?_isSome _).mpr (mem_runKeys_iff.mp mine).2
  · refine puts_of_log (path.log fun _ _ => serves_exactly) ?_
    refine (path.asks fun member => asks_plan (permits_notOverwrites ?_) id).1
    rw [resumes]
    decide

/-- **Runs that share one ledger do not disturb one another.** Let a fresh run over all chunks of a
source succeed, and let any number of runs over its first chunks, each of which resumes or
overwrites, be under way in one ledger. Under every interleaving of their requests all of them end
well, each with the output that it would have had alone; the ledger holds at every moment nothing
but what the fresh run stores; and if all of them resume, each slot is filled by exactly one `put`,
or none if it was filled before. -/
theorem share_ledger [Fintype ι] {whole : Run} {solo : Result}
    (ended : (whole.fresh codec).1 = .ok solo) {runs : ι → Run}
    (first : ∀ member, (runs member).chunks <+: whole.chunks)
    (nonempty : ∀ member, (runs member).chunks ≠ [])
    (policies : ∀ member, (runs member).policy ≠ .strict) {ledger : MemoryLedger}
    (within : ledger.Within (whole.fresh codec).2.state.get?) (crew : ι → κ) (workers : κ → Nat) :
    (company crew codec).EndsIn (fun state => state.Within (whole.fresh codec).2.state.get?)
      (fun results _ trace =>
        (∀ member, ∃ value solo, results member = .ok value ∧
          ((runs member).fresh codec).1 = .ok solo ∧ value.output = solo.output) ∧
        ((∀ member, (runs member).policy = .resume) → ∀ member key,
          (((runs member).fresh codec).2.state.get? key).isSome →
            puts trace key = if (ledger.get? key).isSome then 0 else 1))
      [] (fun member => (runs member).plan.run) (Commons.fresh workers ledger) := by
  obtain ⟨rows, -, recurrence, -, -, stored⟩ := exists_rows_of_fresh ended
  rw [show (whole.fresh codec).2.state.get? = canonical rows whole.count from funext stored]
    at within ⊢
  have recurrence (member : ι) : Recurrence codec (runs member).chunks rows := by
    rw [List.prefix_iff_eq_take.mp (first member)]
    exact recurrence.take _
  choose last counts using fun member => count_eq_succ (nonempty member)
  have inside (member : ι) : (runs member).count ≤ whole.count := (first member).length_le
  refine Company.endsIn_of_path (fun _ => ⟨_, rfl⟩)
    (fun member => .inl (Nat.lt_of_lt_of_le Nat.one_pos (Nat.le_max_right _ 1))) ?_ ?_
  · intro trace flows commons path
    exact (share_rows recurrence counts inside policies within path).1
  · intro trace results commons path
    obtain ⟨-, ends, filled⟩ := share_rows recurrence counts inside policies within path
    refine ⟨fun member => ?_, fun resumes member key mine => ?_⟩
    · obtain ⟨value, same, output, -⟩ := ends member _ rfl
      obtain ⟨solo, alone, equal, -⟩ := fresh_of_recurrence (counts member) (recurrence member)
      exact ⟨value, solo, same, alone, output.trans equal.symm⟩
    · obtain ⟨_, -, -, all⟩ := ends member _ rfl
      obtain ⟨_, -, -, kept⟩ := fresh_of_recurrence (counts member) (recurrence member)
      have final := filled resumes key
      rw [kept, canonical_isSome] at mine
      rw [all key mine] at final
      cases before : (ledger.get? key).isSome <;> simp_all

/-- Two runs over one source, started at the same time: one over both of its chunks and one over the
first alone, with three workers between them. -/
theorem share_ledger_twoChunks :
    ∃ solo, (fresh ⟨"clip", twoChunks, .resume⟩ .verbatim).1 = .ok solo ∧
      (company (fun _ : Bool => ()) .verbatim).EndsIn (fun _ => True)
        (fun results _ trace =>
          (∃ value, results true = .ok value ∧ value.output = solo.output) ∧
          puts trace ⟨0, .merged⟩ = 1 ∧ puts trace ⟨1, .merged⟩ = 1)
        []
        (fun both => (Run.plan ⟨"clip", twoChunks.take (cond both 2 1), .resume⟩).run)
        (Commons.fresh (fun _ => 3) .empty) := by
  obtain ⟨solo, ended⟩ : Run.Succeeds ⟨"clip", twoChunks, .resume⟩ .verbatim :=
    succeeds_iff.mpr ⟨List.cons_ne_nil _ _, twoRows, recurrence_twoChunks⟩
  let runs (both : Bool) : Run := ⟨"clip", twoChunks.take (cond both 2 1), .resume⟩
  have first (both : Bool) : (runs both).chunks <+: twoChunks := List.take_prefix _ _
  have counts (both : Bool) : (runs both).count = cond both 1 0 + 1 := by cases both <;> rfl
  have nonempty (both : Bool) : (runs both).chunks ≠ [] := by cases both <;> decide
  have policies (both : Bool) : (runs both).policy ≠ .strict := by simp [runs]
  have stored {key : Key} (mine : key ∈ runKeys 2) :
      (((runs true).fresh .verbatim).2.state.get? key).isSome := by
    obtain ⟨_, -, -, stored⟩ := fresh_of_recurrence (counts true) (recurrence_twoChunks.take 2)
    rw [stored, canonical_isSome]
    exact mine
  have ends := share_ledger ended first nonempty policies
    (MemoryLedger.within_empty _) (fun _ => ()) fun _ => 3
  refine ⟨solo, ended, ends.mono (fun _ _ => trivial) ?_⟩
  rintro results state trace ⟨ends, once⟩
  obtain ⟨value, alone, fine, same, output⟩ := ends true
  cases ended.symm.trans same
  have once {key : Key} (mine : key ∈ runKeys 2) : puts trace key = 1 :=
    once (fun _ => rfl) true key (stored mine)
  exact ⟨⟨value, fine, output⟩, once (by decide), once (by decide)⟩

end Run

end Transcode
