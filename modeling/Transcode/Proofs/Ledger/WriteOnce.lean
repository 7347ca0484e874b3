/-
**Slots are filled once.** Whatever is done to a ledger in memory, each slot holds what belongs
there; and as long as a slot is neither overwritten nor emptied, it keeps what was first put into
it.

* `MemoryLedger.Edit` is a change to the ledger, well-typed or not; `MemoryLedger.after` is the
  ledger after changes in a row, and `MemoryLedger.outcomes` what came of each.
* `MemoryLedger.get?_edit`, `MemoryLedger.get?_after` — a slot that is spared holds what it held, or
  else the first fitting artifact that was put into it.
* `MemoryLedger.count_fills` — so it is filled once if it was empty and something fitting is put
  into it, and never otherwise.
* `MemoryLedger.slots_filled_once` — the law for all changes to a ledger that was empty.
-/
import Transcode.Proofs.Ledger.Memory
import Transcode.Proofs.Ledger.Sources

namespace Transcode.MemoryLedger

open Ledger (Access)

variable {ledger : MemoryLedger} {key : Key} {artifact : Artifact}

/-! ### Changes -/

/-- A change to a ledger. -/
inductive Edit where
  | put (key : Key) (artifact : Artifact)
  | overwrite (key : Key) (artifact : Artifact)
  | remove (key : Key)
  deriving DecidableEq, Repr

namespace Edit

/-- Whether the change can take away what a slot holds. -/
def replaces (key : Key) : Edit → Bool
  | put .. => false
  | overwrite other _ | remove other => other = key

/-- What the change puts into an empty slot, if it belongs there. -/
def offered? (key : Key) : Edit → Option Artifact
  | put other artifact => if other = key ∧ artifact.fits key = true then some artifact else none
  | overwrite .. | remove _ => none

/-- Whether the change is a put into the slot. -/
def isPut (key : Key) : Edit → Bool
  | put other _ => other = key
  | overwrite .. | remove _ => false

end Edit

/-- What comes of a change, and the ledger after it. -/
def edit (ledger : MemoryLedger) : Edit → Except LedgerError Unit × MemoryLedger
  | .put key artifact => ledger.answer (.put key artifact)
  | .overwrite key artifact => ledger.answer (.overwrite key artifact)
  | .remove key => (.ok (), ledger.remove key)

/-- The ledger after changes in a row. -/
def after (ledger : MemoryLedger) (edits : List Edit) : MemoryLedger :=
  edits.foldl (fun ledger change => (ledger.edit change).2) ledger

/-- Changes in a row, each with what comes of it. -/
def outcomes (ledger : MemoryLedger) : List Edit → List (Edit × Except LedgerError Unit)
  | [] => []
  | change :: rest => (change, (ledger.edit change).1) :: outcomes (ledger.edit change).2 rest

/-- Whether a change has filled the slot. -/
def fills (key : Key) (outcome : Edit × Except LedgerError Unit) : Bool :=
  outcome.1.isPut key && outcome.2.isOk

/-- What an access to the ledger yields. -/
def access (ledger : MemoryLedger) (access : Access) : access.Answer :=
  access.reply (ledger.answer access.request).1

/-- **A change that fails** leaves the ledger as it is. -/
theorem edit_snd_of_error {change : Edit} {error : LedgerError}
    (failed : (ledger.edit change).1 = .error error) : (ledger.edit change).2 = ledger := by
  have kept (result : Except LedgerError MemoryLedger)
      (failed : (ledger.commit result).1 = .error error) : (ledger.commit result).2 = ledger := by
    cases result with
    | ok changed => cases failed
    | error cause => rfl
  cases change with
  | put key artifact => exact kept _ failed
  | overwrite key artifact => exact kept _ failed
  | remove key => cases failed

/-! ### What belongs in its slot -/

theorem Typed.edit (typed : ledger.Typed) (change : Edit) : (ledger.edit change).2.Typed := by
  cases change with
  | put key artifact => exact typed.answer _
  | overwrite key artifact => exact typed.answer _
  | remove key =>
    intro other held found
    have kept : (ledger.remove key).get? other = some held := found
    rw [get?_remove] at kept
    split at kept
    · cases kept
    · exact typed other held kept

/-- **Whatever is changed**, every slot holds what belongs there. -/
theorem Typed.after (typed : ledger.Typed) (edits : List Edit) : (ledger.after edits).Typed := by
  induction edits generalizing ledger with
  | nil => exact typed
  | cons change rest ih => exact ih (typed.edit change)

theorem get_of_some (held : ledger.get? key = some artifact) : ledger.get key = .ok artifact := by
  rw [get, held]

theorem get_of_none (empty : ledger.get? key = none) : ledger.get key = .error (.notFound key) := by
  rw [get, empty]

/-- A slot for bitstreams is read as one, or it is empty. -/
theorem Typed.access_bitstream (typed : ledger.Typed) (declared : key.kind.payload = .bitstream) :
    (∃ stream, ledger.access (.bitstream key) = .ok stream) ∨
      ledger.access (.bitstream key) = .error (.notFound key) := by
  show (∃ stream, (ledger.get key).bind (Ledger.asBitstream key) = .ok stream) ∨
    (ledger.get key).bind (Ledger.asBitstream key) = .error (.notFound key)
  cases held : ledger.get? key with
  | none =>
    rw [get_of_none held]
    exact .inr rfl
  | some artifact =>
    have fit := of_decide_eq_true (typed key artifact held)
    rw [get_of_some held]
    cases artifact with
    | bitstream stream => exact .inl ⟨stream, rfl⟩
    | state handle => exact nomatch fit.trans declared

/-- A slot for states is read as one, or it is empty. -/
theorem Typed.access_state (typed : ledger.Typed) (declared : key.kind.payload = .state) :
    (∃ handle, ledger.access (.state key) = .ok handle) ∨
      ledger.access (.state key) = .error (.notFound key) := by
  show (∃ handle, (ledger.get key).bind (Ledger.asState key) = .ok handle) ∨
    (ledger.get key).bind (Ledger.asState key) = .error (.notFound key)
  cases held : ledger.get? key with
  | none =>
    rw [get_of_none held]
    exact .inr rfl
  | some artifact =>
    have fit := of_decide_eq_true (typed key artifact held)
    rw [get_of_some held]
    cases artifact with
    | bitstream stream => exact nomatch fit.trans declared
    | state handle => exact .inl ⟨handle, rfl⟩

/-! ### A slot that is spared -/

/-- **One change** that spares a slot: it holds what it held, or else what is put into it. -/
theorem get?_edit {change : Edit} (spared : change.replaces key = false) :
    (ledger.edit change).2.get? key = (ledger.get? key).or (change.offered? key) := by
  cases change with
  | put other artifact =>
    show (ledger.answer (.put other artifact)).2.get? key = _
    by_cases same : other = key
    · subst same
      cases fit : artifact.fits other with
      | false => simp [answer_put_of_misfit fit, Edit.offered?, fit]
      | true =>
        cases held : ledger.get? other with
        | some holding => simp [answer_put_of_some fit held, held]
        | none => simp [answer_put_of_none fit held, Edit.offered?, fit, get?_insert_self]
    · have none : (Edit.put other artifact).offered? key = none := by simp [Edit.offered?, same]
      rw [none, Option.or_none]
      rcases ledger.answer_put_cases other artifact with kept | ⟨-, kept⟩ | filled
      · rw [kept]
      · rw [kept]
      · rw [filled]
        exact get?_insert_of_ne ledger (Ne.symm same) artifact
  | overwrite other artifact =>
    have same : key ≠ other := fun equal => of_decide_eq_false spared equal.symm
    show (ledger.answer (.overwrite other artifact)).2.get? key = (ledger.get? key).or none
    rw [Option.or_none]
    rcases ledger.answer_overwrite_cases other artifact with kept | filled
    · rw [kept]
    · rw [filled]
      exact get?_insert_of_ne ledger same artifact
  | remove other =>
    have same : key ≠ other := fun equal => of_decide_eq_false spared equal.symm
    show (ledger.remove other).get? key = (ledger.get? key).or none
    rw [get?_remove, if_neg same, Option.or_none]

/-- **Changes in a row** that spare a slot: it holds what it held, or else the first that is put
into it. -/
theorem get?_after {edits : List Edit} (spared : ∀ change ∈ edits, change.replaces key = false) :
    (ledger.after edits).get? key =
      (ledger.get? key).or (edits.findSome? (Edit.offered? key)) := by
  induction edits generalizing ledger with
  | nil => exact (Option.or_none).symm
  | cons change rest ih =>
    show ((ledger.edit change).2.after rest).get? key = _
    rw [ih fun other member => spared other (List.mem_cons_of_mem _ member),
      get?_edit (spared change List.mem_cons_self), Option.or_assoc, List.findSome?_cons]
    cases change.offered? key <;> rfl

/-- A change fills a slot by a put just if the slot is empty and what is put there belongs there. -/
theorem fills_edit (ledger : MemoryLedger) (key : Key) (change : Edit) :
    fills key (change, (ledger.edit change).1) =
      ((ledger.get? key).isNone && (change.offered? key).isSome) := by
  cases change with
  | put other artifact =>
    show (decide (other = key) && (ledger.answer (.put other artifact)).1.isOk) = _
    by_cases same : other = key
    · subst same
      cases fit : artifact.fits other with
      | false => simp [answer_put_of_misfit fit, Edit.offered?, fit, Except.isOk, Except.toBool]
      | true =>
        cases held : ledger.get? other with
        | some holding => simp [answer_put_of_some fit held, Except.isOk, Except.toBool]
        | none => simp [answer_put_of_none fit held, Edit.offered?, fit, Except.isOk, Except.toBool]
    · simp [Edit.offered?, same]
  | overwrite other artifact => exact (Bool.and_false _).symm
  | remove other => exact (Bool.and_false _).symm

/-- **How often a slot that is spared is filled**: once if it was empty and something is put into it
that belongs there, and otherwise never. -/
theorem count_fills {edits : List Edit} (spared : ∀ change ∈ edits, change.replaces key = false) :
    (ledger.outcomes edits).countP (fills key) =
      if ledger.get? key = none ∧ (edits.findSome? (Edit.offered? key)).isSome then 1 else 0 := by
  induction edits generalizing ledger with
  | nil => simp [outcomes]
  | cons change rest ih =>
    have next : (ledger.edit change).2.get? key = (ledger.get? key).or (change.offered? key) :=
      get?_edit (spared change List.mem_cons_self)
    rw [outcomes, List.countP_cons, fills_edit, List.findSome?_cons,
      ih fun other member => spared other (List.mem_cons_of_mem _ member), next]
    cases held : ledger.get? key with
    | some holding => simp
    | none => cases change.offered? key <;> simp

/-- Something that belongs there was put into the slot. -/
theorem isSome_findSome?_offered {edits : List Edit} :
    (edits.findSome? (Edit.offered? key)).isSome ↔
      ∃ earlier, .put key earlier ∈ edits ∧ earlier.payload = key.kind.payload := by
  rw [List.findSome?_isSome_iff]
  constructor
  · rintro ⟨change, member, offered⟩
    cases change with
    | put other artifact =>
      simp only [Edit.offered?] at offered
      split at offered
      · next belongs =>
        obtain ⟨rfl, fit⟩ := belongs
        exact ⟨artifact, member, of_decide_eq_true fit⟩
      · cases offered
    | overwrite other artifact => cases offered
    | remove other => cases offered
  · rintro ⟨earlier, member, fit⟩
    exact ⟨_, member, by simp [Edit.offered?, Artifact.fits, fit]⟩

/-! ### The law -/

/-- **Slots are filled once.** Let a ledger in memory come about from the empty one by any changes,
whatever they are. Every artifact in it is of the payload that its slot declares, so that a slot is
never found to hold the other one when it is read; and a change that fails leaves the ledger as it
is. While a slot is neither overwritten nor emptied, at most one put into it succeeds. An artifact
of the wrong payload is refused for that. The first that belongs there is stored if the slot was
empty, and found there ever after; and every other one, before which there was something in the
slot, is refused as a duplicate. -/
theorem slots_filled_once (history : List Edit) :
    let ledger := empty.after history
    (∀ key artifact, ledger.get? key = some artifact → artifact.payload = key.kind.payload) ∧
    (∀ key other cause,
      (key.kind.payload = .bitstream →
        ledger.access (.bitstream key) ≠ .error (.corrupt other cause)) ∧
      (key.kind.payload = .state → ledger.access (.state key) ≠ .error (.corrupt other cause))) ∧
    (∀ change error, (ledger.edit change).1 = .error error → (ledger.edit change).2 = ledger) ∧
    ∀ key stretch, (∀ change ∈ stretch, change.replaces key = false) →
      (ledger.outcomes stretch).countP (fills key) ≤ 1 ∧
      ∀ before artifact behind, stretch = before ++ .put key artifact :: behind →
        let outcome := ((ledger.after before).edit (.put key artifact)).1
        (artifact.payload ≠ key.kind.payload →
          outcome = .error (.corrupt key (.payloadMismatch key.kind.payload))) ∧
        (artifact.payload = key.kind.payload → ledger.get? key = none →
          (∀ earlier, .put key earlier ∈ before → earlier.payload ≠ key.kind.payload) →
          outcome = .ok () ∧ ∀ more, more <+: behind →
            (ledger.after (before ++ .put key artifact :: more)).get key = .ok artifact) ∧
        (artifact.payload = key.kind.payload →
          ((∃ held, ledger.get? key = some held) ∨
            ∃ earlier, .put key earlier ∈ before ∧ earlier.payload = key.kind.payload) →
          outcome = .error (.duplicateKey key)) := by
  intro ledger
  have typed : ledger.Typed := typed_empty.after history
  refine ⟨fun key artifact held => of_decide_eq_true (typed key artifact held),
    fun key other cause => ⟨fun declared corrupt => ?_, fun declared corrupt => ?_⟩,
    fun _ _ => edit_snd_of_error, fun key stretch spared => ⟨?_, ?_⟩⟩
  · rcases typed.access_bitstream declared with ⟨stream, read⟩ | absent
    · exact nomatch read.symm.trans corrupt
    · exact nomatch absent.symm.trans corrupt
  · rcases typed.access_state declared with ⟨handle, read⟩ | absent
    · exact nomatch read.symm.trans corrupt
    · exact nomatch absent.symm.trans corrupt
  · rw [count_fills spared]
    split <;> omega
  · rintro before artifact behind rfl
    intro outcome
    have there : (ledger.after before).get? key =
        (ledger.get? key).or (before.findSome? (Edit.offered? key)) :=
      get?_after fun change member => spared change (List.mem_append_left _ member)
    refine ⟨fun misfit => ?_, fun fit vacant first => ?_, fun fit taken => ?_⟩
    · exact congrArg Prod.fst (answer_put_of_misfit (decide_eq_false misfit))
    · have nothing : before.findSome? (Edit.offered? key) = none := by
        refine Option.not_isSome_iff_eq_none.mp fun offered => ?_
        obtain ⟨earlier, member, belongs⟩ := isSome_findSome?_offered.mp offered
        exact first earlier member belongs
      rw [vacant, nothing] at there
      refine ⟨congrArg Prod.fst (answer_put_of_none (decide_eq_true fit) there),
        fun more begins => get_of_some ?_⟩
      have offered : (Edit.put key artifact).offered? key = some artifact :=
        if_pos ⟨rfl, decide_eq_true fit⟩
      have sparedMore : ∀ change ∈ before ++ .put key artifact :: more,
          change.replaces key = false := by
        intro change member
        refine spared change (List.IsPrefix.subset ?_ member)
        exact (List.prefix_append_right_inj _).mpr (List.cons_prefix_cons.mpr ⟨rfl, begins⟩)
      rw [get?_after sparedMore, vacant, List.findSome?_append, nothing, List.findSome?_cons,
        offered]
      rfl
    · have full : ∃ held, (ledger.after before).get? key = some held := by
        rw [there]
        rcases taken with ⟨held, found⟩ | earlier
        · exact ⟨held, by rw [found, Option.some_or]⟩
        · obtain ⟨other, offered⟩ :=
            Option.isSome_iff_exists.mp (isSome_findSome?_offered.mpr earlier)
          rw [offered]
          cases ledger.get? key with
          | none => exact ⟨other, rfl⟩
          | some held => exact ⟨held, rfl⟩
      obtain ⟨held, found⟩ := full
      exact congrArg Prod.fst (answer_put_of_some (decide_eq_true fit) found)

/-- A slot for a bitstream. It was filled, filled anew and emptied; then come a state that does not
belong there, two bitstreams in a row, and a state for another slot between them. -/
theorem slots_filled_once_threePuts :
    let slot : Key := ⟨0, .merged⟩
    let first : Artifact := .bitstream ⟨[1]⟩
    let ledger := empty.after [.put slot first, .overwrite slot (.bitstream ⟨[5]⟩), .remove slot]
    let misfit : Edit := .put slot (.state ⟨[9]⟩)
    let between : Edit := .overwrite ⟨0, .decodeState⟩ (.state ⟨[3]⟩)
    let stretch : List Edit := [misfit, .put slot first, between, .put slot (.bitstream ⟨[2]⟩)]
    ledger.access (.bitstream slot) ≠ .error (.corrupt slot (.payloadMismatch .bitstream)) ∧
      (ledger.edit misfit).2 = ledger ∧
      (ledger.outcomes stretch).countP (fills slot) ≤ 1 ∧
      (ledger.edit misfit).1 = .error (.corrupt slot (.payloadMismatch .bitstream)) ∧
      ((ledger.after [misfit]).edit (.put slot first)).1 = .ok () ∧
      (ledger.after stretch).get slot = .ok first ∧
      ((ledger.after [misfit, .put slot first, between]).edit
        (.put slot (.bitstream ⟨[2]⟩))).1 = .error (.duplicateKey slot) := by
  intro slot first ledger misfit between stretch
  obtain ⟨-, reads, failures, law⟩ := slots_filled_once
    [.put slot first, .overwrite slot (.bitstream ⟨[5]⟩), .remove slot]
  have spared : ∀ change ∈ stretch, change.replaces slot = false := by decide
  obtain ⟨once, puts⟩ := law slot stretch spared
  obtain ⟨refused, -, -⟩ := puts [] (.state ⟨[9]⟩) _ rfl
  obtain ⟨-, stored, -⟩ := puts [misfit] first _ rfl
  obtain ⟨-, -, duplicate⟩ := puts [misfit, .put slot first, between] (.bitstream ⟨[2]⟩) [] rfl
  have onlyMisfit : ∀ earlier, Edit.put slot earlier ∈ [misfit] →
      earlier.payload ≠ slot.kind.payload := by
    intro earlier member
    injection List.mem_singleton.mp member with _ same
    rw [same]
    decide
  obtain ⟨filled, kept⟩ := stored rfl rfl onlyMisfit
  exact ⟨(reads slot slot _).1 rfl, failures misfit _ (refused (by decide)), once,
    refused (by decide), filled, kept _ (List.prefix_refl _),
    duplicate rfl (.inr ⟨first, by decide, rfl⟩)⟩

end Transcode.MemoryLedger
