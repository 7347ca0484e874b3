/-
**What belongs in the slots of a run**, and who may write where.

* A `Blueprint` is a run together with the rows that its chunks lead to and with what is known of
  its surroundings. If these are `unreliable`, the run may end in one of the `excused` errors; codec
  calls may fail and the run may be interrupted where every error is excused, but no call is
  answered wrongly.
* A slot is `Filled` if it holds the artifact of its row, the codec call behind that artifact may be
  answered so, and a strict run was `entitled` to fill it. It is `Vacant` if the policy of the run
  allows to fill it, or a strict run is excused for finding it taken.
* `Blueprint.conduct` is the conduct of a part of a run that fills slots of its `own`: nobody undoes
  a filled slot, and the slots `reserved` for it stay vacant as far as others are concerned.
-/
import Transcode.Proofs.Ledger.Memory
import Transcode.Proofs.Run.Job
import Transcode.Proofs.Run.Recurrence
import Transcode.Proofs.Run.Serves

namespace Transcode

/-- A run with the artifacts that it is to store, and what is known of its surroundings. -/
structure Blueprint where
  run : Run
  codec : Codec
  rows : ChunkIndex → Row
  recurrence : Recurrence codec run.chunks rows
  setting : Setting Run.interface MemoryLedger
  /-- The possible answers to codec calls. -/
  answers : (call : Codec.Call) → call.Answer → Prop
  serves : ∀ {service}, setting.services service → Run.Serves answers service
  /-- Whether the run may end in an error. -/
  unreliable : Prop
  /-- The errors that it may end in. -/
  excused : RunError → Prop
  grounds : ∀ {error}, excused error → unreliable
  truthful : ∀ {call : Codec.Call} {answer : call.Answer}, answers call answer →
    answer = codec.answer call ∨ ((∀ error, excused error) ∧ ∃ error, answer = .error error)
  interruptible : setting.interruptible → ∀ error, excused error
  /-- The slots that the run may come to fill if it is strict. -/
  entitled : Key → Prop

namespace Blueprint

variable (blueprint : Blueprint)

/-! ### Slots -/

/-- The artifact that belongs in a slot. -/
def slot (key : Key) : Option Artifact :=
  (blueprint.rows key.chunk).artifact? key

/-- The codec call that yields the artifact of a slot of this chunk may be answered with it. The
first chunk only takes over what it has. -/
def Earned (raw : RawChunk) : Key → Prop
  | ⟨chunk, .baseline⟩ => blueprint.answers (.encode raw) (.ok (blueprint.rows chunk).baseline)
  | ⟨chunk, .decodeState⟩ =>
    blueprint.answers (.decodeState (blueprint.rows chunk).baseline)
      (.ok (blueprint.rows chunk).decoded)
  | ⟨0, _⟩ => True
  | ⟨previous + 1, .encodeV0⟩ | ⟨previous + 1, .encodeV0State⟩ =>
    blueprint.answers (.encodeGivenState raw (blueprint.rows previous).decoded
      (blueprint.rows (previous + 1)).baseline) (.ok (blueprint.rows (previous + 1)).v0)
  | ⟨previous + 1, .encodeV1⟩ | ⟨previous + 1, .encodeV1State⟩ =>
    blueprint.answers (.encodeGivenState raw (blueprint.rows previous).v0.state
      (blueprint.rows (previous + 1)).baseline) (.ok (blueprint.rows (previous + 1)).v1)
  | ⟨previous + 1, .rebased⟩ | ⟨previous + 1, .rebasedState⟩ =>
    blueprint.answers (.rebase raw (blueprint.rows previous).rebased.state
      (blueprint.rows previous).v0.state (blueprint.rows (previous + 1)).v1.stream)
      (.ok (blueprint.rows (previous + 1)).rebased)
  | ⟨previous + 1, .merged⟩ =>
    blueprint.answers (.merge (blueprint.rows previous).merged
      (blueprint.rows (previous + 1)).rebased.stream) (.ok (blueprint.rows (previous + 1)).merged)

theorem Earned.of_found {blueprint : Blueprint} {key : Key} {raw : RawChunk}
    (earned : blueprint.Earned raw key) (found : blueprint.run.chunks[key.chunk]? = some raw)
    (other : RawChunk) (here : blueprint.run.chunks[key.chunk]? = some other) :
    blueprint.Earned other key := by
  cases found.symm.trans here
  exact earned

/-- Where the codec may always answer, every artifact of the rows is earned. -/
theorem earned_of_answers {blueprint : Blueprint}
    (answering : ∀ call, blueprint.answers call (blueprint.codec.answer call)) {key : Key}
    (raw : RawChunk) (found : blueprint.run.chunks[key.chunk]? = some raw) :
    blueprint.Earned raw key := by
  have yields {call : Codec.Call} {value : call.Result}
      (succeeds : blueprint.codec.answer call = .ok value) :
      blueprint.answers call (.ok value) := succeeds ▸ answering call
  obtain ⟨chunk, kind⟩ := key
  cases chunk with
  | zero =>
    cases kind with
    | baseline => exact yields (blueprint.recurrence.baseline found)
    | decodeState => exact yields (blueprint.recurrence.decoded found)
    | _ => trivial
  | succ previous =>
    have row := blueprint.recurrence.continues previous raw found
    cases kind with
    | baseline => exact yields row.baseline
    | decodeState => exact yields row.decoded
    | encodeV0 | encodeV0State => exact yields row.v0
    | encodeV1 | encodeV1State => exact yields row.v1
    | rebased | rebasedState => exact yields row.rebased
    | merged => exact yields row.merged

/-- **The slot holds what belongs there.** -/
structure Filled (key : Key) (held : Option Artifact) : Prop where
  held : held = blueprint.slot key
  earned : ∀ raw, blueprint.run.chunks[key.chunk]? = some raw → blueprint.Earned raw key
  entitled : blueprint.run.policy = .strict → blueprint.entitled key

/-- **The policy of the run allows to fill the slot**, or it has an excuse not to. -/
def Vacant (key : Key) (held : Option Artifact) : Prop :=
  match blueprint.run.policy with
  | .resume => held = none ∨ blueprint.Filled key held
  | .overwrite => True
  | .strict =>
    (held = none ∧ blueprint.entitled key) ∨
      (held ≠ none ∧ blueprint.excused (.duplicateArtifact key))

theorem vacant_none {key : Key} (entitled : blueprint.entitled key) :
    blueprint.Vacant key none := by
  unfold Vacant
  split <;> simp [entitled]

/-! ### Conduct -/

/-- **The conduct of a part of a run** that fills its own slots. -/
def conduct (own reserved : Key → Prop) : Conduct MemoryLedger where
  rely ledger later := ∀ key,
    (blueprint.Filled key (ledger.get? key) → blueprint.Filled key (later.get? key)) ∧
      (reserved key → blueprint.Vacant key (ledger.get? key) →
        blueprint.Vacant key (later.get? key))
  guarantee ledger later := ∀ key,
    later.get? key = ledger.get? key ∨ (own key ∧ blueprint.Filled key (later.get? key))
  rely_refl _ _ := ⟨id, fun _ => id⟩
  rely_trans first second key :=
    ⟨fun filled => (second key).1 ((first key).1 filled),
      fun kept vacant => (second key).2 kept ((first key).2 kept vacant)⟩
  guarantee_refl _ _ := .inl rfl

variable {blueprint} {own reserved wider : Key → Prop}

/-- Parts that own less, and have less reserved, are within. -/
theorem within_conduct {larger : Key → Prop} (owned : ∀ key, own key → wider key)
    (kept : ∀ key, reserved key → larger key) :
    (blueprint.conduct own reserved).Within (blueprint.conduct wider larger) where
  rely allowed key := ⟨(allowed key).1, fun mine => (allowed key).2 (kept key mine)⟩
  guarantee guaranteed key := (guaranteed key).imp_right (And.imp_left (owned key))

/-- Steps in a row do no more than each of them may. -/
theorem guarantee_trans {first second third : MemoryLedger}
    (before : (blueprint.conduct own reserved).guarantee first second)
    (after : (blueprint.conduct own reserved).guarantee second third) :
    (blueprint.conduct own reserved).guarantee first third := by
  intro key
  rcases after key with same | filled
  · rw [same]
    exact before key
  · exact .inr filled

/-- What one part does, others rely on, if they have nothing reserved that it owns. -/
theorem rely_of_guarantee (apart : ∀ key, own key → ¬ reserved key) {ledger later : MemoryLedger}
    (guaranteed : (blueprint.conduct own wider).guarantee ledger later) :
    (blueprint.conduct wider reserved).rely ledger later := by
  intro key
  rcases guaranteed key with same | ⟨mine, filled⟩
  · rw [same]
    exact ⟨id, fun _ => id⟩
  · exact ⟨fun _ => filled, fun kept => absurd kept (apart key mine)⟩

end Blueprint

end Transcode
