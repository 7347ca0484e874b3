/-
**Services over the ledger in memory**, and the settings in which runs are studied.

* `Serves` holds of a service that answers every ledger operation from the ledger in memory and
  every codec call as a relation allows, and keeps the ledger as it is during codec calls.
* In `Run.exactly` the codec has no side effects and nothing interrupts the run. In
  `Run.serving` any call may be answered in any of the ways the relation allows, another way
  each time, and the run may be interrupted at any moment.
-/
import Transcode.Proofs.Schedule.Step
import Transcode.Run.Basic

namespace Transcode.Run

/-- Answers ledger operations from the ledger in memory, and codec calls as `answers` allows. -/
structure Serves (answers : (call : Codec.Call) → call.Answer → Prop)
    (service : Service interface MemoryLedger) : Prop where
  ledger : ∀ op ledger, (service.reply (.ledger op) ledger).answer = (ledger.answer op).1
  change : ∀ op ledger, (service.reply (.ledger op) ledger).state = (ledger.answer op).2
  codec : ∀ call ledger, answers call (service.reply (.codec call) ledger).answer
  quiet : ∀ call ledger, (service.reply (.codec call) ledger).state = ledger

theorem Serves.mono {answers wider : (call : Codec.Call) → call.Answer → Prop}
    (within : ∀ call answer, answers call answer → wider call answer)
    {service : Service interface MemoryLedger} (serves : Serves answers service) :
    Serves wider service where
  ledger := serves.ledger
  change := serves.change
  codec call ledger := within _ _ (serves.codec call ledger)
  quiet := serves.quiet

/-- The ledger in memory, beside answers that depend on nothing but the call. -/
theorem serves_service {answers : (call : Codec.Call) → call.Answer → Prop}
    {answer : (call : Codec.Call) → call.Answer} (allowed : ∀ call, answers call (answer call)) :
    Serves answers (service (fun op ledger => ledger.answer op)
      fun call ledger => (answer call, ledger, false)) where
  ledger _ _ := rfl
  change _ _ := rfl
  codec call _ := allowed call
  quiet _ _ := rfl

theorem serves_inMemory (codec : Codec) :
    Serves (fun call answer => answer = codec.answer call) (inMemory codec) :=
  serves_service fun _ => rfl

/-- A codec without side effects, and no interruption. -/
def exactly (codec : Codec) : Setting interface MemoryLedger where
  services service := service = inMemory codec
  interruptible := False
  cancels := by
    rintro _ rfl (op | call) ledger fired <;> cases fired

theorem serves_exactly {codec : Codec} {service : Service interface MemoryLedger}
    (only : (exactly codec).services service) :
    Serves (fun call answer => answer = codec.answer call) service :=
  only ▸ serves_inMemory codec

/-- Codec calls are answered in any of the given ways, and anything may interrupt the run. -/
def serving (answers : (call : Codec.Call) → call.Answer → Prop) :
    Setting interface MemoryLedger where
  services := Serves answers
  interruptible := True
  cancels _ _ _ _ := trivial

/-- The codec answers a call, or fails this time. -/
def MayFail (codec : Codec) (call : Codec.Call) (answer : call.Answer) : Prop :=
  answer = codec.answer call ∨ ∃ error, answer = .error error

/-- Codec calls may fail, another one each time, and nothing interrupts the run. -/
def failing (codec : Codec) : Setting interface MemoryLedger where
  services service := Serves (MayFail codec) service ∧
    ∀ request ledger, (service.reply request ledger).cancels = false
  interruptible := False
  cancels serves request ledger fired := by
    rw [serves.2] at fired
    cases fired

theorem serves_failing (codec : Codec) : (failing codec).services (inMemory codec) :=
  ⟨serves_service fun _ => .inl rfl, fun request _ => by cases request <;> rfl⟩

end Transcode.Run
