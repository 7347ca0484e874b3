/-
**Rehearsed runs.** A `Rehearsal` stands between a run and its codec: it counts the calls and lets
the planned faults happen, so that what a run makes of a failing, lying or interrupted codec can be
observed. `Rehearsal.service` answers the requests of a run from an archive and from such a codec.
-/
import Transcode.Ledger.Archive
import Transcode.Run.Basic

namespace Transcode

/-- What a fault does to a call. -/
inductive FaultEffect where
  /-- The call goes on. -/
  | none
  /-- The call fails. -/
  | fail (text : String)
  /-- The call yields other bytes. -/
  | replace (bytes : Bytes)
  deriving DecidableEq, Repr

/-- A planned fault. -/
structure Fault where
  operation : Codec.Operation
  /-- The chunk, or for calls without one the number of earlier calls, at which it happens. -/
  place : Option Nat
  /-- How many occasions are let pass first. -/
  skip : Nat
  /-- How often it happens. -/
  times : Nat
  /-- Whether it fires the cancellation token. -/
  cancels : Bool
  effect : FaultEffect
  deriving DecidableEq, Repr

/-- Planned faults, and the calls so far. -/
structure Rehearsal where
  faults : List Fault
  calls : List Codec.Operation
  deriving DecidableEq, Repr

namespace Rehearsal

/-- Nothing planned, and no calls. -/
def idle : Rehearsal :=
  ⟨[], []⟩

/-- The number of calls of an operation. -/
def count (rehearsal : Rehearsal) (operation : Codec.Operation) : Nat :=
  rehearsal.calls.count operation

/-- The occasion at which a call happens. -/
def occasion (rehearsal : Rehearsal) (call : Codec.Call) : Nat :=
  call.chunk?.getD (rehearsal.count call.operation)

/-- What the faults do on an occasion: their effect, whether they cancel, and what is left of
them. They are looked at in order, up to the first with an effect. -/
def strike (operation : Codec.Operation) (occasion : Nat) :
    List Fault → FaultEffect × Bool × List Fault
  | [] => (.none, false, [])
  | fault :: rest =>
    let pass (fault : Fault) (cancels : Bool) : FaultEffect × Bool × List Fault :=
      let (effect, others, rest) := strike operation occasion rest
      (effect, cancels || others, fault :: rest)
    if fault.operation ≠ operation ∨ fault.place.getD occasion ≠ occasion then pass fault false
    else if 0 < fault.skip then pass { fault with skip := fault.skip - 1 } false
    else if fault.times = 0 then pass fault false
    else
      let used := { fault with times := fault.times - 1 }
      match fault.effect with
      | .none => pass used fault.cancels
      | effect => (effect, fault.cancels, used :: rest)

/-- The answer to a call whose bytes are replaced. Calls that also yield a state are made first. -/
def replaced (bytes : Bytes) : (call : Codec.Call) → call.Answer → call.Answer
  | .encode _, _ => .ok ⟨bytes⟩
  | .decodeState _, _ => .ok ⟨bytes⟩
  | .encodeGivenState .., answer => answer.map fun encoded => { encoded with stream := ⟨bytes⟩ }
  | .rebase .., answer => answer.map fun encoded => { encoded with stream := ⟨bytes⟩ }
  | .merge .., _ => .ok ⟨bytes⟩
  | .decode _, _ => .ok bytes

/-- The answer of the codec after the faults, the rehearsal after the call, and whether the
cancellation token fires. -/
def answer (codec : Codec) (call : Codec.Call) (rehearsal : Rehearsal) :
    call.Answer × Rehearsal × Bool :=
  let (effect, cancels, faults) :=
    strike call.operation (rehearsal.occasion call) rehearsal.faults
  let answer : call.Answer :=
    match effect with
    | .none => codec.answer call
    | .fail text => .error (.other text)
    | .replace bytes => replaced bytes call (codec.answer call)
  (answer, ⟨faults, call.operation :: rehearsal.calls⟩, cancels)

/-- Answers the requests of a run. -/
def service (codec : Codec) : Service Run.interface (Archive × Rehearsal) :=
  Run.service
    (fun op (archive, rehearsal) =>
      let (answer, archive) := archive.answer op
      (answer, archive, rehearsal))
    (fun call (archive, rehearsal) =>
      let (answer, rehearsal, cancels) := rehearsal.answer codec call
      (answer, (archive, rehearsal), cancels))

end Rehearsal

end Transcode
