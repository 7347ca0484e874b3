/-
**Parts of commands**, one after another: what the first has done stands, and the second goes on
from there if the first has not failed.
-/
import Transcode.CommandLine.Program

namespace Transcode.Program

/-- The desk with other lines printed and another tree of files. -/
def Desk.left (desk : Desk) (output : List String) (disk : Disk) : Desk :=
  { output, world := { desk.world with state := { desk.world.state with disk } } }

/-- The tree of files on the desk. -/
def Desk.disk (desk : Desk) : Disk :=
  desk.world.state.disk

namespace Work

variable {α β : Type}

theorem run_bind (work : Work α) (next : α → Work β) (desk : Desk) :
    (work >>= next).run.run desk =
      match work.run.run desk with
      | (.ok value, desk) => (next value).run.run desk
      | (.error error, desk) => (.error error, desk) := by
  rw [ExceptT.run_bind, StateT.run_bind]
  show (match work.run.run desk with | (result, desk) => _) = _
  match work.run.run desk with
  | (.ok value, later) => rfl
  | (.error error, later) => rfl

section Ended

variable {work : Work α} {desk : Desk}

theorem run_bind_of_ok {value : α} (next : α → Work β) (ended : (work.run.run desk).1 = .ok value) :
    (work >>= next).run.run desk = (next value).run.run (work.run.run desk).2 := by
  rw [run_bind]
  generalize work.run.run desk = ran at ended ⊢
  obtain ⟨result, later⟩ := ran
  obtain rfl : result = .ok value := ended
  rfl

theorem run_bind_of_error {error : CommandError} (next : α → Work β)
    (ended : (work.run.run desk).1 = .error error) :
    (work >>= next).run.run desk = (.error error, (work.run.run desk).2) := by
  rw [run_bind]
  generalize work.run.run desk = ran at ended ⊢
  obtain ⟨result, later⟩ := ran
  obtain rfl : result = .error error := ended
  rfl

end Ended

theorem run_bind_pure (work : Work α) (next : α → β) (desk : Desk) :
    (work >>= fun value => pure (next value)).run.run desk =
      ((work.run.run desk).1.map next, (work.run.run desk).2) := by
  rw [run_bind]
  match work.run.run desk with
  | (.ok value, later) => rfl
  | (.error error, later) => rfl

theorem run_ofRun (result : Except RunError α) (desk : Desk) :
    (ofRun result).run.run desk = (result.mapError CommandError.run, desk) := by
  cases result <;> rfl

theorem run_onWorld (act : World Site → α × World Site) (desk : Desk) :
    (onWorld act).run.run desk =
      (.ok (act desk.world).1, { desk with world := (act desk.world).2 }) :=
  rfl

theorem run_onSite (act : Site → Except RunError α × Site) (desk : Desk) :
    (onSite act).run.run desk =
      ((act desk.world.state).1.mapError CommandError.run,
        { desk with world := { desk.world with state := (act desk.world.state).2 } }) :=
  run_ofRun (act desk.world.state).1 _

/-- All that a part of a command does is to print. -/
def OnlyPrints (work : Work Unit) : Prop :=
  ∀ desk, ∃ output, work.run.run desk = (.ok (), desk.left output desk.disk)

theorem onlyPrints_print (line : String) : OnlyPrints (print line) :=
  fun desk => ⟨desk.output ++ [line], rfl⟩

theorem onlyPrints_printAll (lines : List String) : OnlyPrints (printAll lines) :=
  fun desk => ⟨desk.output ++ lines, rfl⟩

/-- What is printed on one condition only does not matter to what follows. -/
theorem OnlyPrints.run_when {work : Work Unit} (prints : OnlyPrints work) (condition : Bool)
    (next : Unit → Work α) (desk : Desk) : ∃ output,
      (if condition then work >>= next else next ()).run.run desk =
        (next ()).run.run (desk.left output desk.disk) := by
  cases condition with
  | true =>
    obtain ⟨output, printed⟩ := prints desk
    exact ⟨output, by rw [if_pos rfl, run_bind, printed]⟩
  | false => exact ⟨desk.output, rfl⟩

theorem run_writeFile (path : String) (bytes : Bytes) (desk : Desk) :
    (writeFile path bytes).run.run desk =
      ((desk.disk.persist path bytes true).1.mapError (CommandError.writing path),
        desk.left desk.output (desk.disk.persist path bytes true).2) := by
  rw [writeFile, run_bind, run_onWorld]
  simp only
  rw [Desk.disk]
  rcases desk.world.state.disk.persist path bytes true with ⟨error | ⟨⟩, later⟩ <;> rfl

end Work

end Transcode.Program
