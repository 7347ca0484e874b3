/-
**Batches**: orders that are carried out side by side, and whose results arrive in any order.

* `Order.plan` is an order from its chunks, if they were found, to the finished stream.
* `Batch.gather` puts the results back in the order of the orders, by the position that each of them
  was given. Not every run has one to send (`Batch.arrives`).
-/
import Transcode.Run.Coordinator
import Transcode.Run.Order

namespace Transcode

/-- Carries out an order over the chunks that were found. -/
def Order.plan (order : Order) (chunks : Except SplitError (List RawChunk)) :
    Run.Plan Run.Result := do
  let run ← Run.Plan.ofJob (Run.Job.ofExcept (order.toRun chunks))
  run.plan

namespace Batch

variable {α : Type}

/-- Whether there is a result to send: a run that has panicked sends none. -/
def arrives : Except RunError α → Bool
  | .ok _ => true
  | .error error => !error.isPanic

/-- A slot for each of `count` results, filled with those that have arrived. -/
def slots (count : Nat) (arrived : List (Nat × α)) : List (Option α) :=
  arrived.foldl (fun slots (position, result) => slots.set position (some result))
    (List.replicate count none)

/-- The results that have arrived, of the runs that have ended. -/
def arrived (ended : List (Nat × Except RunError α)) : List (Nat × Except RunError α) :=
  ended.filter fun (_, result) => arrives result

/-- The result of each order by its source, in the order of the orders, once their runs have ended.
An order whose result has not arrived has failed. -/
def gather (orders : List Order) (ended : List (Nat × Except RunError α)) :
    List (String × Except RunError α) :=
  (orders.zip (slots orders.length (arrived ended))).map fun (order, slot) =>
    (order.source, slot.getD (.error (.internal (.noResult order.source))))

end Batch

end Transcode
