/-
**Orders that are accepted.** An order is accepted just if its source is not blank, holds no
separator, and at least one chunk is asked for.

* `Order.create_eq_ok`, `Order.mapM_create_eq_ok`: which orders are accepted, one or several.
* `Order.slash_notMem`: no slash is among the separators that are left.
-/
import Mathlib.Tactic.SplitIfs
import Transcode.Run.Order

namespace Transcode.Order

variable {source : String} {sources : List String} {count : Nat} {policy : Policy} {order : Order}
  {orders : List Order}

theorem create_eq_ok : create source count policy = .ok order ↔
    Blank.trim source ≠ "" ∧ hasSeparator source = false ∧ count ≠ 0 ∧
      order = ⟨source, count, policy⟩ := by
  unfold create
  split_ifs with blank separated empty
  · simp [blank]
  · simp [separated]
  · simp [empty]
  · rw [Except.ok.injEq, eq_comm]
    exact ⟨fun same => ⟨blank, by simpa using separated, empty, same⟩, fun sound => sound.2.2.2⟩

theorem slash_notMem (plain : hasSeparator source = false) : '/' ∉ source.toList := by
  intro member
  have found : hasSeparator source = true := List.any_eq_true.mpr ⟨'/', member, by decide⟩
  rw [plain] at found
  cases found

/-- Several orders are accepted together, or none is. -/
theorem mapM_create_eq_ok
    (accepted : sources.mapM (fun source => create source count policy) = .ok orders) :
    orders = sources.map (fun source => ⟨source, count, policy⟩) ∧
      ∀ source ∈ sources, hasSeparator source = false := by
  induction sources generalizing orders with
  | nil =>
    obtain rfl : [] = orders := by simpa [pure, Except.pure] using accepted
    exact ⟨rfl, fun _ member => nomatch member⟩
  | cons source sources ih =>
    rw [List.mapM_cons] at accepted
    match first : create source count policy with
    | .error error => simp [first, bind, Except.bind] at accepted
    | .ok order =>
      match rest : sources.mapM (fun source => create source count policy) with
      | .error error => simp [first, rest, bind, Except.bind] at accepted
      | .ok others =>
        obtain rfl : order :: others = orders := by
          simpa [first, rest, bind, Except.bind, pure, Except.pure] using accepted
        obtain ⟨-, plain, -, rfl⟩ := create_eq_ok.mp first
        obtain ⟨rfl, further⟩ := ih rest
        exact ⟨rfl, List.forall_mem_cons.mpr ⟨plain, further⟩⟩

end Transcode.Order
