/-
**What a tree of files shows.** Each operation on a tree is determined by what it does to
`Disk.node?`.

* `Disk.node?_set`: putting a node at a location changes no other location.
* `Disk.mem_childNames`: the names in a folder are those under which something lies.
* `Disk.follow_append`: names are followed one after another, and `Disk.follow_of_folders`: only
  folders matter on the way.
-/
import Mathlib.Data.List.Infix
import Transcode.Association
import Transcode.Disk.Basic

namespace Transcode.Disk

variable {disk later : Disk} {location other reached : Location} {name : String}

/-! ### Nodes -/

theorem node?_of_ne_nil (placed : location ≠ []) :
    disk.node? location = disk.entries.lookup location := by
  cases location with
  | nil => exact absurd rfl placed
  | cons first rest => rfl

/-- Putting a node at a location changes no other location. -/
theorem node?_set (disk : Disk) (placed : location ≠ []) (node : Node) (other : Location) :
    (disk.set location node).node? other =
      if other = location then some node else disk.node? other := by
  cases other with
  | nil => simp [node?, placed.symm]
  | cons first rest => exact Association.lookup_rebind disk.entries location _ node

/-- The names in a folder are those under which something lies. -/
theorem mem_childNames :
    name ∈ disk.childNames location ↔ (disk.node? (location ++ [name])).isSome := by
  rw [node?_of_ne_nil (by simp), List.lookup_isSome_iff, childNames, List.mem_filterMap]
  refine exists_congr fun ⟨place, node⟩ => and_congr_right fun _ => ?_
  rw [beq_iff_eq]
  constructor
  · intro child
    obtain ⟨rfl, last⟩ := Option.ite_none_right_eq_some.mp child
    exact List.dropLast_append_getLast? name last
  · rintro rfl
    simp

/-- A file is put in place only where no folder is. -/
theorem eq_of_install {data : Bytes} {clobber : Bool}
    (installed : disk.install location data clobber = .ok later) :
    disk.node? location ≠ some .folder ∧ later = disk.set location (.file data false) := by
  unfold install at installed
  split at installed <;> simp_all

/-! ### Following names -/

theorem follow_append (disk : Disk) (location : Location) (front back : List String) :
    disk.follow location (front ++ back) =
      (disk.follow location front).bind fun reached => disk.follow reached back := by
  fun_induction follow disk location front with
  | case1 => rfl
  | case2 location name rest none => simp [follow, none, Except.bind]
  | case3 location name rest data executable file => simp [follow, file, Except.bind]
  | case4 location name rest folder idle ih => simpa [follow, folder, idle] using ih
  | case5 location rest folder idle ih =>
    rw [List.cons_append, follow, folder]
    simpa using ih
  | case6 location name rest folder idle up long =>
    simp [follow, folder, idle, up, long, Except.bind]
  | case7 location name rest folder idle up short ih =>
    rw [List.cons_append, follow, folder]
    simpa [idle, up, short] using ih

/-- Names that stand for the folder itself lead nowhere else. -/
theorem follow_of_follow_idle {front : List String} (idle : name = "" ∨ name = ".")
    (followed : disk.follow location (front ++ [name]) = .ok reached) :
    disk.follow location front = .ok reached := by
  rw [follow_append] at followed
  match front_eq : disk.follow location front with
  | .error error => simp [front_eq, Except.bind] at followed
  | .ok middle =>
    simp only [front_eq, Except.bind, follow, if_pos idle] at followed
    split at followed <;> simp_all

/-- Where a way to something begins, there is something. -/
theorem isSome_of_follow {names : List String}
    (followed : disk.follow location names = .ok reached)
    (present : (disk.node? reached).isSome) : (disk.node? location).isSome := by
  cases names with
  | nil =>
    rw [follow, Except.ok.injEq] at followed
    rwa [followed]
  | cons name rest =>
    cases found : disk.node? location with
    | none => simp [follow, found] at followed
    | some node => rfl

/-- Only folders matter on the way. -/
theorem follow_of_folders {names : List String}
    (folders : ∀ place, disk.node? place = some .folder → later.node? place = some .folder)
    (followed : disk.follow location names = .ok reached) :
    later.follow location names = .ok reached := by
  fun_induction follow disk location names <;> simp_all [follow]

end Transcode.Disk
