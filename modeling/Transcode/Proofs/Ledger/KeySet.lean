/-
**Sets of keys are strictly increasing lists.**

* `Key.lt` is a strict order (`Key.lt_irrefl`, `Key.lt_trans`) in which two different keys are
  always comparable (`Key.lt_of_not_lt`).
* `KeySet.ofList` keeps its members in that order (`KeySet.increasing_ofList`), so each of them
  stands in the list once, and lists of the same members make the same set
  (`KeySet.ofList_congr`).
* `KeySet.firstMissing_eq_some` — the first member that another set lacks is the least of them.
-/
import Mathlib.Data.List.Nodup
import Transcode.Artifact

namespace Transcode

namespace Key

theorem lt_iff {key other : Key} : key.lt other = true ↔
    key.chunk < other.chunk ∨ (key.chunk = other.chunk ∧ key.kind.rank < other.kind.rank) := by
  simp [lt]

theorem lt_irrefl (key : Key) : ¬ key.lt key = true := by
  simp [lt_iff]

theorem lt_trans {key middle other : Key} (first : key.lt middle = true)
    (second : middle.lt other = true) : key.lt other = true := by
  simp only [lt_iff, ChunkIndex] at *
  omega

/-- Of two different keys one comes first. -/
theorem lt_of_not_lt {key other : Key} (differs : key ≠ other) (later : ¬ key.lt other = true) :
    other.lt key = true := by
  obtain ⟨chunk, kind⟩ := key
  obtain ⟨place, sort⟩ := other
  rw [lt_iff] at *
  rcases Nat.lt_trichotomy chunk place with before | rfl | after
  · exact absurd (.inl before) later
  · have ranks : kind.rank ≠ sort.rank := fun same => differs (by rw [Kind.rank_injective same])
    exact .inr ⟨rfl, by grind⟩
  · exact .inl after

end Key

namespace KeySet

/-- The members stand in order, each once. -/
def Increasing (set : KeySet) : Prop :=
  set.Pairwise fun key other => key.lt other = true

theorem Increasing.nodup {set : KeySet} (increasing : Increasing set) : set.Nodup :=
  increasing.imp fun {key other} before same => by
    subst same
    exact key.lt_irrefl before

theorem increasing_insert {key : Key} {set : KeySet} (increasing : Increasing set) :
    Increasing (insert key set) := by
  induction set with
  | nil => exact List.pairwise_singleton _ key
  | cons first rest ih =>
    obtain ⟨front, tail⟩ := List.pairwise_cons.mp increasing
    unfold insert
    split
    · exact increasing
    · next differs =>
      split
      · next before =>
        refine List.pairwise_cons.mpr ⟨fun other member => ?_, increasing⟩
        rcases List.mem_cons.mp member with rfl | member
        · exact before
        · exact Key.lt_trans before (front other member)
      · next after =>
        refine List.pairwise_cons.mpr ⟨fun other member => ?_, ih tail⟩
        rcases mem_insert.mp member with rfl | member
        · exact Key.lt_of_not_lt differs after
        · exact front other member

theorem increasing_ofList (keys : List Key) : Increasing (ofList keys) := by
  suffices ∀ set : KeySet, Increasing set →
      Increasing (keys.foldl (fun set key => insert key set) set) from this [] List.Pairwise.nil
  induction keys with
  | nil => exact fun set increasing => increasing
  | cons key rest ih => exact fun set increasing => ih _ (increasing_insert increasing)

/-- Lists of the same members make the same set. -/
theorem ofList_congr {keys others : List Key} (same : ∀ key, key ∈ keys ↔ key ∈ others) :
    ofList keys = ofList others := by
  refine List.Perm.eq_of_pairwise (fun key other _ _ before after => ?_)
    (increasing_ofList keys) (increasing_ofList others)
    ((List.perm_ext_iff_of_nodup (increasing_ofList keys).nodup
      (increasing_ofList others).nodup).mpr fun key => ?_)
  · exact absurd (Key.lt_trans before after) (Key.lt_irrefl key)
  · rw [mem_ofList, mem_ofList, same]

/-- Nothing is missing from a set that has all that is required. -/
theorem firstMissing_eq_none {required existing : KeySet} :
    required.firstMissing existing = none ↔ ∀ key ∈ required, key ∈ existing := by
  simp [firstMissing]

/-- The first member that the other set lacks is the least of those. -/
theorem firstMissing_eq_some {required existing : KeySet} (increasing : Increasing required)
    {key : Key} (first : required.firstMissing existing = some key) :
    key ∈ required ∧ key ∉ existing ∧
      ∀ other ∈ required, other ∉ existing → other = key ∨ key.lt other = true := by
  obtain ⟨absent, before, after, rfl, present⟩ := List.find?_eq_some_iff_append.mp first
  refine ⟨by simp, by simpa using absent, fun other member lacking => ?_⟩
  rcases List.mem_append.mp member with early | late
  · exact absurd (present other early) (by simpa using lacking)
  · refine (List.mem_cons.mp late).imp_right fun behind => ?_
    exact (List.pairwise_cons.mp (List.pairwise_append.mp increasing).2.1).1 other behind

/-- The set of the listed keys has as many members as any list of the same members. -/
theorem length_ofList {keys members : List Key} (distinct : members.Nodup)
    (same : ∀ key, key ∈ keys ↔ key ∈ members) : (ofList keys).length = members.length := by
  refine List.Perm.length_eq ((List.perm_ext_iff_of_nodup
    (increasing_ofList keys).nodup distinct).mpr fun key => ?_)
  rw [mem_ofList, same]

end KeySet

end Transcode
