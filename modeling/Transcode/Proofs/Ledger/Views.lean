/-
**The four views of a workspace folder.** Whether a slot is filled can be asked in four ways: by the
list of all slots, by looking for its file, by reading it, and by trying to fill it. They look at
the folder in different ways, so they agree as far as the folder holds what ledgers put there.

* `FolderLedger.Holds`: a regular file lies at the file of the slot, so reading the slot succeeds.
* `FolderLedger.Unambiguous`: no regular file has another name that spells the slot.
* `FolderLedger.contains_of_holds`, `holds_of_contains`, `mem_keys_of_holds` and
  `holds_of_mem_keys`: how the views are related, for any content of the folder.
* `FolderLedger.holds_answer`: no operation takes away what the ledger holds.
-/
import Transcode.Proofs.Ledger.Slots

namespace Transcode.FolderLedger

variable {workspace source : String} {location : Location} {disk later : Disk} {key : Key}

/-- A regular file lies at the file of the slot. -/
def Holds (ledger : FolderLedger) (disk : Disk) (key : Key) : Prop :=
  ∃ artifact, ledger.get key disk = .ok artifact

/-- No regular file has another name that spells the slot. -/
def Unambiguous (ledger : FolderLedger) (disk : Disk) (key : Key) : Prop :=
  ∀ name, FileName.Spells ledger.source key name →
    disk.isFile (Path.join ledger.workspace name) = true →
      name = FileName.artifact ledger.source key

theorem holds_iff_isFile {ledger : FolderLedger} :
    ledger.Holds disk key ↔ disk.isFile (ledger.path key) = true := by
  simp only [Holds, get_eq_ok, Disk.isFile]
  cases disk.stat? (ledger.path key) with
  | error error => simp
  | ok node => cases node <;> simp

theorem holds_iff (here : disk.FolderAt workspace location) (slash : '/' ∉ source.toList) :
    Holds ⟨workspace, source⟩ disk key ↔
      '\x00' ∉ (FileName.artifact source key).toList ∧
        Disk.Addressable workspace (FileName.artifact source key) ∧ ∃ data executable,
          disk.node? (location ++ [FileName.artifact source key]) =
            some (.file data executable) := by
  have step := isStep_artifact slash key
  constructor
  · rintro ⟨artifact, read⟩
    obtain ⟨data, executable, seen, -⟩ := (get_eq_ok _).mp read
    obtain ⟨nul, short, found⟩ := (here.stat?_eq_ok step).mp seen
    exact ⟨nul, short, data, executable, found⟩
  · rintro ⟨nul, short, data, executable, found⟩
    have seen := (here.stat?_eq_ok step).mpr ⟨nul, short, found⟩
    exact ⟨_, (get_eq_ok _).mpr ⟨data, executable, seen, rfl⟩⟩

theorem contains_of_holds {ledger : FolderLedger} (holds : ledger.Holds disk key) :
    ledger.contains key disk = .ok true := by
  obtain ⟨artifact, read⟩ := holds
  obtain ⟨data, executable, seen, -⟩ := (get_eq_ok _).mp read
  exact (contains_eq_true _).mpr ⟨_, seen⟩

/-- What is there can be read, if it is no folder. -/
theorem holds_of_contains {ledger : FolderLedger} (plain : disk.isFolder (ledger.path key) = false)
    (present : ledger.contains key disk = .ok true) : ledger.Holds disk key := by
  obtain ⟨node, seen⟩ := (contains_eq_true _).mp present
  cases node with
  | file data executable => exact ⟨_, (get_eq_ok _).mpr ⟨data, executable, seen, rfl⟩⟩
  | folder => simp [Disk.isFolder, seen] at plain

section Listed

variable (here : disk.FolderAt workspace location) (slash : '/' ∉ source.toList) {keys : KeySet}
  (listed : FolderLedger.keys ⟨workspace, source⟩ disk = .ok keys)
include here slash listed

theorem mem_keys_of_holds (small : key.chunk ≤ Number.maxWord)
    (holds : Holds ⟨workspace, source⟩ disk key) : key ∈ keys := by
  have file := holds_iff_isFile.mp holds
  rw [path] at file
  exact (mem_keys here slash listed).mpr
    ⟨small, _, FileName.spells_artifact source key, file⟩

/-- What is listed can be read, if no other name spells the slot. -/
theorem holds_of_mem_keys (unambiguous : Unambiguous ⟨workspace, source⟩ disk key)
    (member : key ∈ keys) : Holds ⟨workspace, source⟩ disk key := by
  obtain ⟨-, name, spells, file⟩ := (mem_keys here slash listed).mp member
  obtain rfl := unambiguous name spells file
  exact holds_iff_isFile.mpr file

end Listed

/-- Filling a slot never fails for one that is empty. -/
theorem fill_ne_notFound (ledger : FolderLedger) (key slot : Key) (artifact : Artifact)
    (clobber : Bool) (disk : Disk) :
    (ledger.fill key artifact clobber disk).1 ≠ .error (.notFound slot) := by
  intro failed
  rw [fill_eq, Ledger.checkFit] at failed
  split_ifs at failed
  · cases persisted : (disk.persist (ledger.path key) artifact.bytes clobber).1 with
    | ok => simp [persisted, Except.mapError] at failed
    | error error =>
      simp only [persisted, Except.mapError, failure] at failed
      split_ifs at failed <;> cases failed
  · cases failed

/-- No operation takes away what the ledger holds. -/
theorem holds_answer (here : disk.FolderAt workspace location) (slash : '/' ∉ source.toList)
    (op : Ledger.Op) (holds : Holds ⟨workspace, source⟩ disk key) :
    Holds ⟨workspace, source⟩ (answer ⟨workspace, source⟩ disk op).2 key := by
  have there := folderAt_answer here slash op
  rcases answer_cases here slash op with same | ⟨-, slot, data, -, changed⟩
  · rwa [same]
  · rw [holds_iff here slash] at holds
    rw [holds_iff there slash, changed, Disk.node?_set disk (by simp)]
    obtain ⟨nul, short, content, executable, found⟩ := holds
    refine ⟨nul, short, ?_⟩
    split_ifs
    · exact ⟨data, false, rfl⟩
    · exact ⟨content, executable, found⟩

end Transcode.FolderLedger
