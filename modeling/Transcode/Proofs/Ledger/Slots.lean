/-
**What a ledger makes of a workspace folder**, whatever lies in it. An operation on the ledger of a
source depends on what lies under the names that spell a slot of the source, and changes no more
than the file of one slot.

* `FolderLedger.contains_eq_true`, `get_eq_ok`, `fill_eq_duplicateKey` and `mem_keys`: when a slot
  counts as filled, by each of the operations.
* `FolderLedger.answer_cases`: what an operation does to the tree, and
  `FolderLedger.answer_snd_of_error`: one that fails changes nothing.
* `FolderLedger.answer_congr`: folders with the same things under these names answer alike.
-/
import Transcode.Ledger.OnDisk
import Transcode.Proofs.Disk.Folder
import Transcode.Proofs.FileName
import Transcode.Proofs.Ledger.KeySet

namespace Transcode

/-! ### What lies under a name -/

namespace Disk

variable {disk later : Disk} {directory name : String} {location : Location} {node : Node}

/-- What the path of a name in a folder leads to. -/
theorem FolderAt.stat?_eq_ok (here : disk.FolderAt directory location) (step : Path.IsStep name) :
    disk.stat? (Path.join directory name) = .ok node ↔
      '\x00' ∉ name.toList ∧ Addressable directory name ∧
        disk.node? (location ++ [name]) = some node := by
  by_cases nul : '\x00' ∈ name.toList
  · simp [here.stat?_join_of_nul step nul, nul]
  · rw [here.stat?_join ⟨step, nul⟩]
    by_cases short : Addressable directory name
    · cases disk.node? (location ++ [name]) <;> simp [short, nul]
    · simp [short]

/-- Folders with the same thing under a name show the same under it. -/
theorem FolderAt.stat?_congr (here : disk.FolderAt directory location)
    (there : later.FolderAt directory location) (step : Path.IsStep name)
    (same : disk.node? (location ++ [name]) = later.node? (location ++ [name])) :
    disk.stat? (Path.join directory name) = later.stat? (Path.join directory name) := by
  by_cases nul : '\x00' ∈ name.toList
  · rw [here.stat?_join_of_nul step nul, there.stat?_join_of_nul step nul]
  · rw [here.stat?_join ⟨step, nul⟩, there.stat?_join ⟨step, nul⟩, same]

/-- Trees show the same at the given places. -/
def Agrees (shown : Location → Prop) (disk later : Disk) : Prop :=
  ∀ place, shown place → disk.node? place = later.node? place

theorem Agrees.set {shown : Location → Prop} {place : Location} (agrees : Agrees shown disk later)
    (placed : place ≠ []) (node : Node) :
    Agrees shown (disk.set place node) (later.set place node) := by
  intro other visible
  rw [node?_set disk placed, node?_set later placed, agrees other visible]

/-- A complete file is put under a name alike where the same lies there. -/
theorem FolderAt.persist_congr (here : disk.FolderAt directory location)
    (there : later.FolderAt directory location) (step : Path.IsStep name)
    {shown : Location → Prop} (agrees : Agrees shown disk later)
    (visible : shown (location ++ [name])) (data : Bytes) (clobber : Bool) :
    (disk.persist (Path.join directory name) data clobber).1 =
        (later.persist (Path.join directory name) data clobber).1 ∧
      Agrees shown (disk.persist (Path.join directory name) data clobber).2
        (later.persist (Path.join directory name) data clobber).2 := by
  by_cases nul : '\x00' ∈ name.toList
  · rw [here.persist_join_of_nul step nul, there.persist_join_of_nul step nul]
    exact ⟨rfl, agrees⟩
  · rw [here.persist_join ⟨step, nul⟩, there.persist_join ⟨step, nul⟩]
    by_cases short : Addressable directory name
    · have below : location ++ [name] ≠ [] := by simp
      have placed := agrees.set below (.file data false)
      simp only [if_pos short, install, agrees _ visible]
      cases later.node? (location ++ [name]) with
      | none => exact ⟨rfl, placed⟩
      | some node =>
        cases node with
        | folder => cases clobber <;> exact ⟨rfl, agrees⟩
        | file =>
          cases clobber with
          | false => exact ⟨rfl, agrees⟩
          | true => exact ⟨rfl, placed⟩
    · rw [if_neg short, if_neg short]
      exact ⟨rfl, agrees⟩

/-- Whatever lies under a name is in the way of a new file. -/
theorem FolderAt.persist_eq_alreadyExists (here : disk.FolderAt directory location)
    (step : Path.IsStep name) (data : Bytes) :
    (disk.persist (Path.join directory name) data false).1 = .error .alreadyExists ↔
      ∃ node, disk.stat? (Path.join directory name) = .ok node := by
  simp only [here.stat?_eq_ok step]
  by_cases nul : '\x00' ∈ name.toList
  · simp [here.persist_join_of_nul step nul, nul]
  · rw [here.persist_join ⟨step, nul⟩]
    by_cases short : Addressable directory name
    · cases found : disk.node? (location ++ [name]) <;> simp [short, nul, found, install, commit]
    · simp [short]

end Disk

namespace FolderLedger

open Disk (Addressable)

variable {workspace source : String} {location : Location} {disk later : Disk} {key : Key}

/-! ### When a slot counts as filled -/

theorem isStep_artifact (slash : '/' ∉ source.toList) (key : Key) :
    Path.IsStep (FileName.artifact source key) :=
  (FileName.spells_artifact source key).isStep slash

/-- The ledger has a slot if anything lies at its file. -/
theorem contains_eq_true (ledger : FolderLedger) :
    ledger.contains key disk = .ok true ↔ ∃ node, disk.stat? (ledger.path key) = .ok node := by
  unfold contains Disk.isPresent
  cases disk.stat? (ledger.path key) with
  | ok node => simp [Except.mapError]
  | error error => cases error <;> simp [Except.mapError]

/-- The ledger has an artifact for a slot if its file is a regular one. -/
theorem get_eq_ok (ledger : FolderLedger) {artifact : Artifact} :
    ledger.get key disk = .ok artifact ↔ ∃ data executable,
      disk.stat? (ledger.path key) = .ok (.file data executable) ∧
        artifact = .ofBytes key.kind data := by
  unfold get Disk.read
  cases disk.stat? (ledger.path key) with
  | ok node => cases node <;> simp [bind, Except.bind, eq_comm]
  | error error => cases error <;> simp [bind, Except.bind]

/-- What filling a slot comes to. -/
theorem fill_eq (ledger : FolderLedger) (artifact : Artifact) (clobber : Bool) (disk : Disk) :
    ledger.fill key artifact clobber disk =
      match Ledger.checkFit key artifact with
      | .error error => (.error error, disk)
      | .ok () =>
        ((disk.persist (ledger.path key) artifact.bytes clobber).1.mapError (failure key),
          (disk.persist (ledger.path key) artifact.bytes clobber).2) := by
  unfold fill
  generalize disk.persist (ledger.path key) artifact.bytes clobber = persisted
  cases Ledger.checkFit key artifact <;> rfl

section Folder

variable (here : disk.FolderAt workspace location) (slash : '/' ∉ source.toList)
include here slash

/-- A slot cannot be filled again if anything lies at its file. -/
theorem fill_eq_duplicateKey {artifact : Artifact} (fit : artifact.fits key = true) :
    (fill ⟨workspace, source⟩ key artifact false disk).1 = .error (.duplicateKey key) ↔
      ∃ node, disk.stat? (path ⟨workspace, source⟩ key) = .ok node := by
  rw [path, ← here.persist_eq_alreadyExists (isStep_artifact slash key) artifact.bytes, fill_eq,
    path, Ledger.checkFit, if_pos fit]
  cases (disk.persist (Path.join workspace (FileName.artifact source key)) artifact.bytes
    false).1 with
  | ok => simp [Except.mapError]
  | error error => cases error <;> simp [Except.mapError, failure]

/-- The ledger lists a slot if a regular file has a name that spells it. -/
theorem mem_keys {keys : KeySet} (listed : FolderLedger.keys ⟨workspace, source⟩ disk = .ok keys) :
    key ∈ keys ↔ key.chunk ≤ Number.maxWord ∧
      ∃ name, FileName.Spells source key name ∧ disk.isFile (Path.join workspace name) = true := by
  simp only [FolderLedger.keys, here.list, bind, Except.bind, Except.mapError,
    Except.ok.injEq] at listed
  subst listed
  simp only [KeySet.mem_ofList, List.mem_filterMap, List.mem_filter, FileName.parse?_eq_some]
  constructor
  · rintro ⟨name, ⟨-, file⟩, spells, small⟩
    exact ⟨small, name, spells, file⟩
  · rintro ⟨small, name, spells, file⟩
    refine ⟨name, ⟨?_, file⟩, spells, small⟩
    unfold Disk.isFile at file
    cases found : disk.stat? (Path.join workspace name) with
    | error error => simp [found] at file
    | ok node =>
      have present := ((here.stat?_eq_ok (spells.isStep slash)).mp found).2.2
      simp [Disk.mem_childNames, present]

omit slash in
/-- The ledger of a folder can always list its slots. -/
theorem exists_keys (source : String) :
    ∃ keys, FolderLedger.keys ⟨workspace, source⟩ disk = .ok keys := by
  simp [FolderLedger.keys, here.list, bind, Except.bind, Except.mapError]

end Folder

/-! ### Changes -/

/-- Filling a slot either changes nothing or puts the file in place, and then it succeeds. -/
theorem fill_cases (here : disk.FolderAt workspace location) (slash : '/' ∉ source.toList)
    (key : Key) (artifact : Artifact) (clobber : Bool) :
    (fill ⟨workspace, source⟩ key artifact clobber disk).2 = disk ∨
      (∀ error, (fill ⟨workspace, source⟩ key artifact clobber disk).1 ≠ .error error) ∧
        disk.node? (location ++ [FileName.artifact source key]) ≠ some .folder ∧
        (fill ⟨workspace, source⟩ key artifact clobber disk).2 =
          disk.set (location ++ [FileName.artifact source key]) (.file artifact.bytes false) := by
  rw [fill_eq, path]
  cases Ledger.checkFit key artifact with
  | error error => exact .inl rfl
  | ok =>
    have cases := here.persist_cases (isStep_artifact slash key) artifact.bytes clobber
    generalize disk.persist (Path.join workspace (FileName.artifact source key)) artifact.bytes
      clobber = persisted at cases ⊢
    refine cases.imp_right ?_
    rintro ⟨fine, free, changed⟩
    refine ⟨fun error => ?_, free, changed⟩
    rw [fine]
    nofun

/-- An operation either changes nothing or puts a file in place, and then it succeeds. -/
theorem answer_cases (here : disk.FolderAt workspace location) (slash : '/' ∉ source.toList)
    (op : Ledger.Op) :
    (answer ⟨workspace, source⟩ disk op).2 = disk ∨
      (∀ error, (answer ⟨workspace, source⟩ disk op).1 ≠ .error error) ∧
        ∃ key data, disk.node? (location ++ [FileName.artifact source key]) ≠ some .folder ∧
          (answer ⟨workspace, source⟩ disk op).2 =
            disk.set (location ++ [FileName.artifact source key]) (.file data false) := by
  cases op with
  | contains | keys | get => exact .inl rfl
  | put key artifact =>
    exact (fill_cases here slash key artifact false).imp_right fun ⟨fine, changed⟩ =>
      ⟨fine, key, artifact.bytes, changed⟩
  | overwrite key artifact =>
    exact (fill_cases here slash key artifact true).imp_right fun ⟨fine, changed⟩ =>
      ⟨fine, key, artifact.bytes, changed⟩

/-- The workspace stays where it is, whatever happens. -/
theorem folderAt_answer (here : disk.FolderAt workspace location)
    (slash : '/' ∉ source.toList) (op : Ledger.Op) :
    (answer ⟨workspace, source⟩ disk op).2.FolderAt workspace location := by
  rcases answer_cases here slash op with same | ⟨-, key, data, free, changed⟩
  · rwa [same]
  · rw [changed]
    exact here.set (by simp) free _

/-- An operation that fails changes nothing. -/
theorem answer_snd_of_error (here : disk.FolderAt workspace location)
    (slash : '/' ∉ source.toList) {op : Ledger.Op} {error : LedgerError}
    (failed : (answer ⟨workspace, source⟩ disk op).1 = .error error) :
    (answer ⟨workspace, source⟩ disk op).2 = disk :=
  (answer_cases here slash op).resolve_right fun changed => changed.1 error failed

/-! ### What an operation depends on -/

section Congruence

variable (here : disk.FolderAt workspace location) (there : later.FolderAt workspace location)
  (slash : '/' ∉ source.toList) {shown : Location → Prop} (agrees : Disk.Agrees shown disk later)
  (visible : ∀ key name, FileName.Spells source key name → shown (location ++ [name]))
include here there slash agrees visible

theorem stat?_congr (key : Key) :
    disk.stat? (path ⟨workspace, source⟩ key) = later.stat? (path ⟨workspace, source⟩ key) :=
  here.stat?_congr there (isStep_artifact slash key)
    (agrees _ (visible key _ (FileName.spells_artifact source key)))

theorem contains_congr (key : Key) : contains ⟨workspace, source⟩ key disk =
    contains ⟨workspace, source⟩ key later := by
  have seen := stat?_congr here there slash agrees visible key
  unfold contains Disk.isPresent
  rw [seen]

theorem get_congr (key : Key) :
    get ⟨workspace, source⟩ key disk = get ⟨workspace, source⟩ key later := by
  have seen := stat?_congr here there slash agrees visible key
  unfold get Disk.read
  rw [seen]

theorem keys_congr :
    FolderLedger.keys ⟨workspace, source⟩ disk = FolderLedger.keys ⟨workspace, source⟩ later := by
  obtain ⟨keys, listed⟩ := exists_keys here source
  obtain ⟨others, found⟩ := exists_keys there source
  -- The folders need not list the same names, but as slots of the source they do.
  have members : ∀ key, key ∈ keys ↔ key ∈ others := by
    intro key
    rw [mem_keys here slash listed, mem_keys there slash found]
    refine and_congr_right fun _ => exists_congr fun name => and_congr_right fun spells => ?_
    rw [Disk.isFile, Disk.isFile,
      here.stat?_congr there (spells.isStep slash) (agrees _ (visible key name spells))]
  simp only [FolderLedger.keys, here.list, there.list, bind, Except.bind, Except.mapError,
    Except.ok.injEq] at listed found ⊢
  subst listed found
  exact KeySet.ofList_congr fun key => by simpa only [KeySet.mem_ofList] using members key

theorem fill_congr (key : Key) (artifact : Artifact) (clobber : Bool) :
    (fill ⟨workspace, source⟩ key artifact clobber disk).1 =
        (fill ⟨workspace, source⟩ key artifact clobber later).1 ∧
      Disk.Agrees shown (fill ⟨workspace, source⟩ key artifact clobber disk).2
        (fill ⟨workspace, source⟩ key artifact clobber later).2 := by
  obtain ⟨same, after⟩ := here.persist_congr there (isStep_artifact slash key) agrees
    (visible key _ (FileName.spells_artifact source key)) artifact.bytes clobber
  rw [fill_eq, fill_eq, path]
  cases Ledger.checkFit key artifact with
  | error error => exact ⟨rfl, agrees⟩
  | ok =>
    simp only [same, true_and]
    exact after

/-- **Folders that agree on the names that spell a slot of the source answer alike**, and still
agree after that. -/
theorem answer_congr (op : Ledger.Op) :
    (answer ⟨workspace, source⟩ disk op).1 = (answer ⟨workspace, source⟩ later op).1 ∧
      Disk.Agrees shown (answer ⟨workspace, source⟩ disk op).2
        (answer ⟨workspace, source⟩ later op).2 := by
  cases op with
  | contains key =>
    rw [answer, answer, contains_congr here there slash agrees visible]
    exact ⟨rfl, agrees⟩
  | get key =>
    rw [answer, answer, get_congr here there slash agrees visible]
    exact ⟨rfl, agrees⟩
  | keys =>
    rw [answer, answer, keys_congr here there slash agrees visible]
    exact ⟨rfl, agrees⟩
  | put key artifact =>
    rw [answer, answer]
    exact fill_congr here there slash agrees visible key artifact false
  | overwrite key artifact =>
    rw [answer, answer]
    exact fill_congr here there slash agrees visible key artifact true

end Congruence

end FolderLedger

end Transcode
