/-
**The workspace folder holds what the ledgers in memory hold.** `FolderLedger.Mirrors` relates a
tree of files to one ledger in memory for each source that is used: every filled slot is a file
under the name of the slot, and no other file in the workspace has a name that could be taken for a
slot.

* `FolderLedger.Mirrors.fill`: filling a slot on both sides keeps the relation, since no two slots
  of any sources share a name.
* `FolderLedger.Mirrors.contains`, `get`, `keys` and `fill_of_fit`: what each operation does on the
  folder, by what the ledger in memory holds.
* `FolderLedger.Mirrors.answer`: an operation that the file system does not fail answers as in
  memory.
-/
import Mathlib.Logic.Function.Basic
import Transcode.Proofs.Ledger.Memory
import Transcode.Proofs.Ledger.Slots

namespace Transcode

/-- The slot that an operation is about. -/
def Ledger.Op.slot? : Ledger.Op → Option Key
  | contains key | get key | put key _ | overwrite key _ => some key
  | keys => none

/-- Whether the operation is to fill a slot with an artifact that does not belong there. -/
def Ledger.Op.IsMisfit : Ledger.Op → Prop
  | put key artifact | overwrite key artifact => artifact.fits key = false
  | _ => False

/-- Whether the storage failed, rather than the ledger refused. -/
def LedgerError.isStorage : LedgerError → Bool
  | storage .. | io _ => true
  | _ => false

/-- The answer is no failure of the storage. -/
def Undisturbed {α : Type} (answer : Except LedgerError α) : Prop :=
  ∀ error, answer = .error error → error.isStorage = false

theorem not_undisturbed_storage {α : Type} (key : Key) (cause : IoError) :
    ¬ Undisturbed (.error (.storage key cause) : Except LedgerError α) :=
  fun calm => absurd (calm _ rfl) (by simp [LedgerError.isStorage])

namespace FolderLedger

open Disk (Addressable)

/-! ### The relation -/

/-- The workspace holds what the ledgers in memory hold, for the sources that are used. -/
structure Mirrors (workspace : String) (location : Location) (used : Set String) (disk : Disk)
    (ledgers : String → MemoryLedger) : Prop where
  folder : disk.FolderAt workspace location
  stored : ∀ source ∈ used, ∀ key : Key, key.chunk ≤ Number.maxWord →
    disk.node? (location ++ [FileName.artifact source key]) =
      ((ledgers source).get? key).map fun artifact => .file artifact.bytes false
  kept : ∀ source ∈ used, ∀ key artifact, (ledgers source).get? key = some artifact →
    artifact.fits key = true ∧ key.chunk ≤ Number.maxWord ∧
      Addressable workspace (FileName.artifact source key)
  /-- No other file can be taken for a slot. -/
  named : ∀ source ∈ used, ∀ name key, FileName.parse? source name = some key →
    (disk.node? (location ++ [name])).isSome → name = FileName.artifact source key

namespace Mirrors

variable {workspace source : String} {location : Location} {used : Set String} {disk : Disk}
  {ledgers : String → MemoryLedger} {key : Key} {artifact : Artifact}

/-- A slot of one source is filled, and no other slot of any source has changed. -/
theorem get?_update_insert (ledgers : String → MemoryLedger) (source other : String)
    (key slot : Key) (artifact : Artifact) :
    (Function.update ledgers source ((ledgers source).insert key artifact) other).get? slot =
      if other = source ∧ slot = key then some artifact else (ledgers other).get? slot := by
  by_cases same : other = source
  · subst same
    simp [MemoryLedger.get?_insert]
  · simp [same]

/-- Filling a slot on both sides keeps the relation. -/
theorem fill (mirrors : Mirrors workspace location used disk ledgers) (member : source ∈ used)
    (sized : key.chunk ≤ Number.maxWord) (fit : artifact.fits key = true)
    (short : Addressable workspace (FileName.artifact source key)) :
    Mirrors workspace location used
      (disk.set (location ++ [FileName.artifact source key]) (.file artifact.bytes false))
      (Function.update ledgers source ((ledgers source).insert key artifact)) := by
  have placed : location ++ [FileName.artifact source key] ≠ [] := by simp
  have apart : ∀ name, location ++ [name] = location ++ [FileName.artifact source key] ↔
      name = FileName.artifact source key := by simp
  constructor
  case folder =>
    refine mirrors.folder.set placed ?_ _
    rw [mirrors.stored source member key sized]
    cases (ledgers source).get? key <;> simp
  case stored =>
    intro other used slot small
    rw [Disk.node?_set disk placed, get?_update_insert]
    simp only [apart, FileName.artifact_inj]
    split_ifs
    · rfl
    · exact mirrors.stored other used slot small
  case kept =>
    intro other used slot held found
    rw [get?_update_insert] at found
    split_ifs at found with taken
    · cases found
      obtain ⟨rfl, rfl⟩ := taken
      exact ⟨fit, sized, short⟩
    · exact mirrors.kept other used slot held found
  case named =>
    intro other used name slot read present
    rw [Disk.node?_set disk placed] at present
    simp only [apart] at present
    split_ifs at present with same
    · subst same
      obtain ⟨rfl, rfl⟩ := FileName.eq_of_parse?_artifact read
      rfl
    · exact mirrors.named other used name slot read present

/-! ### Misfits -/

/-- An artifact that does not belong in the slot is refused first, on both sides. -/
theorem answer_of_misfit {op : Ledger.Op} (misfit : op.IsMisfit) (folder : FolderLedger)
    (disk : Disk) (ledger : MemoryLedger) :
    (folder.answer disk op).1 = (ledger.answer op).1 ∧ (folder.answer disk op).2 = disk ∧
      (ledger.answer op).2 = ledger := by
  cases op with
  | contains | keys | get => exact misfit.elim
  | put key artifact =>
    have refused : artifact.fits key = false := misfit
    rw [MemoryLedger.answer_put_of_misfit refused]
    simp [FolderLedger.answer, FolderLedger.fill, Ledger.checkFit, refused]
  | overwrite key artifact =>
    have refused : artifact.fits key = false := misfit
    rw [MemoryLedger.answer_overwrite_of_misfit refused]
    simp [FolderLedger.answer, FolderLedger.fill, Ledger.checkFit, refused]

/-! ### Single operations -/

section Operation

variable (mirrors : Mirrors workspace location used disk ledgers) (member : source ∈ used)
  (plain : FileName.IsPlain source)
include mirrors member plain

/-- What lies at the file of a slot. -/
theorem stat? (sized : key.chunk ≤ Number.maxWord) :
    disk.stat? (path ⟨workspace, source⟩ key) =
      if Addressable workspace (FileName.artifact source key) then
        match (ledgers source).get? key with
        | some artifact => .ok (.file artifact.bytes false)
        | none => .error .notFound
      else .error .nameTooLong := by
  rw [path, mirrors.folder.stat?_join (FileName.isName_artifact plain key),
    mirrors.stored source member key sized]
  cases (ledgers source).get? key <;> rfl

theorem contains (sized : key.chunk ≤ Number.maxWord) :
    FolderLedger.contains ⟨workspace, source⟩ key disk =
      if Addressable workspace (FileName.artifact source key) then
        .ok ((ledgers source).get? key).isSome
      else .error (.storage key .nameTooLong) := by
  have seen := mirrors.stat? member plain sized
  by_cases short : Addressable workspace (FileName.artifact source key)
  · rw [if_pos short] at seen ⊢
    rw [FolderLedger.contains, Disk.isPresent, seen]
    cases (ledgers source).get? key <;> rfl
  · rw [if_neg short] at seen ⊢
    rw [FolderLedger.contains, Disk.isPresent, seen]
    rfl

theorem get (sized : key.chunk ≤ Number.maxWord) :
    FolderLedger.get ⟨workspace, source⟩ key disk =
      if Addressable workspace (FileName.artifact source key) then (ledgers source).get key
      else .error (.storage key .nameTooLong) := by
  have seen := mirrors.stat? member plain sized
  by_cases short : Addressable workspace (FileName.artifact source key)
  · rw [if_pos short] at seen ⊢
    unfold FolderLedger.get Disk.read MemoryLedger.get
    rw [seen]
    cases found : (ledgers source).get? key with
    | none => rfl
    | some artifact =>
      have fit := (mirrors.kept source member key artifact found).1
      have same : Artifact.ofBytes key.kind artifact.bytes = artifact :=
        Artifact.ofBytes_bytes (by simpa [Artifact.fits] using fit)
      exact congrArg Except.ok same
  · rw [if_neg short] at seen ⊢
    unfold FolderLedger.get Disk.read
    rw [seen]
    rfl

/-- A file in the workspace is taken for a slot of the source exactly when the slot is filled. -/
theorem isFile_iff {name : String} (read : FileName.parse? source name = some key) :
    (name ∈ disk.childNames location ∧ disk.isFile (Path.join workspace name) = true) ↔
      name = FileName.artifact source key ∧ ((ledgers source).get? key).isSome := by
  obtain ⟨-, sized⟩ := FileName.parse?_eq_some.mp read
  constructor
  · rintro ⟨present, -⟩
    rw [Disk.mem_childNames] at present
    obtain rfl := mirrors.named source member name key read present
    rw [mirrors.stored source member key sized, Option.isSome_map] at present
    exact ⟨rfl, present⟩
  · rintro ⟨rfl, filled⟩
    obtain ⟨artifact, found⟩ := Option.isSome_iff_exists.mp filled
    have short := (mirrors.kept source member key artifact found).2.2
    have seen := mirrors.stat? member plain sized
    rw [if_pos short, found, path] at seen
    refine ⟨?_, by simp [Disk.isFile, seen]⟩
    rw [Disk.mem_childNames, mirrors.stored source member key sized, Option.isSome_map]
    exact filled

theorem keys :
    FolderLedger.keys ⟨workspace, source⟩ disk = .ok (ledgers source).keys := by
  simp only [FolderLedger.keys, mirrors.folder.list, bind, Except.bind, Except.mapError]
  refine congrArg Except.ok (KeySet.ofList_congr fun key => ?_)
  have listed : key ∈ (ledgers source).entries.map Prod.fst ↔
      ((ledgers source).get? key).isSome := by
    rw [← MemoryLedger.mem_keys, MemoryLedger.keys, KeySet.mem_ofList]
  rw [listed, List.mem_filterMap]
  constructor
  · rintro ⟨name, present, read⟩
    exact ((mirrors.isFile_iff member plain read).mp (List.mem_filter.mp present)).2
  · intro filled
    obtain ⟨artifact, found⟩ := Option.isSome_iff_exists.mp filled
    have sized := (mirrors.kept source member key artifact found).2.1
    have read := FileName.parse?_artifact source sized
    exact ⟨_, List.mem_filter.mpr ((mirrors.isFile_iff member plain read).mpr ⟨rfl, filled⟩), read⟩

/-- Filling a slot with an artifact that belongs there. -/
theorem fill_of_fit (sized : key.chunk ≤ Number.maxWord) (fit : artifact.fits key = true)
    (clobber : Bool) :
    FolderLedger.fill ⟨workspace, source⟩ key artifact clobber disk =
      if Addressable workspace (FileName.artifact source key) then
        if ((ledgers source).get? key).isSome ∧ clobber = false then
          (.error (.duplicateKey key), disk)
        else (.ok (), disk.set (location ++ [FileName.artifact source key])
          (.file artifact.bytes false))
      else (.error (.storage key .nameTooLong), disk) := by
  simp only [FolderLedger.fill, Ledger.checkFit, fit, if_true, path,
    mirrors.folder.persist_join (FileName.isName_artifact plain key)]
  by_cases short : Addressable workspace (FileName.artifact source key)
  · simp only [if_pos short, Disk.install, mirrors.stored source member key sized]
    cases (ledgers source).get? key <;> cases clobber <;> rfl
  · simp only [if_neg short]
    rfl

/-! ### Any operation -/

/-- Where the name of the slot is too long, the file system fails whatever gets that far. -/
theorem answer_of_not_addressable {op : Ledger.Op} (about : op.slot? = some key)
    (sized : key.chunk ≤ Number.maxWord)
    (long : ¬ Addressable workspace (FileName.artifact source key)) (proper : ¬ op.IsMisfit) :
    FolderLedger.answer ⟨workspace, source⟩ disk op =
      (.error (.storage key .nameTooLong), disk) := by
  cases op with
  | keys => cases about
  | contains slot =>
    cases about
    rw [FolderLedger.answer, mirrors.contains member plain sized, if_neg long]
  | get slot =>
    cases about
    rw [FolderLedger.answer, mirrors.get member plain sized, if_neg long]
  | put slot artifact | overwrite slot artifact =>
    cases about
    have fit : artifact.fits key = true := by simpa [Ledger.Op.IsMisfit] using proper
    rw [FolderLedger.answer, mirrors.fill_of_fit member plain sized fit, if_neg long]

/-- **Where the name of the slot is short enough, the folder answers as in memory**, and both sides
move on together. -/
theorem answer_of_addressable (op : Ledger.Op)
    (sized : ∀ key ∈ op.slot?, key.chunk ≤ Number.maxWord)
    (short : ∀ key ∈ op.slot?, Addressable workspace (FileName.artifact source key))
    (proper : ¬ op.IsMisfit) :
    (FolderLedger.answer ⟨workspace, source⟩ disk op).1 = ((ledgers source).answer op).1 ∧
      Mirrors workspace location used (FolderLedger.answer ⟨workspace, source⟩ disk op).2
        (Function.update ledgers source ((ledgers source).answer op).2) := by
  have still : Mirrors workspace location used disk
      (Function.update ledgers source (ledgers source)) := by
    rwa [Function.update_eq_self]
  cases op with
  | keys =>
    rw [FolderLedger.answer, mirrors.keys member plain]
    exact ⟨rfl, still⟩
  | contains key =>
    rw [FolderLedger.answer, mirrors.contains member plain (sized key rfl), if_pos (short key rfl)]
    exact ⟨rfl, still⟩
  | get key =>
    rw [FolderLedger.answer, mirrors.get member plain (sized key rfl), if_pos (short key rfl)]
    exact ⟨rfl, still⟩
  | put key artifact =>
    have fit : artifact.fits key = true := by simpa [Ledger.Op.IsMisfit] using proper
    rw [FolderLedger.answer, mirrors.fill_of_fit member plain (sized key rfl) fit,
      if_pos (short key rfl)]
    cases found : (ledgers source).get? key with
    | none =>
      rw [MemoryLedger.answer_put_of_none fit found, if_neg (by simp)]
      exact ⟨rfl, mirrors.fill member (sized key rfl) fit (short key rfl)⟩
    | some held =>
      rw [MemoryLedger.answer_put_of_some fit found, if_pos (by simp)]
      exact ⟨rfl, still⟩
  | overwrite key artifact =>
    have fit : artifact.fits key = true := by simpa [Ledger.Op.IsMisfit] using proper
    rw [FolderLedger.answer, mirrors.fill_of_fit member plain (sized key rfl) fit,
      if_pos (short key rfl), MemoryLedger.answer_overwrite fit, if_neg (by simp)]
    exact ⟨rfl, mirrors.fill member (sized key rfl) fit (short key rfl)⟩

/-- **An operation that the file system does not fail answers as in memory**, and both sides move
on together. -/
theorem answer (op : Ledger.Op)
    (sized : ∀ key ∈ op.slot?, key.chunk ≤ Number.maxWord)
    (smooth : (∀ key ∈ op.slot?, Addressable workspace (FileName.artifact source key)) ∨
      Undisturbed (FolderLedger.answer ⟨workspace, source⟩ disk op).1) :
    (FolderLedger.answer ⟨workspace, source⟩ disk op).1 = ((ledgers source).answer op).1 ∧
      Mirrors workspace location used (FolderLedger.answer ⟨workspace, source⟩ disk op).2
        (Function.update ledgers source ((ledgers source).answer op).2) := by
  by_cases misfit : op.IsMisfit
  · obtain ⟨same, still, kept⟩ := answer_of_misfit misfit ⟨workspace, source⟩ disk
      (ledgers source)
    rw [still, kept, Function.update_eq_self]
    exact ⟨same, mirrors⟩
  · by_cases short : ∀ key ∈ op.slot?, Addressable workspace (FileName.artifact source key)
    · exact mirrors.answer_of_addressable member plain op sized short misfit
    · have calm := smooth.resolve_left short
      push Not at short
      obtain ⟨key, about, long⟩ := short
      rw [mirrors.answer_of_not_addressable member plain about (sized key about) long misfit]
        at calm
      exact absurd calm (not_undisturbed_storage key _)

end Operation

end Mirrors

end FolderLedger

end Transcode
