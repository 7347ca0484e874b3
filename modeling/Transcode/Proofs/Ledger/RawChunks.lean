/-
**Raw chunks beside the ledgers.** The ledgers of all sources and the raw chunks lie in one folder.
A raw chunk that is not mistaken for a slot might as well not be there: no use of any ledger sees
it, and none changes it.

* `FolderLedger.Overlooks`: no slot of the source has the name, however its number is written.
* `FolderLedger.answers_of_agrees`: trees that differ in what is overlooked answer alike.
* `FolderLedger.raw_chunks_apart`: which files share a name, and what that means to the ledgers.
-/
import Transcode.Proofs.FileName.Roles
import Transcode.Proofs.Ledger.Sources
import Transcode.Run.Order
import Transcode.Settings.Basic
import Transcode.Source.Folder

namespace Transcode.FolderLedger

open FileName (Role Mistaken Misleads Spells)
open Ledger (Call answers)

variable {workspace source name : String} {location : Location} {disk later : Disk}

/-- No slot of the source has the name, however the number of its chunk is written. -/
def Overlooks (source name : String) : Prop :=
  ∀ key, ¬ Spells source key name

/-- One operation neither sees nor changes what it overlooks. -/
theorem answer_of_agrees (here : disk.FolderAt workspace location)
    (there : later.FolderAt workspace location) (slash : '/' ∉ source.toList)
    (overlooked : Overlooks source name)
    (agrees : Disk.Agrees (· ≠ location ++ [name]) disk later) (op : Ledger.Op) :
    (answer ⟨workspace, source⟩ disk op).1 = (answer ⟨workspace, source⟩ later op).1 ∧
      Disk.Agrees (· ≠ location ++ [name]) (answer ⟨workspace, source⟩ disk op).2
        (answer ⟨workspace, source⟩ later op).2 ∧
      (answer ⟨workspace, source⟩ later op).2.node? (location ++ [name]) =
        later.node? (location ++ [name]) := by
  obtain ⟨same, after⟩ := answer_congr here there slash agrees (fun key other spells => by
    rintro equal
    obtain rfl : other = name := by simpa using equal
    exact overlooked key spells) op
  refine ⟨same, after, ?_⟩
  rcases answer_cases there slash op with still | ⟨-, key, data, -, changed⟩
  · rw [still]
  · rw [changed, Disk.node?_set later (by simp), if_neg]
    intro equal
    obtain rfl : name = FileName.artifact source key := by simpa using equal
    exact overlooked key (FileName.spells_artifact source key)

/-- **Calls neither see nor change what they overlook.** -/
theorem answers_of_agrees (here : disk.FolderAt workspace location)
    (there : later.FolderAt workspace location) {calls : List Call}
    (slash : ∀ call ∈ calls, '/' ∉ call.source.toList)
    (overlooked : ∀ call ∈ calls, Overlooks call.source name)
    (agrees : Disk.Agrees (· ≠ location ++ [name]) disk later) :
    (answers (Call.onDisk workspace) calls disk).1 =
        (answers (Call.onDisk workspace) calls later).1 ∧
      (answers (Call.onDisk workspace) calls later).2.node? (location ++ [name]) =
        later.node? (location ++ [name]) := by
  induction calls generalizing disk later with
  | nil => exact ⟨rfl, rfl⟩
  | cons call rest ih =>
    obtain ⟨plain, others⟩ := List.forall_mem_cons.mp slash
    obtain ⟨hidden, unseen⟩ := List.forall_mem_cons.mp overlooked
    obtain ⟨same, after, kept⟩ :=
      answer_of_agrees here there plain hidden agrees call.access.request
    obtain ⟨equal, still⟩ := ih (folderAt_answer here plain _) (folderAt_answer there plain _)
      others unseen after
    have reply : (call.onDisk workspace disk).1 = (call.onDisk workspace later).1 :=
      congrArg call.access.reply same
    refine ⟨?_, still.trans kept⟩
    rw [answers, answers]
    exact congrArg₂ (fun reply others => ⟨call, reply⟩ :: others) reply equal

/-- **What shares a name in a workspace**, whatever the extension of its raw chunks. Two files with
one name are one file of one source, unless a raw chunk is mistaken for another file; that takes two
sources and an extension that misleads, and the same holds of names that are read as a slot. Any
calls to the ledgers that overlook a raw chunk are answered as if it were not there, and leave it as
it is. -/
theorem raw_chunks_apart (folder : ChunkFolder) :
    (∀ (source other : String) (role part : Role),
      FileName.file folder.extension source role = FileName.file folder.extension other part ↔
        (source = other ∧ role = part) ∨
        (∃ chunk, role = .raw chunk ∧ Mistaken folder.extension source chunk other part) ∨
        ∃ chunk, part = .raw chunk ∧ Mistaken folder.extension other chunk source role) ∧
    (∀ (source other : String) (chunk : ChunkIndex) (role : Role),
      Mistaken folder.extension source chunk other role →
        source ≠ other ∧ Misleads folder.extension) ∧
    (∀ (source other : String) (chunk : ChunkIndex),
      (∃ key, Spells other key (FileName.rawChunk source chunk folder.extension)) →
        source ≠ other ∧ Misleads folder.extension) ∧
    ∀ (disk : Disk) (location : Location) (source : String) (chunk : ChunkIndex)
      (calls : List Call),
      disk.FolderAt folder.workspace location →
      (∀ call ∈ calls, '/' ∉ call.source.toList) →
      (∀ call ∈ calls,
        Overlooks call.source (FileName.rawChunk source chunk folder.extension)) →
      disk.node? (location ++ [FileName.rawChunk source chunk folder.extension]) ≠ some .folder →
      ∀ data executable later,
        later = disk.set (location ++ [FileName.rawChunk source chunk folder.extension])
          (.file data executable) →
        (answers (Call.onDisk folder.workspace) calls disk).1 =
            (answers (Call.onDisk folder.workspace) calls later).1 ∧
          (answers (Call.onDisk folder.workspace) calls later).2.node?
              (location ++ [FileName.rawChunk source chunk folder.extension]) =
            some (.file data executable) := by
  refine ⟨fun _ _ _ _ => FileName.file_eq_iff, fun _ _ _ _ mistaken => mistaken.rare,
    fun _ _ _ ⟨_, spells⟩ => FileName.rare_of_spells spells, ?_⟩
  rintro disk location source chunk calls here slash overlooked free data executable _ rfl
  have placed : location ++ [FileName.rawChunk source chunk folder.extension] ≠ [] := by simp
  have agrees : Disk.Agrees (· ≠ location ++ [FileName.rawChunk source chunk folder.extension])
      disk (disk.set _ (.file data executable)) := fun place differs => by
    rw [Disk.node?_set disk placed, if_neg differs]
  obtain ⟨same, kept⟩ := answers_of_agrees here (here.set placed free _) slash overlooked agrees
  refine ⟨same, kept.trans ?_⟩
  rw [Disk.node?_set disk placed, if_pos rfl]

/-- Where the extension does not mislead, a raw chunk is seen by none of the calls; where it does,
the mistaken files belong to two sources. -/
theorem raw_chunks_apart_rawWorkspace :
    ("a_vpx" ≠ "a" ∧ Misleads "ivf") ∧
      (answers (Call.onDisk "work") mixedCalls rawWorkspace).1 =
        (answers (Call.onDisk "work") mixedCalls
          (rawWorkspace.set ["work", "a_00.y4m"] (.file [9] false))).1 ∧
      (answers (Call.onDisk "work") mixedCalls
        (rawWorkspace.set ["work", "a_00.y4m"] (.file [9] false))).2.node? ["work", "a_00.y4m"] =
          some (.file [9] false) := by
  obtain ⟨-, apart, -, -⟩ := raw_chunks_apart ⟨"work", "ivf"⟩
  obtain ⟨-, -, -, calm⟩ := raw_chunks_apart ⟨"work", "y4m"⟩
  have plain : ¬ Misleads "y4m" := by
    rintro (⟨payload, same⟩ | marked)
    · revert same
      cases payload <;> decide
    · revert marked
      decide
  exact ⟨apart "a_vpx" "a" 0 (.slot ⟨0, .baseline⟩) (.tagged "a" ⟨0, .baseline⟩ rfl),
    calm rawWorkspace ["work"] "a" 0 mixedCalls ⟨by decide, by decide⟩ (by decide)
      (fun _ _ _ spells => plain (FileName.rare_of_spells spells).2) (by decide) [9] false _ rfl⟩

/-- A workspace with a raw chunk that is mistaken for an artifact. -/
def misleadingWorkspace : Disk :=
  ⟨[(["work"], .folder), (["work", "a_vpx_00.ivf"], .file [1] false)], []⟩

/-- **The names are not always apart**: with settings and orders that are accepted, the raw chunk of
one source is the baseline encoding of another, and is read and replaced as such. -/
theorem mistaken_with_accepted_orders :
    (Order.create "a_vpx" 1 .resume).isOk = true ∧ (Order.create "a" 1 .resume).isOk = true ∧
      (Settings.check { pipeline := { chunkExtension := "ivf" } }).isOk = true ∧
      (ChunkFolder.ofExtension "work" "ivf").path "a_vpx" 0 = path ⟨"work", "a"⟩ ⟨0, .baseline⟩ ∧
      get ⟨"work", "a"⟩ ⟨0, .baseline⟩ misleadingWorkspace = .ok (.bitstream ⟨[1]⟩) ∧
      (answer ⟨"work", "a"⟩ misleadingWorkspace
        (.overwrite ⟨0, .baseline⟩ (.bitstream ⟨[2]⟩))).2.read "work/a_vpx_00.ivf" = .ok [2] := by
  refine ⟨by decide, by decide, by decide, by decide, by decide, by decide⟩

end Transcode.FolderLedger
