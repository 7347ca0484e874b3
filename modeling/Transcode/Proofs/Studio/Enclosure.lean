/-
**What a studio sees and changes.** A studio whose codec is in memory works inside its workspace: on
two trees that show the same there it does the same, and it changes nothing elsewhere. This holds of
all sources without a slash; the status view needs not even that.

* `Disk.Alike`: trees that show the same in a folder, one of which has changed nowhere else.
* `FolderLedger.answer_alike`, `Studio.split_alike`: what runs ask for from the workspace.
* `Studio.execute_alike`, `Studio.batch_alike`, `Studio.status_alike`: what is done there.
-/
import Transcode.Proofs.Ledger.Slots
import Transcode.Proofs.Schedule.Lockstep
import Transcode.Proofs.Source.Folder
import Transcode.Studio.Status

namespace Transcode

/-! ### Trees -/

namespace Disk

variable {directory name : String} {location : Location} {origin first second : Disk}

/-- A path leads to one folder in two trees, which show the same there. What lies elsewhere in the
first of them is what lay there in another tree at the beginning. -/
structure Alike (directory : String) (location : Location) (origin first second : Disk) :
    Prop where
  here : first.FolderAt directory location
  there : second.FolderAt directory location
  shared : Agrees (fun place => ∃ name, place = location ++ [name]) first second
  /-- What lies in the folder has a name. -/
  named : ∀ name, (first.node? (location ++ [name])).isSome → '/' ∉ name.toList
  elsewhere : Agrees (fun place => ∀ name, place ≠ location ++ [name]) origin first

namespace Alike

variable (alike : Alike directory location origin first second)
include alike

theorem stat?_join (step : Path.IsStep name) :
    first.stat? (Path.join directory name) = second.stat? (Path.join directory name) :=
  alike.here.stat?_congr alike.there step (alike.shared _ ⟨name, rfl⟩)

/-- Trees stay alike when both change in the folder, and in the same way. -/
theorem change {later after : Disk} (here : later.FolderAt directory location)
    (there : after.FolderAt directory location)
    (shared : Agrees (fun place => ∃ name, place = location ++ [name]) later after)
    (changed : later = first ∨ ∃ name node, '/' ∉ name.toList ∧
      later = first.set (location ++ [name]) node) :
    Alike directory location origin later after := by
  rcases changed with rfl | ⟨name, node, slash, rfl⟩
  · exact ⟨here, there, shared, alike.named, alike.elsewhere⟩
  · have placed : location ++ [name] ≠ [] := by simp
    refine ⟨here, there, shared, fun other present => ?_, fun place outside => ?_⟩
    · rw [node?_set first placed] at present
      by_cases same : location ++ [other] = location ++ [name]
      · obtain rfl : other = name := by simpa using same
        exact slash
      · rw [if_neg same] at present
        exact alike.named other present
    · rw [node?_set first placed, if_neg (outside name)]
      exact alike.elsewhere place outside

/-- A file is put in the folder on both sides, or on neither. -/
theorem persist (step : Path.IsStep name) (data : Bytes) (clobber : Bool) :
    (first.persist (Path.join directory name) data clobber).1 =
        (second.persist (Path.join directory name) data clobber).1 ∧
      Alike directory location origin (first.persist (Path.join directory name) data clobber).2
        (second.persist (Path.join directory name) data clobber).2 := by
  obtain ⟨same, shared⟩ :=
    alike.here.persist_congr alike.there step alike.shared ⟨name, rfl⟩ data clobber
  refine ⟨same, alike.change (alike.here.persist step data clobber)
    (alike.there.persist step data clobber) shared ?_⟩
  exact (alike.here.persist_cases step data clobber).imp_right fun ⟨_, _, changed⟩ =>
    ⟨name, _, step.slash, changed⟩

end Alike

end Disk

/-! ### Ledgers -/

namespace FolderLedger

open Disk (Alike)

variable {workspace source : String} {location : Location} {origin first second : Disk}

/-- An operation on the ledger of a source does the same on both sides. -/
theorem answer_alike (alike : Alike workspace location origin first second)
    (slash : '/' ∉ source.toList) (op : Ledger.Op) :
    (answer ⟨workspace, source⟩ first op).1 = (answer ⟨workspace, source⟩ second op).1 ∧
      Alike workspace location origin (answer ⟨workspace, source⟩ first op).2
        (answer ⟨workspace, source⟩ second op).2 := by
  obtain ⟨same, shared⟩ := answer_congr alike.here alike.there slash alike.shared
    (fun _ name _ => ⟨name, rfl⟩) op
  refine ⟨same, alike.change (folderAt_answer alike.here slash op)
    (folderAt_answer alike.there slash op) shared ?_⟩
  exact (answer_cases alike.here slash op).imp_right fun ⟨_, key, _, _, changed⟩ =>
    ⟨_, _, (isStep_artifact slash key).slash, changed⟩

/-- Where all files have names, a source with a slash has no slots. -/
theorem keys_of_slash {disk : Disk} (here : disk.FolderAt workspace location)
    (named : ∀ name, (disk.node? (location ++ [name])).isSome → '/' ∉ name.toList)
    (slash : '/' ∈ source.toList) : keys ⟨workspace, source⟩ disk = .ok (KeySet.ofList []) := by
  have none : ((disk.childNames location).filter fun name =>
      disk.isFile (Path.join workspace name)).filterMap (FileName.parse? source) = [] := by
    refine List.filterMap_eq_nil_iff.mpr fun name member => ?_
    have plain := named name (Disk.mem_childNames.mp (List.mem_of_mem_filter member))
    cases read : FileName.parse? source name with
    | none => rfl
    | some key =>
      obtain ⟨⟨digits, shape, -⟩, -⟩ := FileName.parse?_eq_some.mp read
      exact absurd (by rw [shape]; simp [FileName.spelled, slash]) plain
  simp only [keys, here.list, bind, Except.bind, Except.mapError, none]

end FolderLedger

/-! ### The studio -/

/-- Two sites with the same ledgers in memory, and trees that are alike in a folder. -/
structure Site.Alike (directory : String) (location : Location) (origin : Disk)
    (first second : Site) : Prop where
  ledgers : first.ledgers = second.ledgers
  disk : Disk.Alike directory location origin first.disk second.disk

namespace Studio

variable {studio : Studio} {codec : Simulated} {workspace source : String} {location : Location}
  {origin : Disk}

/-- The studio keeps artifacts and raw chunks in the workspace. -/
structure WorksIn (studio : Studio) (workspace : String) : Prop where
  ledgers : studio.ledgers = .folder workspace
  chunks : studio.chunks.workspace = workspace

/-! ### Parts of runs -/

/-- The ledger of a source can be opened, and nothing has to be made for it. -/
theorem openLedger_eq (works : studio.WorksIn workspace) {site : Site}
    (here : site.disk.FolderAt workspace location) (source : String) :
    studio.openLedger source site = (.ok (), site) := by
  rw [openLedger, works.ledgers]
  simp only [FolderLedger.create, Disk.makeFolders_of_folderAt here]
  rfl

theorem ledgerAnswer_eq (works : studio.WorksIn workspace) (source : String) (op : Ledger.Op)
    (site : Site) : studio.ledgerAnswer source op site =
      ((FolderLedger.answer ⟨workspace, source⟩ site.disk op).1,
        { site with disk := (FolderLedger.answer ⟨workspace, source⟩ site.disk op).2 }) := by
  rw [ledgerAnswer, works.ledgers]

theorem engineAnswer_eq (engine : studio.engine = .simulated codec) (call : Codec.Call)
    (site : Site) : studio.engineAnswer call site = (codec.codec.answer call, site) := by
  rw [engineAnswer, engine]
  rfl

/-- What runs on a source ask for is the same on both sides. -/
theorem service_lockstep (works : studio.WorksIn workspace)
    (engine : studio.engine = .simulated codec) (slash : '/' ∉ source.toList) :
    (studio.service source).Lockstep (Site.Alike workspace location origin) := by
  intro request first second alike
  cases request with
  | ledger op =>
    obtain ⟨same, after⟩ := FolderLedger.answer_alike alike.disk slash op
    simp only [service, Run.service, ledgerAnswer_eq works]
    exact ⟨same, trivial, alike.ledgers, after⟩
  | codec call =>
    simp only [service, Run.service, engineAnswer_eq engine]
    exact ⟨trivial, trivial, alike⟩

/-- The raw chunks of a source are the same on both sides. -/
theorem split_alike (works : studio.WorksIn workspace)
    (plain : '/' ∉ studio.chunks.extension.toList) (slash : '/' ∉ source.toList)
    {first second : Disk} (alike : Disk.Alike workspace location origin first second)
    (count : Nat) :
    studio.chunks.split source count first = studio.chunks.split source count second := by
  refine ChunkFolder.split_congr (fun chunk => ?_) count
  rw [ChunkFolder.path, works.chunks]
  exact alike.stat?_join (FileName.isStep_rawChunk slash plain chunk)

/-! ### Orders -/

section Orders

variable (works : studio.WorksIn workspace) (engine : studio.engine = .simulated codec)
  (plain : '/' ∉ studio.chunks.extension.toList) {first second : World Site}
include works engine plain

/-- **Carrying out an order** comes to the same on both sides. -/
theorem execute_alike {order : Order} (slash : '/' ∉ order.source.toList)
    (alike : World.Alike (Site.Alike workspace location origin) first second) :
    (studio.execute order first).1 = (studio.execute order second).1 ∧
      World.Alike (Site.Alike workspace location origin) (studio.execute order first).2
        (studio.execute order second).2 := by
  simp only [execute, openLedger_eq works alike.state.disk.here,
    openLedger_eq works alike.state.disk.there, split_alike works plain slash alike.state.disk]
  exact Flow.run_lockstep (service_lockstep works engine slash) _ alike

theorem executeAll_alike {orders : List (Order × Nat)}
    (slash : ∀ entry ∈ orders, '/' ∉ entry.1.source.toList)
    (alike : World.Alike (Site.Alike workspace location origin) first second) :
    (studio.executeAll orders first).1 = (studio.executeAll orders second).1 ∧
      World.Alike (Site.Alike workspace location origin) (studio.executeAll orders first).2
        (studio.executeAll orders second).2 := by
  induction orders generalizing first second with
  | nil => exact ⟨rfl, alike⟩
  | cons entry rest ih =>
    obtain ⟨here, others⟩ := List.forall_mem_cons.mp slash
    obtain ⟨result, between⟩ := execute_alike works engine plain here alike
    obtain ⟨results, after⟩ := ih others between
    exact ⟨congrArg₂ (fun result results => (entry.2, result) :: results) result results, after⟩

/-- **Carrying out a batch** comes to the same on both sides. -/
theorem batch_alike {orders : List Order} (slash : ∀ order ∈ orders, '/' ∉ order.source.toList)
    (alike : World.Alike (Site.Alike workspace location origin) first second) :
    (studio.batch orders first).1 = (studio.batch orders second).1 ∧
      World.Alike (Site.Alike workspace location origin) (studio.batch orders first).2
        (studio.batch orders second).2 := by
  have each : ∀ entry ∈ orders.zipIdx, '/' ∉ entry.1.source.toList := fun entry member =>
    slash entry.1 (List.fst_mem_of_mem_zipIdx member)
  obtain ⟨results, after⟩ := executeAll_alike works engine plain each alike
  exact ⟨congrArg (Batch.gather orders) results, after⟩

end Orders

/-! ### The status view -/

/-- **The status of a source** is the same on both sides, whatever the source is called. -/
theorem status_alike (works : studio.WorksIn workspace) {first second : Site}
    (alike : Site.Alike workspace location origin first second) (source : String) (count : Nat) :
    (studio.status source count first).1 = (studio.status source count second).1 ∧
      (studio.status source count first).2 = first ∧
        (studio.status source count second).2 = second := by
  have same : FolderLedger.keys ⟨workspace, source⟩ first.disk =
      FolderLedger.keys ⟨workspace, source⟩ second.disk := by
    by_cases slash : '/' ∈ source.toList
    · rw [FolderLedger.keys_of_slash alike.disk.here alike.disk.named slash,
        FolderLedger.keys_of_slash alike.disk.there (fun name present => alike.disk.named name ?_)
          slash]
      rwa [alike.disk.shared _ ⟨name, rfl⟩]
    · exact FolderLedger.keys_congr alike.disk.here alike.disk.there slash alike.disk.shared
        fun _ name _ => ⟨name, rfl⟩
  simp only [status, openLedger_eq works alike.disk.here, openLedger_eq works alike.disk.there,
    ledgerAnswer_eq works, FolderLedger.answer, same]
  cases FolderLedger.keys ⟨workspace, source⟩ second.disk <;> exact ⟨rfl, rfl, rfl⟩

end Studio

end Transcode
