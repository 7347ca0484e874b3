/-
**What the look before a stage is worth** over a workspace folder. A barrier stage starts only if
its inputs are on the list of all slots; its tasks then read the files themselves. Nothing that uses
the workspace takes a file away, so no task misses what was listed.

* `Run.keeping` is the conduct of all who leave the files of the slots where they are, and
  `Run.onFolder` the setting of runs over a workspace folder.
* `Run.custody_keeping` — in this conduct the ledger is in good hands, so no task of a barrier stage
  fails for a slot that is empty (`Run.ended_isFound`).
* `Run.views_agree`: how the views of a folder are related, and what a stage makes of them.
-/
import Transcode.Proofs.Ledger.Views
import Transcode.Proofs.Run.Custody

namespace Transcode.Run

variable {ledger : FolderLedger} {location : Location} {required : Key → Prop} {disk : Disk}
  {run : Run}

/-! ### Conduct -/

/-- The workspace stays where it is, and what the ledger holds stays there. -/
def keeping (ledger : FolderLedger) (location : Location) : Conduct Disk where
  rely disk later := disk.FolderAt ledger.workspace location →
    later.FolderAt ledger.workspace location ∧
      ∀ key, ledger.Holds disk key → ledger.Holds later key
  guarantee disk later := disk.FolderAt ledger.workspace location →
    later.FolderAt ledger.workspace location ∧
      ∀ key, ledger.Holds disk key → ledger.Holds later key
  rely_refl _ here := ⟨here, fun _ => id⟩
  rely_trans first second here := by
    obtain ⟨there, kept⟩ := first here
    obtain ⟨beyond, more⟩ := second there
    exact ⟨beyond, fun key held => more key (kept key held)⟩
  guarantee_refl _ here := ⟨here, fun _ => id⟩

/-- Answers ledger operations from the workspace, and keeps its files during codec calls. -/
structure ServesFolder (ledger : FolderLedger) (location : Location)
    (service : Service interface Disk) : Prop where
  answers : ∀ op disk, (service.reply (.ledger op) disk).answer = (ledger.answer disk op).1
  change : ∀ op disk, (service.reply (.ledger op) disk).state = (ledger.answer disk op).2
  keeps : ∀ call disk,
    (keeping ledger location).rely disk (service.reply (.codec call) disk).state

/-- Runs over a workspace folder, whatever the codec answers, which anything may interrupt. -/
def onFolder (ledger : FolderLedger) (location : Location) : Setting interface Disk where
  services := ServesFolder ledger location
  interruptible := True
  cancels _ _ _ _ := trivial

/-- The workspace is a folder, and the ledger holds what is required. -/
structure Stocked (ledger : FolderLedger) (location : Location) (required : Key → Prop)
    (disk : Disk) : Prop where
  here : disk.FolderAt ledger.workspace location
  held : ∀ key, required key → ledger.Holds disk key

/-- **A workspace is in good hands** with all who keep its files. It is no exact ledger: what lies
where the file of a slot belongs may be a folder. -/
theorem custody_keeping (slash : '/' ∉ ledger.source.toList) :
    Custody (ServesFolder ledger location) (keeping ledger location)
      (fun key disk => disk.FolderAt ledger.workspace location ∧ ledger.Holds disk key) False where
  stays allowed key stocked := (allowed stocked.1).imp_right fun kept => kept key stocked.2
  relies := id
  keeps serves request disk := by
    cases request with
    | codec call => exact serves.keeps call disk
    | ledger op =>
      rw [serves.change]
      exact fun here => ⟨FolderLedger.folderAt_answer here slash op,
        fun key => FolderLedger.holds_answer here slash op⟩
  found serves op disk slot missing := by
    rw [serves.answers] at missing
    cases op with
    | get key =>
      refine ⟨key, rfl, fun ⟨_, artifact, read⟩ => ?_⟩
      rw [FolderLedger.answer, read] at missing
      cases missing
    | contains key =>
      unfold FolderLedger.answer FolderLedger.contains at missing
      cases seen : disk.isPresent (ledger.path key) <;> simp [seen, Except.mapError] at missing
    | keys =>
      unfold FolderLedger.answer FolderLedger.keys at missing
      cases listed : disk.list ledger.workspace <;>
        simp [listed, Except.mapError, bind, Except.bind] at missing
    | put key artifact =>
      exact absurd missing (ledger.fill_ne_notFound key slot artifact false disk)
    | overwrite key artifact =>
      exact absurd missing (ledger.fill_ne_notFound key slot artifact true disk)
  shows := False.elim
  puts := False.elim
  overwrites := False.elim

/-! ### The stage -/

/-- **No task of a barrier stage** over held inputs ever fails for a slot that is empty. -/
theorem ended_isFound {stage : Stage} (slash : '/' ∉ ledger.source.toList)
    {world world' : World Disk}
    (stocked : Stocked ledger location (· ∈ stage.barrierInputs run.count) world.state)
    {trace : List (Exchange interface)} {flow : Flow interface (Except RunError StageSummary)}
    (path : Flow.Path (onFolder ledger location) (keeping ledger location).rely
      (Flow.ofPool (run.stagePool stage)) world trace flow world') :
    ∃ pool, (∀ chunk error, (chunk, .failed error) ∈ pool.ended → error.IsFound) ∧
      (flow = .stage pool .done ∨ flow = .done pool.result) := by
  have custody : Custody (onFolder ledger location).services (keeping ledger location) _ False :=
    custody_keeping slash
  exact custody.ended_isFound (fun _ => id)
    (fun key needed => ⟨stocked.here, stocked.held key needed⟩) (fun _ => trivial) path

/-- **The views of a workspace folder.** Whatever lies in the folder, filling a slot fails as a
duplicate exactly if the ledger says that it has the slot, and a slot that can be read is listed and
there. Where no other file has a name that spells the slot, it can be read if it is listed; where no
folder lies at its file, it can be read if it is there. So once the look before a barrier stage has
found all inputs on the list, and no other names spell them, no task of the stage fails for an empty
slot, in any order of steps and whatever others do that leaves files in place. -/
theorem views_agree {workspace source : String} {location : Location} {disk : Disk}
    (here : disk.FolderAt workspace location) (slash : '/' ∉ source.toList) :
    ∃ keys, FolderLedger.keys ⟨workspace, source⟩ disk = .ok keys ∧
      (∀ key : Key, key.chunk ≤ Number.maxWord →
        (∀ artifact : Artifact, artifact.fits key = true →
          ((FolderLedger.fill ⟨workspace, source⟩ key artifact false disk).1 =
              .error (.duplicateKey key) ↔
            FolderLedger.contains ⟨workspace, source⟩ key disk = .ok true)) ∧
        ((∃ artifact, FolderLedger.get ⟨workspace, source⟩ key disk = .ok artifact) →
          key ∈ keys ∧ FolderLedger.contains ⟨workspace, source⟩ key disk = .ok true) ∧
        (FolderLedger.Unambiguous ⟨workspace, source⟩ disk key →
          (key ∈ keys ↔
            ∃ artifact, FolderLedger.get ⟨workspace, source⟩ key disk = .ok artifact)) ∧
        (disk.isFolder (FolderLedger.path ⟨workspace, source⟩ key) = false →
          (FolderLedger.contains ⟨workspace, source⟩ key disk = .ok true ↔
            ∃ artifact, FolderLedger.get ⟨workspace, source⟩ key disk = .ok artifact))) ∧
      ∀ (run : Run) (stage : Stage),
        (∀ key ∈ stage.barrierInputs run.count,
          FolderLedger.Unambiguous ⟨workspace, source⟩ disk key) →
        (stage.barrierInputs run.count).firstMissing keys = none →
        ∀ world : World Disk, world.state = disk → ∀ trace flow world',
          Flow.Path (onFolder ⟨workspace, source⟩ location)
            (keeping ⟨workspace, source⟩ location).rely
            (Flow.ofPool (run.stagePool stage)) world trace flow world' →
          (∀ pool next, flow = .stage pool next →
            ∀ chunk key, (chunk, .failed (.notFound key)) ∉ pool.ended) ∧
          ∀ key, flow ≠ .done (.error (.notFound key)) := by
  obtain ⟨keys, listed⟩ := FolderLedger.exists_keys here source
  refine ⟨keys, listed, fun key small => ⟨fun artifact fit => ?_, fun holds => ?_,
    fun unambiguous => ?_, fun plain => ?_⟩, ?_⟩
  · rw [FolderLedger.fill_eq_duplicateKey here slash fit, FolderLedger.contains_eq_true]
  · exact ⟨FolderLedger.mem_keys_of_holds here slash listed small holds,
      FolderLedger.contains_of_holds holds⟩
  · exact ⟨FolderLedger.holds_of_mem_keys here slash listed unambiguous,
      FolderLedger.mem_keys_of_holds here slash listed small⟩
  · exact ⟨FolderLedger.holds_of_contains plain, FolderLedger.contains_of_holds⟩
  · rintro run stage unambiguous complete world rfl trace flow world' path
    have stocked : Stocked ⟨workspace, source⟩ location (· ∈ stage.barrierInputs run.count)
        world.state :=
      ⟨here, fun key needed => FolderLedger.holds_of_mem_keys here slash listed
        (unambiguous key needed) (KeySet.firstMissing_eq_none.mp complete key needed)⟩
    obtain ⟨pool, found, shape⟩ := ended_isFound slash stocked path
    refine ⟨?_, ?_⟩
    · rintro reached next rfl chunk key member
      rcases shape with shape | shape <;> cases shape
      exact found chunk _ member key rfl
    · rintro key rfl
      rcases shape with shape | shape
      · cases shape
      · exact result_ne_notFound found key (Flow.done.inj shape).symm

/-- A workspace with the baseline encoding of one chunk. -/
def encodedWorkspace : Disk :=
  ⟨[(["work"], .folder), (["work", "a_vpx_00.ivf"], .file [1] false)], []⟩

/-- A run over one chunk. -/
def oneChunk : Run :=
  ⟨"a", [⟨0, "work/a_00.y4m", [0]⟩], .resume⟩

/-- The baseline encoding is listed and can be read, and the stage that reads it finds it. -/
theorem views_agree_encodedWorkspace :
    (∃ keys, FolderLedger.keys ⟨"work", "a"⟩ encodedWorkspace = .ok keys ∧
      (⟨0, .baseline⟩ ∈ keys ↔
        ∃ artifact, FolderLedger.get ⟨"work", "a"⟩ ⟨0, .baseline⟩ encodedWorkspace =
          .ok artifact)) ∧
      ∀ trace flow world',
        Flow.Path (onFolder ⟨"work", "a"⟩ ["work"]) (keeping ⟨"work", "a"⟩ ["work"]).rely
          (Flow.ofPool (oneChunk.stagePool .stateExtraction)) (World.fresh 2 encodedWorkspace)
          trace flow world' →
        ∀ key, flow ≠ .done (.error (.notFound key)) := by
  have here : encodedWorkspace.FolderAt "work" ["work"] := ⟨by decide, by decide⟩
  have slash : '/' ∉ "a".toList := by decide
  have unambiguous :
      FolderLedger.Unambiguous ⟨"work", "a"⟩ encodedWorkspace ⟨0, .baseline⟩ := by
    intro name spells file
    unfold Disk.isFile at file
    split at file
    · next data executable seen =>
      obtain ⟨-, -, found⟩ := (here.stat?_eq_ok (spells.isStep slash)).mp seen
      have member : name ∈ encodedWorkspace.childNames ["work"] :=
        Disk.mem_childNames.mpr (Option.isSome_iff_exists.mpr ⟨_, found⟩)
      have only : encodedWorkspace.childNames ["work"] = ["a_vpx_00.ivf"] := by decide
      rw [only, List.mem_singleton] at member
      exact member.trans (by decide)
    · cases file
  obtain ⟨keys, listed, views, finds⟩ := views_agree here slash
  refine ⟨⟨keys, listed, (views ⟨0, .baseline⟩ (by decide)).2.2.1 unambiguous⟩, ?_⟩
  intro trace flow world' path
  refine (finds oneChunk .stateExtraction (fun key needed => ?_) ?_ _ rfl _ _ _ path).2
  · obtain rfl : key = ⟨0, .baseline⟩ := by
      have inputs : Stage.stateExtraction.barrierInputs oneChunk.count = [⟨0, .baseline⟩] := rfl
      simpa [inputs] using needed
    exact unambiguous
  · have only : FolderLedger.keys ⟨"work", "a"⟩ encodedWorkspace = .ok [⟨0, .baseline⟩] := by
      decide
    obtain rfl := Except.ok.inj (listed.symm.trans only)
    decide

/-- A workspace with a folder where an artifact belongs. -/
def blockedWorkspace : Disk :=
  ⟨[(["work"], .folder), (["work", "a_vpx_00.ivf"], .folder)], []⟩

/-- A workspace with an artifact under another spelling of its name. -/
def respelledWorkspace : Disk :=
  ⟨[(["work"], .folder), (["work", "a_vpx_000.ivf"], .file [1] false)], []⟩

/-- A workspace with a source in a folder of its own. -/
def nestedWorkspace : Disk :=
  ⟨[(["work"], .folder), (["work", "b"], .folder),
    (["work", "b", "a_vpx_00.ivf"], .file [1] false)], []⟩

/-- **The views do not always agree**: a folder is there but not listed and cannot be read, a file
under another spelling is listed but not there, and a file of a source that has a slash can be read
but is not listed. -/
theorem views_disagree :
    ((FolderLedger.keys ⟨"work", "a"⟩ blockedWorkspace = .ok [] ∧
        FolderLedger.contains ⟨"work", "a"⟩ ⟨0, .baseline⟩ blockedWorkspace = .ok true ∧
        FolderLedger.get ⟨"work", "a"⟩ ⟨0, .baseline⟩ blockedWorkspace =
          .error (.storage ⟨0, .baseline⟩ .isADirectory)) ∧
      FolderLedger.keys ⟨"work", "a"⟩ respelledWorkspace = .ok [⟨0, .baseline⟩] ∧
        FolderLedger.contains ⟨"work", "a"⟩ ⟨0, .baseline⟩ respelledWorkspace = .ok false ∧
        FolderLedger.get ⟨"work", "a"⟩ ⟨0, .baseline⟩ respelledWorkspace =
          .error (.notFound ⟨0, .baseline⟩)) ∧
      FolderLedger.keys ⟨"work", "b/a"⟩ nestedWorkspace = .ok [] ∧
        FolderLedger.contains ⟨"work", "b/a"⟩ ⟨0, .baseline⟩ nestedWorkspace = .ok true ∧
        FolderLedger.get ⟨"work", "b/a"⟩ ⟨0, .baseline⟩ nestedWorkspace =
          .ok (.bitstream ⟨[1]⟩) := by
  refine ⟨⟨⟨by decide, by decide, by decide⟩, by decide, by decide, by decide⟩, by decide,
    by decide, by decide⟩

end Transcode.Run
