/-
**Whether sources stay in the workspace.** The paths of raw chunks, artifacts and finished streams
are made from source identifiers. Runs and batches refuse sources with a slash, so that each of
their paths has the workspace as its parent; cutting a media file and comparing with chunks refuse
none.

* `Bench.Derives` lists the paths that a command makes from a source.
* `Bench.IsMade.inside_path_iff`: which of them have the workspace as their parent.
* `Work.StaysIn`: part of a command neither sees nor changes anything outside a folder.
* `Bench.staysIn_run`, `Bench.staysIn_batch`, `Bench.staysIn_status`, `Bench.staysIn_compare`.
* `Bench.sources_confined` — which commands keep to the workspace, and when the others do.
-/
import Transcode.Proofs.CommandLine.Delivery
import Transcode.Proofs.Disk.Inside
import Transcode.Proofs.Studio.Enclosure

namespace Transcode.Program

/-! ### Parts of commands -/

/-- Two desks on which the same has been printed, with trees that are alike in a folder. -/
structure Desk.Alike (directory : String) (location : Location) (origin : Disk)
    (first second : Desk) : Prop where
  output : first.output = second.output
  world : World.Alike (Site.Alike directory location origin) first.world second.world

/-- What lies outside of the folder is what lay there at the beginning. -/
theorem Desk.Alike.elsewhere {directory : String} {location place : Location} {origin : Disk}
    {first second : Desk} (alike : Desk.Alike directory location origin first second)
    (outside : ∀ name, place ≠ location ++ [name]) : first.disk.node? place = origin.node? place :=
  (alike.world.state.disk.elsewhere place outside).symm

namespace Work

variable {α β : Type} {directory name : String}

/-- Part of a command neither sees nor changes anything outside the folder: whatever lies elsewhere
in the tree, it comes to the same, prints the same and leaves the same in the folder, and what lay
elsewhere in some earlier tree lies there still. -/
def StaysIn (directory : String) (work : Work α) : Prop :=
  ∀ location origin first second, Desk.Alike directory location origin first second →
    (work.run.run first).1 = (work.run.run second).1 ∧
      Desk.Alike directory location origin (work.run.run first).2 (work.run.run second).2

theorem staysIn_pure (value : α) : (pure value : Work α).StaysIn directory :=
  fun _ _ _ _ alike => ⟨rfl, alike⟩

theorem staysIn_throw (error : CommandError) : (throw error : Work α).StaysIn directory :=
  fun _ _ _ _ alike => ⟨rfl, alike⟩

theorem staysIn_printAll (lines : List String) : (printAll lines).StaysIn directory :=
  fun _ _ _ _ alike => ⟨rfl, congrArg (· ++ lines) alike.output, alike.world⟩

theorem staysIn_print (line : String) : (print line).StaysIn directory :=
  staysIn_printAll [line]

theorem StaysIn.bind {work : Work α} {next : α → Work β} (stays : work.StaysIn directory)
    (further : ∀ value, (next value).StaysIn directory) : (work >>= next).StaysIn directory := by
  intro location origin first second alike
  obtain ⟨same, after⟩ := stays location origin first second alike
  cases ended : (work.run.run first).1 with
  | ok value =>
    rw [run_bind_of_ok next ended, run_bind_of_ok next (same ▸ ended)]
    exact further value location origin _ _ after
  | error error =>
    rw [run_bind_of_error next ended, run_bind_of_error next (same ▸ ended)]
    exact ⟨rfl, after⟩

theorem StaysIn.ofRun_bind {result : Except RunError α} {next : α → Work β}
    (further : ∀ value, result = .ok value → (next value).StaysIn directory) :
    (ofRun result >>= next).StaysIn directory := by
  cases result with
  | error error => exact fun _ _ _ _ alike => ⟨rfl, alike⟩
  | ok value => exact further value rfl

theorem StaysIn.ite {work other : Work α} (stays : work.StaysIn directory)
    (also : other.StaysIn directory) (condition : Bool) :
    (if condition then work else other).StaysIn directory := by
  cases condition
  · exact also
  · exact stays

/-- What is done on one condition only stays in the folder with what follows. -/
theorem StaysIn.when {work : Work Unit} {next : Unit → Work α} (stays : work.StaysIn directory)
    (further : (next ()).StaysIn directory) (condition : Bool) :
    (if condition then work >>= next else next ()).StaysIn directory :=
  (stays.bind fun _ => further).ite further condition

/-- What is done to the world stays in the folder if it comes to the same on both sides. -/
theorem StaysIn.onWorld_bind {act : World Site → α × World Site} {next : α → Work β}
    (acts : ∀ location origin first second,
      World.Alike (Site.Alike directory location origin) first second →
        (act first).1 = (act second).1 ∧
          World.Alike (Site.Alike directory location origin) (act first).2 (act second).2)
    (further : ∀ world, (next (act world).1).StaysIn directory) :
    (onWorld act >>= next).StaysIn directory := by
  intro location origin first second alike
  obtain ⟨same, after⟩ := acts location origin first.world second.world alike.world
  rw [run_bind, run_bind, run_onWorld, run_onWorld]
  simp only [← same]
  exact further first.world location origin _ _ ⟨alike.output, after⟩

section Files

-- Unfolding a write would follow its path.
attribute [local irreducible] Disk.persist

/-- A file is put in the folder, or nowhere. -/
theorem staysIn_writeFile (step : Path.IsStep name) (bytes : Bytes) :
    (writeFile (Path.join directory name) bytes).StaysIn directory := by
  intro location origin first second alike
  obtain ⟨same, after⟩ := alike.world.state.disk.persist step bytes true
  rw [run_writeFile, run_writeFile, Desk.disk, Desk.disk, same]
  exact ⟨rfl, alike.output, alike.world.free, alike.world.cancelled, alike.world.state.ledgers,
    after⟩

end Files

/-- What is done to the site stays in the folder if it comes to the same on both sides. -/
theorem staysIn_onSite {act : Site → Except RunError α × Site}
    (acts : ∀ location origin first second, Site.Alike directory location origin first second →
      (act first).1 = (act second).1 ∧
        Site.Alike directory location origin (act first).2 (act second).2) :
    (onSite act).StaysIn directory := by
  intro location origin first second alike
  obtain ⟨same, after⟩ := acts location origin _ _ alike.world.state
  rw [run_onSite, run_onSite, same]
  exact ⟨rfl, alike.output, alike.world.free, alike.world.cancelled, after⟩

end Work

namespace Bench

variable {bench : Bench} {codec : Simulated} {source : String}

/-- The bench is as the program makes it from its settings. -/
def IsMade (bench : Bench) : Prop :=
  ∃ launcher disk, (bench.settings.studio launcher disk).1 = .ok bench.studio

theorem IsMade.studio_eq (made : bench.IsMade) :
    bench.studio.ledgers = .folder bench.settings.pipeline.workspace ∧
      bench.studio.chunks = bench.settings.chunkFolder := by
  obtain ⟨launcher, disk, made⟩ := made
  rw [Settings.studio] at made
  match engine : bench.settings.engine disk with
  | (.error error, later) =>
    rw [engine] at made
    cases made
  | (.ok engine, later) =>
    rw [engine] at made
    rw [← Except.ok.inj made]
    exact ⟨rfl, rfl⟩

theorem IsMade.worksIn (made : bench.IsMade) :
    bench.studio.WorksIn bench.settings.pipeline.workspace where
  ledgers := made.studio_eq.1
  chunks := by
    rw [made.studio_eq.2]
    rfl

theorem IsMade.plain_extension (made : bench.IsMade)
    (plain : '/' ∉ bench.settings.chunkFolder.extension.toList) :
    '/' ∉ bench.studio.chunks.extension.toList := by
  rw [made.studio_eq.2]
  exact plain

/-! ### Commands that stay in the workspace -/

/-- The streams of sources without a slash are put in the workspace. -/
theorem staysIn_deliver (json : Bool) {results : Results} (confined : Confined results) :
    (bench.deliver json results).StaysIn bench.settings.pipeline.workspace := by
  induction results with
  | nil => exact Work.staysIn_pure _
  | cons entry rest ih =>
    obtain ⟨here, others⟩ := List.forall_mem_cons.mp confined
    match entry with
    | (source, .error error) =>
      exact (Work.staysIn_print _).when ((ih others).bind fun _ => Work.staysIn_pure _) !json
    | (source, .ok result) =>
      refine (Work.staysIn_writeFile (FileName.isStep_output here) _).bind fun _ => ?_
      exact (Work.staysIn_printAll _).when ((ih others).bind fun _ => Work.staysIn_pure _) !json

theorem staysIn_finish (json : Bool) {results : Results} (confined : Confined results) :
    (bench.finish json results).StaysIn bench.settings.pipeline.workspace := by
  refine (staysIn_deliver json confined).bind fun found => ?_
  refine (Work.staysIn_print _).when ?_ json
  cases found.2 with
  | none => exact Work.staysIn_pure _
  | some error => exact Work.staysIn_throw _

section Commands

variable (made : bench.IsMade)
include made

/-- **The status view** stays in the workspace, whatever the source is called. -/
theorem staysIn_status (command : StatusCommand) :
    (bench.status command).StaysIn bench.settings.pipeline.workspace := by
  refine (Work.staysIn_onSite fun location origin first second alike => ?_).bind fun status =>
    (Work.staysIn_print _).ite (Work.staysIn_printAll _) command.json
  obtain ⟨same, still, also⟩ :=
    Studio.status_alike made.worksIn alike command.source command.chunks
  rw [still, also]
  exact ⟨same, alike⟩

variable (plain : '/' ∉ bench.settings.chunkFolder.extension.toList)
include plain

/-- **Comparing with the chunks of a source** stays in the workspace, if the source has no slash. -/
theorem staysIn_compare (slash : '/' ∉ source.toList) (media : RawMedia) (chunks : Nat) :
    (bench.compare media source chunks).StaysIn bench.settings.pipeline.workspace := by
  refine (Work.staysIn_onSite fun location origin first second alike => ⟨?_, alike⟩).bind
    fun comparison => (Work.staysIn_print _).ite (Work.staysIn_throw _) comparison.isMatch
  rw [Studio.compare, Studio.compare, Studio.split_alike made.worksIn
    (made.plain_extension plain) slash alike.disk]

variable (engine : bench.studio.engine = .simulated codec)
include engine

/-- **A run** whose stream goes to the workspace stays there. -/
theorem staysIn_run {command : RunCommand} (unsaid : command.output = none) :
    (bench.run command).StaysIn bench.settings.pipeline.workspace := by
  refine Work.StaysIn.ofRun_bind fun order accepted => ?_
  obtain ⟨-, separated, -, rfl⟩ := Order.create_eq_ok.mp accepted
  have slash := Order.slash_notMem separated
  refine Work.StaysIn.onWorld_bind (fun location origin first second alike =>
    Studio.execute_alike made.worksIn engine (made.plain_extension plain) slash alike) fun _ => ?_
  refine Work.StaysIn.ofRun_bind fun result _ => ?_
  rw [unsaid]
  refine (Work.staysIn_writeFile (FileName.isStep_output slash) _).bind fun _ => ?_
  exact (Work.staysIn_print _).ite (Work.staysIn_printAll _) command.json

/-- **A batch** stays in the workspace. -/
theorem staysIn_batch (command : BatchCommand) :
    (bench.batch command).StaysIn bench.settings.pipeline.workspace := by
  rw [batch_eq]
  refine Work.StaysIn.ofRun_bind fun orders accepted => ?_
  obtain ⟨shape, separated⟩ := Order.mapM_create_eq_ok accepted
  have slash : ∀ order ∈ orders, '/' ∉ order.source.toList := by
    intro order member
    obtain ⟨source, listed, rfl⟩ := List.mem_map.mp (shape ▸ member)
    exact Order.slash_notMem (separated source listed)
  refine Work.StaysIn.onWorld_bind (fun location origin first second alike =>
    Studio.batch_alike made.worksIn engine (made.plain_extension plain) slash alike)
    fun world => staysIn_finish command.json ?_
  refine confined_of_sources accepted ?_
  rw [Studio.batch, Batch.map_fst_gather, shape, List.map_map]
  exact List.map_id _

end Commands

/-! ### Paths made from sources -/

/-- What a path is made for. -/
inductive Target where
  | file (role : FileName.Role)
  /-- The names of the files that an input is cut into. -/
  | pattern (input : String)

/-- The segmenter for an input. -/
def segmenter (bench : Bench) (input : String) : Segmenter where
  program := bench.settings.split.segmenter
  segmentTime := bench.settings.split.segmentTime
  input := input
  folder := bench.settings.chunkFolder

/-- The path that is made from a source. -/
def path (bench : Bench) (source : String) : Target → String
  | .file (.raw chunk) => bench.studio.chunks.path source chunk
  | .file (.slot key) => FolderLedger.path ⟨bench.settings.pipeline.workspace, source⟩ key
  | .file .result => bench.outputPath source
  | .pattern input => (bench.segmenter input).pattern source

/-- The extension at the end of a path. -/
def extension (bench : Bench) : Target → String
  | .file (.slot key) => key.kind.payload.extension
  | .file .result => "ivf"
  | .file (.raw _) | .pattern _ => bench.settings.chunkFolder.extension

/-- The paths that a command makes from a source, to read them, to write them or to hand them to the
segmenter. -/
inductive Derives (bench : Bench) : Command → String → Target → Prop
  | run {command : RunCommand} {order : Order} {role : FileName.Role}
      (accepted : Order.create command.source command.chunks bench.settings.pipeline.policy =
        .ok order)
      (unsaid : role = .result → command.output = none) :
      Derives bench (.run command) command.source (.file role)
  | batch {command : BatchCommand} {orders : List Order} {source : String} {role : FileName.Role}
      (accepted : (command.sources.mapM fun source =>
        Order.create source command.chunks bench.settings.pipeline.policy) = .ok orders)
      (member : source ∈ command.sources) : Derives bench (.batch command) source (.file role)
  | cut (command : SplitCommand) :
      Derives bench (.split command) command.source (.pattern command.input)
  | count (command : SplitCommand) (chunk : ChunkIndex) :
      Derives bench (.split command) command.source (.file (.raw chunk))
  | compare {command : DecodeCommand} {source : String} {chunks : Nat}
      (given : command.compareSource = some source) (counted : command.chunks = some chunks)
      (chunk : ChunkIndex) : Derives bench (.decode command) source (.file (.raw chunk))

/-- The sources that a command is to transcode. -/
def ordered : Command → List String
  | .run command => [command.source]
  | .batch command => command.sources
  | .split _ | .status _ | .decode _ => []

/-- Between the source and the extension stands a mark without a slash. -/
theorem IsMade.path_eq (made : bench.IsMade) (source : String) (target : Target) :
    ∃ middle : String, '/' ∉ middle.toList ∧ '_' ∈ middle.toList ∧
      bench.path source target = Path.join bench.settings.pipeline.workspace
        (source ++ middle ++ bench.extension target) := by
  have digits (chunk : ChunkIndex) : '/' ∉ chunk.label.toList := by
    simpa [ChunkIndex.label, Number.padded] using FileName.slash_notMem_paddedDigits 2 chunk
  rcases target with (chunk | key | -) | input
  · refine ⟨"_" ++ chunk.label ++ ".", by simp [digits], by simp, ?_⟩
    rw [path, made.studio_eq.2, ChunkFolder.path, FileName.rawChunk]
    simp only [String.append_assoc]
    rfl
  · have tag : '/' ∉ key.kind.tag.toList :=
      FileName.notMem_of_all key.kind.all_isAlphanum_tag (by decide)
    refine ⟨"_" ++ key.kind.tag ++ "_" ++ key.chunk.label ++ ".", by simp [digits, tag], by simp,
      ?_⟩
    rw [path, FolderLedger.path, FileName.artifact, extension]
    simp only [String.append_assoc]
  · refine ⟨"_output.", by decide, by decide, ?_⟩
    rw [path, outputPath, FileName.output, extension, String.append_assoc]
    rfl
  · refine ⟨"_%02d.", by decide, by decide, ?_⟩
    rw [path, Segmenter.pattern]
    rfl

/-- Without a slash in the source and the extension, a path has the workspace as its parent. -/
theorem IsMade.inside_path (made : bench.IsMade) {target : Target} (slash : '/' ∉ source.toList)
    (plain : '/' ∉ (bench.extension target).toList) :
    Path.Inside bench.settings.pipeline.workspace (bench.path source target) := by
  obtain ⟨middle, clear, marked, shape⟩ := made.path_eq source target
  rw [shape]
  exact Path.inside_join _ (FileName.isStep_of_underscore (by simp [marked])
    (by simp [slash, clear, plain]))

/-- Slashes in the source and the extension lead elsewhere, unless they stand for nothing. -/
theorem IsMade.inside_path_iff (made : bench.IsMade) (target : Target)
    (given : bench.settings.pipeline.workspace ≠ "") (relative : Path.isAbsolute source = false) :
    Path.Inside bench.settings.pipeline.workspace (bench.path source target) ↔
      Path.Idle (Path.names source).dropLast ∧
        Path.Idle (Path.names (bench.extension target)).tail := by
  obtain ⟨middle, clear, marked, shape⟩ := made.path_eq source target
  rw [shape]
  exact Path.inside_join_iff_idle given relative clear marked

/-- A command that is to transcode makes paths only from sources without a slash. -/
theorem Derives.slash_notMem {command : Command} {target : Target}
    (derives : bench.Derives command source target) (member : source ∈ ordered command) :
    '/' ∉ source.toList := by
  cases derives with
  | run accepted => exact Order.slash_notMem (Order.create_eq_ok.mp accepted).2.1
  | batch accepted listed =>
    exact Order.slash_notMem ((Order.mapM_create_eq_ok accepted).2 source listed)
  | cut | count | compare => cases member

/-- A source with a slash is refused, and nothing has been done. -/
theorem run_of_slash {command : Command} (member : source ∈ ordered command)
    (slash : '/' ∈ source.toList) (desk : Desk) :
    ∃ error, (bench.carryOut command).run.run desk = (.error (.run error), desk) := by
  have refused {α : Type} {result : Except RunError α} {next : α → Work Unit}
      (unfit : ∀ value, result ≠ .ok value) :
      ∃ error, (Work.ofRun result >>= next).run.run desk = (.error (.run error), desk) := by
    cases result with
    | error error => exact ⟨error, rfl⟩
    | ok value => exact absurd rfl (unfit value)
  cases command with
  | run command =>
    obtain rfl := List.mem_singleton.mp member
    exact refused fun order accepted =>
      Order.slash_notMem (Order.create_eq_ok.mp accepted).2.1 slash
  | batch command =>
    rw [carryOut, batch_eq]
    exact refused fun orders accepted =>
      Order.slash_notMem ((Order.mapM_create_eq_ok accepted).2 source member) slash
  | split | status | decode => cases member

/-- **Which sources stay in the workspace.** Of all paths that a command makes from a source:

* Those of a run or a batch have the workspace as their parent, if the extension of raw chunks has
  no slash, and so has any other from a source without a slash. A source with a slash is refused
  there before anything is done.
* In general, just those have it in which all slashes of the source and of the extension stand for
  nothing. Segmenting and comparing refuse none of the others, and count and read the raw chunks
  wherever their paths lead.

And the commands do not come upon other paths: the status view, and with the codec in memory runs
and batches as well, neither see nor change anything outside the workspace, and no more does the
comparison with a source that has no slash. -/
theorem sources_confined (bench : Bench) (made : bench.IsMade) :
    let workspace := bench.settings.pipeline.workspace
    (∀ command source target, bench.Derives command source target →
      source ∈ ordered command ∨ '/' ∉ source.toList →
      '/' ∉ (bench.extension target).toList →
      Path.Inside workspace (bench.path source target)) ∧
    (∀ command, ∀ source ∈ ordered command, '/' ∈ source.toList → ∀ desk,
      ∃ error, (bench.carryOut command).run.run desk = (.error (.run error), desk)) ∧
    (∀ source target, workspace ≠ "" → Path.isAbsolute source = false →
      (Path.Inside workspace (bench.path source target) ↔
        Path.Idle (Path.names source).dropLast ∧
          Path.Idle (Path.names (bench.extension target)).tail)) ∧
    (∀ source (first second : Disk),
      (∀ chunk, first.stat? (bench.path source (.file (.raw chunk))) =
        second.stat? (bench.path source (.file (.raw chunk)))) →
      bench.studio.chunks.available source first = bench.studio.chunks.available source second ∧
      ∀ count, bench.studio.chunks.split source count first =
        bench.studio.chunks.split source count second) ∧
    (∀ command, (bench.status command).StaysIn workspace) ∧
    ('/' ∉ bench.settings.chunkFolder.extension.toList →
      (∀ media source chunks, '/' ∉ source.toList →
        (bench.compare media source chunks).StaysIn workspace) ∧
      ∀ codec, bench.studio.engine = .simulated codec →
        (∀ command, command.output = none → (bench.run command).StaysIn workspace) ∧
        ∀ command, (bench.batch command).StaysIn workspace) := by
  refine ⟨fun command source target derives checked plain => ?_,
    fun command source member slash desk => run_of_slash member slash desk,
    fun source target given relative => made.inside_path_iff target given relative,
    fun source first second same =>
      ⟨ChunkFolder.available_congr same, ChunkFolder.split_congr same⟩,
    staysIn_status made, fun plain => ⟨fun media source chunks slash =>
      staysIn_compare made plain slash media chunks, fun codec engine =>
        ⟨fun command unsaid => staysIn_run made plain engine unsaid,
          staysIn_batch made plain engine⟩⟩⟩
  exact made.inside_path (checked.elim derives.slash_notMem id) plain

/-! ### A source beside the workspace -/

/-- The program with the codec in memory. -/
def inMemory : Bench :=
  { plain with settings := { codec := { backend := .simulated } } }

/-- A tree with a raw chunk in the workspace, and another one beside it. -/
def beside : Disk :=
  ⟨[(["clip_00.y4m"], .file [1] false), (["workspace", "clip_00.y4m"], .file [2] false),
    (["workspace"], .folder)], []⟩

/-- The tree without the chunk beside the workspace. -/
def alone : Disk :=
  ⟨[(["workspace", "clip_00.y4m"], .file [2] false), (["workspace"], .folder)], []⟩

/-- A desk with a tree on it. -/
def deskOf (disk : Disk) : Desk :=
  ⟨[], World.fresh 1 ⟨disk, []⟩⟩

theorem alike_beside :
    Desk.Alike "workspace" ["workspace"] beside (deskOf beside) (deskOf alone) where
  output := rfl
  world := {
    free := rfl
    cancelled := rfl
    state := {
      ledgers := rfl
      disk := {
        here := ⟨by decide, by decide⟩
        there := ⟨by decide, by decide⟩
        shared := by
          rintro place ⟨name, rfl⟩
          simp [deskOf, World.fresh, beside, alone, Disk.node?, List.lookup_cons]
        named := by
          intro name present
          have only : beside.childNames ["workspace"] = ["clip_00.y4m"] := by decide
          have listed : name ∈ beside.childNames ["workspace"] := Disk.mem_childNames.mpr present
          rw [only, List.mem_singleton] at listed
          subst listed
          decide
        elsewhere := fun _ _ => rfl } } }

/-- A run over the chunk in the workspace. -/
def inner : RunCommand :=
  ⟨"clip", 1, none, none, none, false⟩

/-- A source that leads to the other chunk. -/
def outer : DecodeCommand :=
  ⟨"clip.ivf", "clip.y4m", some "../clip", some 1⟩

/-- The raw chunks of a run lie in the workspace; what is beside it does not matter, and stays. Where
the source leads there they do not, and a run refuses the source. -/
theorem sources_confined_beside :
    inMemory.IsMade ∧
      Path.Inside "workspace" (inMemory.path "clip" (.file (.raw 0))) ∧
      ((inMemory.run inner).run.run (deskOf beside)).1 =
        ((inMemory.run inner).run.run (deskOf alone)).1 ∧
      ((inMemory.run inner).run.run (deskOf beside)).2.disk.node? ["clip_00.y4m"] =
        some (.file [1] false) ∧
      ¬ Path.Inside "workspace" (inMemory.path "../clip" (.file (.raw 0))) ∧
      ∀ desk, ∃ error, (inMemory.carryOut (.run { inner with source := "../clip" })).run.run desk =
        (.error (.run error), desk) := by
  have made : inMemory.IsMade := ⟨inMemory.studio.launcher, beside, rfl⟩
  obtain ⟨inside, refused, exact, -, -, stays⟩ := sources_confined inMemory made
  have derives : inMemory.Derives (.run inner) inner.source (.file (.raw 0)) := .run rfl nofun
  have quiet : (inMemory.run inner).StaysIn "workspace" := ((stays (by decide)).2 _ rfl).1 inner rfl
  obtain ⟨same, after⟩ := quiet _ _ _ _ alike_beside
  refine ⟨made, inside _ _ _ derives (.inl (by decide)) (by decide), same,
    after.elsewhere (by simp), fun lies => ?_,
    refused _ "../clip" (by decide) (by decide)⟩
  have idle := ((exact "../clip" _ (by decide) (by decide)).mp lies).1
  revert idle
  decide

/-- **A source can lead out of the workspace**: with settings that are accepted, comparing reads a
chunk beside the workspace, and the segmenter is told to write there. -/
theorem sources_confined_not :
    inMemory.settings.check.isOk = true ∧ inMemory.IsMade ∧
      inMemory.Derives (.decode outer) "../clip" (.file (.raw 0)) ∧
      inMemory.path "../clip" (.file (.raw 0)) = "workspace/../clip_00.y4m" ∧
      ¬ Path.Inside "workspace" (inMemory.path "../clip" (.file (.raw 0))) ∧
      inMemory.studio.compare [1] "../clip" 1 ⟨beside, []⟩ = .ok (.between [1] [1]) ∧
      inMemory.Derives (.split ⟨"clip.y4m", "../clip", none⟩) "../clip" (.pattern "clip.y4m") ∧
      ¬ Path.Inside "workspace" (inMemory.path "../clip" (.pattern "clip.y4m")) :=
  ⟨by decide, ⟨inMemory.studio.launcher, beside, rfl⟩, .compare rfl rfl 0, by decide, by decide,
    by decide, .cut _, by decide⟩

end Bench

end Transcode.Program
