/-
**Delivering the streams of a batch.** When all orders have been carried out, the streams of those
that succeeded are written one after another. The first that cannot be written ends the delivery:
what stands before it has been delivered, nothing behind it is, and the failures of runs are
forgotten.

* `Bench.handOut` is what the delivery does to the files (`Bench.run_deliver`).
* `Bench.handOut_of_takes`: as long as all streams can be written, each is in its place at the end.
* `Bench.handOut_append_of_refused`: one that cannot be written hides what comes behind it.
* `Bench.batch_delivers_up_to_refused` — a batch delivers all streams, and reports the first run
  that failed, unless a stream cannot be written; then it delivers those before it, and reports it
  alone.
-/
import Transcode.Proofs.CommandLine.Work
import Transcode.Proofs.Disk.Persist
import Transcode.Proofs.FileName.Roles
import Transcode.Proofs.Run.Order

namespace Transcode

namespace Batch

variable {α : Type}

theorem length_fill (arrived : List (Nat × α)) (slots : List (Option α)) :
    (arrived.foldl (fun slots (position, result) => slots.set position (some result))
      slots).length = slots.length := by
  induction arrived generalizing slots with
  | nil => rfl
  | cons first rest ih => rw [List.foldl_cons, ih, List.length_set]

theorem length_slots (count : Nat) (arrived : List (Nat × α)) :
    (slots count arrived).length = count := by
  rw [slots, length_fill, List.length_replicate]

theorem map_fst_gather (orders : List Order) (ended : List (Nat × Except RunError α)) :
    (gather orders ended).map Prod.fst = orders.map Order.source := by
  rw [gather, List.map_map]
  show ((orders.zip _).map (Order.source ∘ Prod.fst)) = _
  rw [← List.map_map, List.map_fst_zip (length_slots _ _).ge]

end Batch

namespace Program.Bench

/-- What a batch has come to: the result of each source, in the order of the sources. -/
abbrev Results : Type :=
  List (String × Except RunError Run.Result)

variable {bench : Bench} {results front back : Results} {disk : Disk} {source : String}
  {result : Run.Result}

/-! ### The files -/

section Files

-- Unfolding a write in the middle of a delivery would follow its path.
attribute [local irreducible] Disk.persist

/-- What the delivery does to the files: the streams of the runs that succeeded are written one
after another, until one cannot be written. -/
def handOut (bench : Bench) : Results → Disk → Except CommandError Unit × Disk
  | [], disk => (.ok (), disk)
  | (_, .error _) :: rest, disk => handOut bench rest disk
  | (source, .ok result) :: rest, disk =>
    match disk.persist (bench.outputPath source) result.output.bytes true with
    | (.ok (), disk) => handOut bench rest disk
    | (.error error, disk) => (.error (.writing (bench.outputPath source) error), disk)

theorem handOut_error (error : RunError) (rest : Results) (disk : Disk) :
    bench.handOut ((source, .error error) :: rest) disk = bench.handOut rest disk :=
  rfl

theorem handOut_ok (rest : Results) (disk : Disk) :
    bench.handOut ((source, .ok result) :: rest) disk =
      match disk.persist (bench.outputPath source) result.output.bytes true with
      | (.ok (), disk) => bench.handOut rest disk
      | (.error error, disk) => (.error (.writing (bench.outputPath source) error), disk) :=
  rfl

/-- The failure of the first run that failed. -/
def firstFailure (results : Results) : Option RunError :=
  results.findSome? fun entry => match entry.2 with
    | .ok _ => none
    | .error error => some error

/-- The stream of a source can be written, if its run has made one. -/
def Takes (bench : Bench) (disk : Disk) (entry : String × Except RunError Run.Result) : Prop :=
  ∀ result, entry.2 = .ok result → disk.Accepts (bench.outputPath entry.1) result.output.bytes

/-- The sources name files of the workspace. -/
def Confined (results : Results) : Prop :=
  ∀ entry ∈ results, '/' ∉ entry.1.toList

/-- The file of each source that succeeded holds its stream; where a source stands more than once,
the last of them. -/
def Delivered (bench : Bench) (results : Results) (disk : Disk) : Prop :=
  ∀ front source result back, results = front ++ (source, .ok result) :: back →
    (∀ later, (source, .ok later) ∉ back) →
    disk.read (bench.outputPath source) = .ok result.output.bytes

/-- The stream of one source stands in the workspace, to stay there. -/
abbrev Placed (bench : Bench) (disk : Disk) (source : String) (result : Run.Result) : Prop :=
  disk.Keeps bench.settings.pipeline.workspace (FileName.output source) result.output.bytes

/-- A stream stays in its place while the streams of other sources are handed out. -/
theorem handOut_keeps (confined : Confined results) (placed : bench.Placed disk source result)
    (apart : ∀ later, (source, .ok later) ∉ results) :
    bench.Placed (bench.handOut results disk).2 source result := by
  induction results generalizing disk with
  | nil => exact placed
  | cons entry rest ih =>
    obtain ⟨here, others⟩ := List.forall_mem_cons.mp confined
    have behind (later) : (source, .ok later) ∉ rest := fun member =>
      apart later (List.mem_cons_of_mem _ member)
    match entry with
    | (other, .error error) => exact ih others placed behind
    | (other, .ok later) =>
      have differs : FileName.output other ≠ FileName.output source := fun same =>
        apart later (FileName.output_inj.mp same ▸ List.mem_cons_self)
      have kept : bench.Placed
          (disk.persist (bench.outputPath other) later.output.bytes true).2 source result :=
        placed.persist (FileName.isStep_output here) differs
      rw [handOut_ok]
      match wrote : disk.persist (bench.outputPath other) later.output.bytes true with
      | (.ok (), after) =>
        rw [wrote] at kept
        exact ih others kept behind
      | (.error error, after) =>
        rw [wrote] at kept
        exact kept

/-- Writing the stream of one source does not decide about another. -/
theorem takes_iff_of_persist {bytes : Bytes} {later : Disk}
    {entry : String × Except RunError Run.Result} (here : '/' ∉ source.toList)
    (confined : '/' ∉ entry.1.toList)
    (wrote : disk.persist (bench.outputPath source) bytes true = (.ok (), later)) :
    bench.Takes later entry ↔ bench.Takes disk entry :=
  forall_congr' fun _ => imp_congr_right fun _ =>
    Disk.accepts_iff_of_persist (FileName.isStep_output here) (FileName.isStep_output confined)
      wrote

/-- As long as all streams can be written, they are, and neither the way they are followed by others
nor what can be written after them is any different. -/
theorem handOut_of_takes (confined : Confined front)
    (takes : ∀ entry ∈ front, bench.Takes disk entry) :
    (bench.handOut front disk).1 = .ok () ∧
      (∀ back, bench.handOut (front ++ back) disk =
        bench.handOut back (bench.handOut front disk).2) ∧
      ∀ entry : String × Except RunError Run.Result, '/' ∉ entry.1.toList →
        (bench.Takes (bench.handOut front disk).2 entry ↔ bench.Takes disk entry) := by
  induction front generalizing disk with
  | nil => exact ⟨rfl, fun _ => rfl, fun _ _ => Iff.rfl⟩
  | cons entry rest ih =>
    obtain ⟨here, others⟩ := List.forall_mem_cons.mp confined
    obtain ⟨first, further⟩ := List.forall_mem_cons.mp takes
    match entry with
    | (source, .error error) => exact ih others further
    | (source, .ok result) =>
      obtain ⟨later, wrote⟩ := Disk.accepts_iff.mp (first result rfl)
      have same (entry : String × Except RunError Run.Result) (plain : '/' ∉ entry.1.toList) :
          bench.Takes later entry ↔ bench.Takes disk entry :=
        takes_iff_of_persist here plain wrote
      obtain ⟨fine, onward, kept⟩ := @ih later others fun entry member =>
        (same entry (others entry member)).mpr (further entry member)
      have step (back : Results) :
          bench.handOut ((source, .ok result) :: back) disk = bench.handOut back later := by
        rw [handOut_ok, wrote]
      rw [step]
      refine ⟨fine, fun back => ?_, fun entry plain => (kept entry plain).trans (same entry plain)⟩
      rw [List.cons_append, step]
      exact onward back

/-- As long as all streams can be written, each is in its place at the end. -/
theorem placed_of_takes (confined : Confined results)
    (takes : ∀ entry ∈ results, bench.Takes disk entry)
    (shape : results = front ++ (source, .ok result) :: back)
    (last : ∀ later, (source, .ok later) ∉ back) :
    bench.Placed (bench.handOut results disk).2 source result := by
  subst shape
  obtain ⟨early, confined⟩ := List.forall_mem_append.mp confined
  obtain ⟨here, late⟩ := List.forall_mem_cons.mp confined
  obtain ⟨before, takes⟩ := List.forall_mem_append.mp takes
  obtain ⟨-, onward, same⟩ := handOut_of_takes early before
  have first := (same _ here).mpr (List.forall_mem_cons.mp takes).1
  obtain ⟨later, wrote⟩ := Disk.accepts_iff.mp (first result rfl)
  rw [onward, handOut_ok, wrote]
  exact handOut_keeps late (Disk.keeps_of_persist (FileName.isStep_output here) wrote) last

/-- No other file is made or changed. -/
theorem file_of_handOut {place : Location} {data : Bytes} {executable : Bool}
    (confined : Confined results)
    (file : (bench.handOut results disk).2.node? place = some (.file data executable)) :
    disk.node? place = some (.file data executable) ∨
      ∃ source result, (source, .ok result) ∈ results ∧
        place.getLast? = some (FileName.output source) := by
  induction results generalizing disk with
  | nil => exact .inl file
  | cons entry rest ih =>
    obtain ⟨here, others⟩ := List.forall_mem_cons.mp confined
    obtain ⟨other, outcome⟩ := entry
    have behind (found : ∃ source result, (source, .ok result) ∈ rest ∧
        place.getLast? = some (FileName.output source)) :
        ∃ source result, (source, .ok result) ∈ (other, outcome) :: rest ∧
          place.getLast? = some (FileName.output source) := by
      obtain ⟨source, result, member, last⟩ := found
      exact ⟨source, result, List.mem_cons_of_mem _ member, last⟩
    cases outcome with
    | error error => exact (ih others file).imp_right behind
    | ok result =>
      have written (file : (disk.persist (bench.outputPath other) result.output.bytes
          true).2.node? place = some (.file data executable)) :
          disk.node? place = some (.file data executable) ∨
            ∃ source later, (source, .ok later) ∈ (other, .ok result) :: rest ∧
              place.getLast? = some (FileName.output source) :=
        (Disk.file_of_persist (FileName.isStep_output here) file).imp_right fun named =>
          ⟨other, result, List.mem_cons_self, named.2⟩
      rw [handOut_ok] at file
      match wrote : disk.persist (bench.outputPath other) result.output.bytes true with
      | (.ok (), later) =>
        rw [wrote] at file written
        exact (ih others file).elim written fun found => .inr (behind found)
      | (.error error, later) =>
        rw [wrote] at file written
        exact written file

/-- What cannot be written at first cannot be written after the others either. -/
theorem refused_of_takes (confined : Confined (front ++ (source, .ok result) :: back))
    (takes : ∀ entry ∈ front, bench.Takes disk entry)
    (refused : ¬ disk.Accepts (bench.outputPath source) result.output.bytes) :
    ¬ (bench.handOut front disk).2.Accepts (bench.outputPath source) result.output.bytes := by
  obtain ⟨early, confined⟩ := List.forall_mem_append.mp confined
  obtain ⟨here, -⟩ := List.forall_mem_cons.mp confined
  intro accepts
  have takes : bench.Takes disk (source, .ok result) := by
    refine ((handOut_of_takes early takes).2.2 _ here).mp ?_
    rintro _ ⟨⟩
    exact accepts
  exact refused (takes result rfl)

/-- **A stream that cannot be written** hides what comes behind it. -/
theorem handOut_append_of_refused
    (confined : Confined (front ++ (source, .ok result) :: back))
    (takes : ∀ entry ∈ front, bench.Takes disk entry)
    (refused : ¬ disk.Accepts (bench.outputPath source) result.output.bytes) :
    (∃ cause, (bench.handOut (front ++ (source, .ok result) :: back) disk).1 =
        .error (.writing (bench.outputPath source) cause)) ∧
      (bench.handOut (front ++ (source, .ok result) :: back) disk).2 =
        ((bench.handOut front disk).2.persist (bench.outputPath source) result.output.bytes
          true).2 := by
  have still := refused_of_takes confined takes refused
  rw [(handOut_of_takes (List.forall_mem_append.mp confined).1 takes).2.1, handOut_ok]
  match wrote : (bench.handOut front disk).2.persist (bench.outputPath source) result.output.bytes
      true with
  | (.ok (), later) => exact absurd (Disk.accepts_iff.mpr ⟨later, wrote⟩) still
  | (.error error, later) => exact ⟨⟨error, rfl⟩, rfl⟩

/-- No file but those before it is made or changed. -/
theorem file_of_refused {place : Location} {data : Bytes} {executable : Bool}
    (confined : Confined (front ++ (source, .ok result) :: back))
    (takes : ∀ entry ∈ front, bench.Takes disk entry)
    (refused : ¬ disk.Accepts (bench.outputPath source) result.output.bytes)
    (file : (bench.handOut (front ++ (source, .ok result) :: back) disk).2.node? place =
      some (.file data executable)) :
    disk.node? place = some (.file data executable) ∨
      ∃ other later, (other, .ok later) ∈ front ∧
        place.getLast? = some (FileName.output other) := by
  have still := refused_of_takes confined takes refused
  rw [(handOut_append_of_refused confined takes refused).2] at file
  obtain ⟨early, confined⟩ := List.forall_mem_append.mp confined
  obtain ⟨here, -⟩ := List.forall_mem_cons.mp confined
  rcases Disk.file_of_persist (FileName.isStep_output here) file with before | ⟨accepts, -⟩
  · exact file_of_handOut early before
  · exact absurd accepts still

end Files

/-! ### The command -/

section Command

attribute [local irreducible] Disk.persist

/-- What a batch does with the results of its orders. -/
def finish (bench : Bench) (json : Bool) (results : Results) : Work Unit := do
  let (reports, failure) ← bench.deliver json results
  if json then Work.printJson (.array (reports.map Report.toJson))
  match failure with
  | some error => throw (.run error)
  | none => pure ()

theorem batch_eq (bench : Bench) (command : BatchCommand) : bench.batch command = (do
    let orders ← Work.ofRun (command.sources.mapM fun source =>
      Order.create source command.chunks bench.settings.pipeline.policy)
    let results ← Work.onWorld (bench.studio.batch orders)
    bench.finish command.json results) :=
  rfl

/-- The delivery hands out the streams, and tells the first failure if all could be written. -/
theorem run_deliver (json : Bool) (results : Results) (desk : Desk) : ∃ output reports,
    (bench.deliver json results).run.run desk =
      ((bench.handOut results desk.disk).1.map fun _ => (reports, firstFailure results),
        desk.left output (bench.handOut results desk.disk).2) := by
  induction results generalizing desk with
  | nil => exact ⟨desk.output, [], rfl⟩
  | cons entry rest ih =>
    obtain ⟨source, outcome⟩ := entry
    cases outcome with
    | error error =>
      obtain ⟨first, printed⟩ := (Work.onlyPrints_print
        ("Source:      " ++ source ++ " FAILED: " ++ error.message)).run_when (!json)
          (fun _ => bench.deliver json rest >>= fun found => pure (found.1, some error)) desk
      obtain ⟨output, reports, ran⟩ := ih (desk.left first desk.disk)
      refine ⟨output, reports, printed.trans ?_⟩
      rw [Work.run_bind_pure, ran, handOut_error]
      show ((Except.map _ (bench.handOut rest desk.disk).1).map _, _) = _
      cases (bench.handOut rest desk.disk).1 <;> rfl
    | ok result =>
      have step : bench.deliver json ((source, .ok result) :: rest) =
          Work.writeFile (bench.outputPath source) result.output.bytes >>= fun _ =>
            if !json then
              Work.printAll ((bench.report result).lines (bench.outputPath source)) >>= fun _ =>
                bench.deliver json rest >>= fun found =>
                  pure (bench.report result :: found.1, found.2)
            else bench.deliver json rest >>= fun found =>
              pure (bench.report result :: found.1, found.2) := rfl
      rw [step, Work.run_bind, Work.run_writeFile, handOut_ok]
      match wrote : desk.disk.persist (bench.outputPath source) result.output.bytes true with
      | (.error error, later) => exact ⟨desk.output, [], rfl⟩
      | (.ok (), later) =>
        obtain ⟨first, printed⟩ := (Work.onlyPrints_printAll
          ((bench.report result).lines (bench.outputPath source))).run_when (!json)
            (fun _ => bench.deliver json rest >>= fun found =>
              pure (bench.report result :: found.1, found.2)) (desk.left desk.output later)
        obtain ⟨output, reports, ran⟩ :=
          ih ((desk.left desk.output later).left first (desk.left desk.output later).disk)
        refine ⟨output, bench.report result :: reports, printed.trans ?_⟩
        rw [Work.run_bind_pure, ran]
        show ((Except.map _ (bench.handOut rest later).1).map _, _) = _
        cases (bench.handOut rest later).1 <;> rfl

/-- What a batch does with its results, told from the files and the first failure. -/
theorem run_finish (json : Bool) (results : Results) (desk : Desk) : ∃ output,
    (bench.finish json results).run.run desk =
      ((bench.handOut results desk.disk).1.bind fun _ =>
          (firstFailure results).elim (.ok ()) fun error => .error (.run error),
        desk.left output (bench.handOut results desk.disk).2) := by
  obtain ⟨output, reports, ran⟩ := run_deliver json results desk
  rw [finish, Work.run_bind, ran]
  match (bench.handOut results desk.disk).1 with
  | .error error => exact ⟨output, rfl⟩
  | .ok () =>
    obtain ⟨last, printed⟩ := (Work.onlyPrints_print
      (Json.array (reports.map Report.toJson)).pretty).run_when json
        (fun _ => match firstFailure results with
          | some error => throw (CommandError.run error)
          | none => pure ()) (desk.left output (bench.handOut results desk.disk).2)
    refine ⟨last, printed.trans ?_⟩
    cases firstFailure results <;> rfl

/-! ### What becomes of a batch -/

/-- The exit code of a command that ends so. -/
def codeOf (outcome : Except CommandError Unit) (desk : Desk) : Nat :=
  (transcript outcome desk.output).exitCode

theorem confined_of_sources {command : BatchCommand} {orders : List Order} {policy : Policy}
    (accepted : (command.sources.mapM fun source =>
      Order.create source command.chunks policy) = .ok orders)
    (sources : results.map Prod.fst = command.sources) : Confined results := by
  intro entry member
  have named : entry.1 ∈ command.sources := sources ▸ List.mem_map_of_mem member
  exact Order.slash_notMem ((Order.mapM_create_eq_ok accepted).2 entry.1 named)

theorem delivered_of_takes (confined : Confined results)
    (takes : ∀ entry ∈ results, bench.Takes disk entry) :
    bench.Delivered results (bench.handOut results disk).2 := by
  intro front source result back shape last
  have here : '/' ∉ source.toList := confined (source, .ok result) (by simp [shape])
  exact (placed_of_takes confined takes shape last).read (FileName.isStep_output here)

/-- What has been delivered stays when the next stream cannot be written. -/
theorem delivered_of_refused (confined : Confined (front ++ (source, .ok result) :: back))
    (takes : ∀ entry ∈ front, bench.Takes disk entry)
    (refused : ¬ disk.Accepts (bench.outputPath source) result.output.bytes) :
    bench.Delivered front (bench.handOut (front ++ (source, .ok result) :: back) disk).2 := by
  rw [(handOut_append_of_refused confined takes refused).2]
  obtain ⟨early, confined⟩ := List.forall_mem_append.mp confined
  obtain ⟨here, -⟩ := List.forall_mem_cons.mp confined
  intro first other later behind shape last
  have member : (other, .ok later) ∈ front := by simp [shape]
  have plain : '/' ∉ other.toList := early _ member
  have differs : FileName.output source ≠ FileName.output other := by
    intro same
    rw [FileName.output_inj.mp same] at refused
    exact refused ((takes _ member later rfl).congr (FileName.isStep_output plain) _)
  have placed := placed_of_takes early takes shape last
  exact (placed.persist (FileName.isStep_output here) differs).read (FileName.isStep_output plain)

/-- **What a batch delivers.** When all sources of a batch are accepted, the orders are carried out
and their results delivered, each under its source. Whatever the results are:

* If every stream can be written, each source that succeeded has its file with exactly the stream,
  and the exit code is that of the first run that failed.
* Otherwise the sources before the first stream that cannot be written have their files. No other
  file is made or changed, whatever the later sources have come to, and the exit code is 1, whatever
  runs have failed. -/
theorem batch_delivers_up_to_refused (bench : Bench) (command : BatchCommand) (orders : List Order)
    (accepted : (command.sources.mapM fun source =>
      Order.create source command.chunks bench.settings.pipeline.policy) = .ok orders) :
    (∀ desk : Desk,
      (bench.studio.batch orders desk.world).1.map Prod.fst = command.sources ∧
      (bench.batch command).run.run desk =
        (bench.finish command.json (bench.studio.batch orders desk.world).1).run.run
          { desk with world := (bench.studio.batch orders desk.world).2 }) ∧
    ∀ (results : Results) (desk : Desk), results.map Prod.fst = command.sources →
      let ended := (bench.finish command.json results).run.run desk
      ((∀ entry ∈ results, bench.Takes desk.disk entry) →
        bench.Delivered results ended.2.disk ∧
        codeOf ended.1 ended.2 = (firstFailure results).elim 0 RunError.exitCode) ∧
      ∀ front source result back, results = front ++ (source, .ok result) :: back →
        (∀ entry ∈ front, bench.Takes desk.disk entry) →
        ¬ desk.disk.Accepts (bench.outputPath source) result.output.bytes →
        bench.Delivered front ended.2.disk ∧
        (∀ place data executable, ended.2.disk.node? place = some (.file data executable) →
          desk.disk.node? place = some (.file data executable) ∨
            ∃ other later, (other, .ok later) ∈ front ∧
              place.getLast? = some (FileName.output other)) ∧
        codeOf ended.1 ended.2 = 1 := by
  refine ⟨fun desk => ⟨?_, ?_⟩, fun results desk sources => ?_⟩
  · rw [Studio.batch, Batch.map_fst_gather, (Order.mapM_create_eq_ok accepted).1, List.map_map]
    exact List.map_id _
  · rw [batch_eq, Work.run_bind, Work.run_ofRun, accepted]
    rfl
  · have confined := confined_of_sources accepted sources
    obtain ⟨output, ran⟩ := @run_finish bench command.json results desk
    rw [ran]
    refine ⟨fun takes => ⟨delivered_of_takes confined takes, ?_⟩, ?_⟩
    · rw [(handOut_of_takes confined takes).1]
      cases firstFailure results <;> rfl
    · rintro front source result back rfl takes refused
      obtain ⟨⟨cause, stopped⟩, -⟩ := handOut_append_of_refused confined takes refused
      refine ⟨delivered_of_refused confined takes refused,
        fun place data executable file => file_of_refused confined takes refused file, ?_⟩
      rw [stopped]
      rfl

end Command

/-! ### A batch of three sources -/

/-- The program with its settings as they are, and the codec in memory. -/
def plain : Bench :=
  let launcher : Launcher := ⟨fun _ _ disk => (.error .notFound, disk)⟩
  { surroundings := {
      environment := []
      launcher
      processors := 1
      startedAt := ⟨0, 0, 0⟩
      stageTime := fun _ => .zero
      runTime := .zero }
    settings := {}
    studio := {
      engine := .simulated (.ofFrameSize Simulated.defaultFrameSize)
      ledgers := .folder ({} : Settings).pipeline.workspace
      chunks := ({} : Settings).chunkFolder
      launcher } }

/-- The workspace with nothing in it but a node where the stream of the second source goes. -/
def workspaceWith (node : Node) : Desk :=
  ⟨[], World.fresh 1 ⟨⟨[(["workspace", "b_output.ivf"], node), (["workspace"], .folder)], []⟩, []⟩⟩

/-- A command for three sources. -/
def threeSources : BatchCommand :=
  ⟨["a", "b", "c"], 1, none, none, false⟩

/-- The chunks of the first source are missing, and the others have a stream. -/
def firstFails : Results :=
  let stream (source : String) : Run.Result := ⟨source, 1, [], ⟨0, .merged⟩, ⟨[1]⟩⟩
  [("a", .error (.split (.chunkCount "a" 1 0))), ("b", .ok (stream "b")), ("c", .ok (stream "c"))]

/-- How the command ends. -/
def endWith (node : Node) : Except CommandError Unit × Desk :=
  (plain.finish threeSources.json firstFails).run.run (workspaceWith node)

/-- A file where a stream goes is replaced; a folder there is in the way. -/
theorem batch_delivers_up_to_refused_threeSources :
    (threeSources.sources.mapM fun source => Order.create source threeSources.chunks
      plain.settings.pipeline.policy) =
        .ok [⟨"a", 1, .resume⟩, ⟨"b", 1, .resume⟩, ⟨"c", 1, .resume⟩] ∧
      (endWith (.file [2] false)).2.disk.read (plain.outputPath "b") = .ok [1] ∧
      codeOf (endWith (.file [2] false)).1 (endWith (.file [2] false)).2 = 2 ∧
      codeOf (endWith .folder).1 (endWith .folder).2 = 1 := by
  have accepted : (threeSources.sources.mapM fun source => Order.create source
      threeSources.chunks plain.settings.pipeline.policy) =
        .ok [⟨"a", 1, .resume⟩, ⟨"b", 1, .resume⟩, ⟨"c", 1, .resume⟩] := by decide
  have law (node : Node) := (batch_delivers_up_to_refused plain threeSources _ accepted).2
    firstFails (workspaceWith node) rfl
  have takes : ∀ entry ∈ firstFails, plain.Takes (workspaceWith (.file [2] false)).disk entry := by
    intro entry member result good
    simp only [firstFails, List.mem_cons, List.not_mem_nil, or_false] at member
    rcases member with rfl | rfl | rfl <;> cases good <;> decide +kernel
  obtain ⟨delivered, code⟩ := (law (.file [2] false)).1 takes
  have blocked := (law .folder).2 [_] "b" _ [_] rfl (fun entry member result good => by
    rw [List.mem_singleton.mp member] at good
    cases good) (by decide +kernel)
  exact ⟨accepted, delivered [_] "b" _ [_] rfl (by simp), code, blocked.2.2⟩

/-- **A folder in the way of one stream keeps another from being delivered**, which could be
written, and hides the failure of the first source, whose exit code is another. -/
theorem batch_delivers_not :
    (threeSources.sources.mapM fun source => Order.create source threeSources.chunks
        plain.settings.pipeline.policy).isOk = true ∧
      firstFails.map Prod.fst = threeSources.sources ∧
      (workspaceWith .folder).disk.Accepts (plain.outputPath "c") [1] ∧
      (endWith .folder).2.disk.read (plain.outputPath "c") = .error .notFound ∧
      (firstFailure firstFails).map RunError.exitCode = some 2 ∧
      codeOf (endWith .folder).1 (endWith .folder).2 = 1 := by
  decide +kernel

end Program.Bench

end Transcode
