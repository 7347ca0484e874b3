/-
**Reports and status for people to read**, line by line. What stands below one another is filled with
blanks up to the width of its column.
-/
import Transcode.Report.Basic
import Transcode.Studio.Status

namespace Transcode

namespace Column

/-- The text with blanks after it. -/
def left (width : Nat) (text : String) : String :=
  String.ofList (text.toList.rightpad width ' ')

/-- The text with blanks before it. -/
def right (width : Nat) (text : String) : String :=
  String.ofList (text.toList.leftpad width ' ')

end Column

/-- A span in seconds with three decimal places, a half rounded up. -/
def Span.secondsText (span : Span) : String :=
  let millis := (span.toNanos + 500000) / 1000000
  toString (millis / 1000) ++ "." ++ Number.padded 3 (millis % 1000)

/-- The line of a stage. -/
def StageReport.line (report : StageReport) : String :=
  "  " ++ Column.left 16 report.summary.stage.name ++ " completed " ++
    Column.right 3 (toString report.summary.completed) ++ "  skipped " ++
    Column.right 3 (toString report.summary.skipped) ++ "  " ++
    Column.right 8 report.elapsed.secondsText ++ "s"

/-- The lines of a report, whose stream was written to the given path. -/
def Report.lines (report : Report) (output : String) : List String :=
  [s!"Source:      {report.source}", s!"Chunks:      {report.count}"] ++
    report.stages.map StageReport.line ++
    ["Time:        " ++ report.elapsed.secondsText ++ "s total (" ++
        report.parallelTime.secondsText ++ "s parallel, " ++ report.serialTime.secondsText ++
        "s serial)",
      "Output:      " ++ output ++ " (" ++ toString report.outputBytes ++ " bytes)"]

/-- The line of a stage. -/
def StageStatus.line (status : StageStatus) (count : Nat) : String :=
  let done := "  " ++ Column.left 16 status.stage.name ++ " " ++ toString status.done ++ "/" ++
    toString count ++ " done"
  if status.pending.isEmpty then done
  else done ++ ", pending: " ++ String.intercalate " " (status.pending.map ChunkIndex.label)

/-- What comes next, or that nothing does. -/
def Status.outlook (status : Status) : String :=
  match status.finalOutput, status.nextStage with
  | some key, _ => s!"Complete: final output {key.label}"
  | none, some stage => s!"Next stage: {stage.name}"
  | none, none => "Nothing to do"

/-- The lines of a status view. -/
def Status.lines (status : Status) : List String :=
  ["Source: " ++ status.source ++ " (" ++ toString status.count ++ " chunks)"] ++
    (status.stages.map fun stage => stage.line status.count) ++ [status.outlook]

end Transcode
