/-
**Run reports in JSON.** `Report.toJson` writes all fields in a fixed order; `Report.ofJson?` reads
them back, in any order and among others.
-/
import Transcode.Json.Record
import Transcode.Report.Basic

namespace Transcode

/-! ### Writing -/

/-- A span of time as its two parts. -/
def Span.toJson (span : Span) : Json :=
  .object [("secs", .nat span.seconds), ("nanos", .nat span.nanos)]

/-- A key as its two parts. -/
def Key.toJson (key : Key) : Json :=
  .object [("chunk", .nat key.chunk), ("kind", .string key.kind.identifier)]

/-- A stage of a report. -/
def StageReport.toJson (report : StageReport) : Json :=
  .object [
    ("stage", .string report.summary.stage.identifier),
    ("completed", .nat report.summary.completed),
    ("skipped", .nat report.summary.skipped),
    ("elapsed", report.elapsed.toJson)]

/-- A report. -/
def Report.toJson (report : Report) : Json :=
  .object [
    ("source", .string report.source),
    ("chunk_count", .nat report.count),
    ("started_at", .string report.startedAt.text),
    ("stages", .array (report.stages.map StageReport.toJson)),
    ("final_key", report.finalKey.toJson),
    ("output_bytes", .nat report.outputBytes),
    ("elapsed", report.elapsed.toJson)]

/-! ### Reading -/

/-- Reads a span. Nanoseconds beyond a second are carried over. -/
def Span.ofJson? (value : Json) : Option Span := do
  let [seconds, nanos] ← value.closedRecord? ["secs", "nanos"] | none
  let seconds ← seconds.word?
  let nanos ← nanos.boundedNat? (UInt32.size - 1)
  let span : Span := ⟨seconds + nanos / nanosPerSecond, nanos % nanosPerSecond⟩
  if span.seconds ≤ Number.maxWord then some span else none

/-- Reads a key. -/
def Key.ofJson? (value : Json) : Option Key := do
  let [chunk, kind] ← value.record? ["chunk", "kind"] | none
  let chunk ← chunk.word?
  let kind ← kind.identifier?.bind Kind.ofIdentifier?
  some ⟨chunk, kind⟩

/-- Reads a stage of a report. -/
def StageReport.ofJson? (value : Json) : Option StageReport := do
  let [stage, completed, skipped, elapsed] ←
    value.record? ["stage", "completed", "skipped", "elapsed"] | none
  let stage ← stage.identifier?.bind Stage.ofIdentifier?
  let completed ← completed.word?
  let skipped ← skipped.word?
  let elapsed ← Span.ofJson? elapsed
  some ⟨⟨stage, completed, skipped⟩, elapsed⟩

/-- Reads a report. -/
def Report.ofJson? (value : Json) : Option Report := do
  let [source, count, startedAt, stages, finalKey, outputBytes, elapsed] ←
    value.record? ["source", "chunk_count", "started_at", "stages", "final_key", "output_bytes",
      "elapsed"] | none
  let source ← source.string?
  let count ← count.word?
  let startedAt ← startedAt.string?.bind Instant.read
  let stages ← stages.array?.bind fun items => items.mapM StageReport.ofJson?
  let finalKey ← Key.ofJson? finalKey
  let outputBytes ← outputBytes.word?
  let elapsed ← Span.ofJson? elapsed
  some { source, count, startedAt, stages, finalKey, outputBytes, elapsed }

end Transcode
