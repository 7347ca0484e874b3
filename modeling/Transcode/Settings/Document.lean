/-
**Settings in documents.** `Settings.ofToml?` takes what a document gives and the defaults for the
rest; `Settings.document` writes all settings down.
-/
import Transcode.Settings.Basic
import Transcode.Toml.Reader
import Transcode.Toml.Record
import Transcode.Toml.Writer

namespace Transcode

open Toml (fieldOr)

/-! ### Reading -/

/-- Reads the settings of runs. -/
def PipelineSettings.ofToml? (value : Toml) : Option PipelineSettings := do
  let defaults : PipelineSettings := {}
  let [workspace, chunkExtension, concurrency, policy] ←
    value.record? ["workspace", "chunk_extension", "concurrency", "write_policy"] | none
  let workspace ← fieldOr defaults.workspace Toml.text? workspace
  let chunkExtension ← fieldOr defaults.chunkExtension Toml.text? chunkExtension
  let concurrency ←
    fieldOr defaults.concurrency (fun value => value.count?.map some) concurrency
  let policy ←
    fieldOr defaults.policy (fun value => value.word?.bind Policy.vocabulary.exact?) policy
  some { workspace, chunkExtension, concurrency, policy }

/-- Reads command templates. -/
def Commands.ofToml? (value : Toml) : Option Commands := do
  let operations := Codec.Operation.all
  let fields ← value.record? (operations.map Codec.Operation.name)
  (operations.zip fields).foldlM (fun commands (operation, field) =>
    (fieldOr (commands.template operation) Toml.texts? field).map (commands.set operation))
    Commands.standard

/-- Reads the settings of the codec. -/
def CodecSettings.ofToml? (value : Toml) : Option CodecSettings := do
  let defaults : CodecSettings := {}
  let [backend, frameSize, scratch, commands] ←
    value.record? ["backend", "frame_size", "scratch_dir", "commands"] | none
  let backend ←
    fieldOr defaults.backend (fun value => value.word?.bind Backend.vocabulary.exact?) backend
  let frameSize ← fieldOr defaults.frameSize Toml.count? frameSize
  let scratch ← fieldOr defaults.scratch (fun value => value.text?.map some) scratch
  let commands ← fieldOr defaults.commands Commands.ofToml? commands
  some { backend, frameSize, scratch, commands }

/-- Reads the settings of segmenting. -/
def SplitSettings.ofToml? (value : Toml) : Option SplitSettings := do
  let defaults : SplitSettings := {}
  let [segmenter, segmentTime] ← value.record? ["ffmpeg", "segment_time"] | none
  let segmenter ← fieldOr defaults.segmenter Toml.text? segmenter
  let segmentTime ← fieldOr defaults.segmentTime Toml.number? segmentTime
  some { segmenter, segmentTime }

/-- Reads the settings of logging. -/
def LoggingSettings.ofToml? (value : Toml) : Option LoggingSettings := do
  let defaults : LoggingSettings := {}
  let [level, format] ← value.record? ["level", "format"] | none
  let level ← fieldOr defaults.level Toml.text? level
  let format ←
    fieldOr defaults.format (fun value => value.word?.bind LogFormat.vocabulary.exact?) format
  some { level, format }

namespace Settings

/-- Reads all settings. -/
def ofToml? (value : Toml) : Option Settings := do
  let [pipeline, codec, split, logging] ←
    value.record? ["pipeline", "codec", "split", "logging"] | none
  let pipeline ← fieldOr {} PipelineSettings.ofToml? pipeline
  let codec ← fieldOr {} CodecSettings.ofToml? codec
  let split ← fieldOr {} SplitSettings.ofToml? split
  let logging ← fieldOr {} LoggingSettings.ofToml? logging
  some { pipeline, codec, split, logging }

/-- Reads a document. The origin is named when that fails. -/
def ofDocument (text origin : String) : Except ConfigError Settings :=
  match (Toml.read text).bind fun root => ofToml? root.toToml with
  | some settings => .ok settings
  | none => .error (.parse origin)

/-! ### Writing -/

/-- A number, unless it is larger than a document can hold. -/
def countText (count : Nat) : Except ConfigError String :=
  if count ≤ Number.maxWord / 2 then .ok (toString count)
  else .error (.invalid "config" "out-of-range value for u64 type")

/-- All settings as a document. What is not set has no line. -/
def document (settings : Settings) : Except ConfigError String := do
  let concurrency ← settings.pipeline.concurrency.mapM countText
  let frameSize ← countText settings.codec.frameSize
  .ok (Toml.documentText [
    Toml.sectionText "pipeline" (
      [("workspace", Toml.quote settings.pipeline.workspace),
        ("chunk_extension", Toml.quote settings.pipeline.chunkExtension)] ++
      concurrency.toList.map (fun count => ("concurrency", count)) ++
      [("write_policy", Toml.quote settings.pipeline.policy.name)]),
    Toml.sectionText "codec" (
      [("backend", Toml.quote settings.codec.backend.name), ("frame_size", frameSize)] ++
      settings.codec.scratch.toList.map fun path => ("scratch_dir", Toml.quote path)),
    Toml.sectionText "codec.commands" (Codec.Operation.all.map fun operation =>
      (operation.name, Toml.textsText (settings.codec.commands.template operation))),
    Toml.sectionText "split" [
      ("ffmpeg", Toml.quote settings.split.segmenter),
      ("segment_time", Toml.floatText settings.split.segmentTime)],
    Toml.sectionText "logging" [
      ("level", Toml.quote settings.logging.level),
      ("format", Toml.quote settings.logging.format.name)]])

end Settings

end Transcode
