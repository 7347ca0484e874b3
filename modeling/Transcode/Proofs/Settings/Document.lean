/-
**Settings that a document gives.** A setting stands in a part of the document, under a key.
Settings read from a document are what stands there, and the default where nothing does.

* `Toml.field?` is a field of a record, and `Settings.Item.stored?` what a document gives for a
  setting.
* `Settings.entry_ofToml?` — a document that can be read gives each setting or leaves the default.
* `Settings.loaded?` is the document that settings are loaded from, if any, and
  `Settings.entry_loadOrDefault` what it makes of them.
-/
import Transcode.CommandLine.Startup
import Transcode.Proofs.Settings.Layer

namespace Transcode

namespace Toml

variable {α : Type} {fallback value : α} {read : Toml → Option α} {field : Option Toml}

/-- A field of a record with the named fields, if it is given. -/
def field? (names : List String) (name : String) (value : Toml) : Option Toml :=
  (value.record? names).bind fun fields => ((names.zip fields).lookup name).join

theorem field?_of_record {names : List String} {value : Toml} {fields : List (Option Toml)}
    (record : value.record? names = some fields) (name : String) :
    value.field? names name = ((names.zip fields).lookup name).join := by
  rw [field?, record, Option.bind_some]

/-- A field that can be read: what is given for it, or else the fallback. -/
theorem some_of_fieldOr (got : fieldOr fallback read field = some value) (make : α → Change) :
    some (make value) =
      (field.bind fun given => (read given).map make).or (some (make fallback)) := by
  cases field with
  | none =>
    cases got
    rfl
  | some given =>
    have found : read given = some value := got
    rw [Option.bind_some, found]
    rfl

/-- A field that is open unless it is given. -/
theorem map_of_fieldOr {value : Option α}
    (got : fieldOr none (fun given => (read given).map some) field = some value)
    (make : α → Change) :
    value.map make = (field.bind fun given => (read given).map make).or none := by
  cases field with
  | none =>
    cases got
    rfl
  | some given =>
    obtain ⟨found, readable, rfl⟩ := Option.map_eq_some_iff.mp got
    rw [Option.bind_some, readable]
    rfl

end Toml

/-! ### Places -/

/-- The parts of a document. -/
inductive Part where
  | pipeline
  | codec
  | split
  | logging
  deriving DecidableEq, Repr

namespace Part

/-- The name of the part. -/
def name : Part → String
  | pipeline => "pipeline"
  | codec => "codec"
  | split => "split"
  | logging => "logging"

/-- The names of all parts, in order. -/
def names : List String :=
  [pipeline, codec, split, logging].map name

/-- The keys in a part, in order. -/
def keys : Part → List String
  | pipeline => ["workspace", "chunk_extension", "concurrency", "write_policy"]
  | codec => ["backend", "frame_size", "scratch_dir", "commands"]
  | split => ["ffmpeg", "segment_time"]
  | logging => ["level", "format"]

end Part

namespace Settings.Item

/-- The part in which the setting stands. -/
def part : Item → Part
  | workspace | concurrency | policy => .pipeline
  | backend | frameSize => .codec
  | segmenter | segmentTime => .split
  | logLevel | logFormat => .logging

/-- The key of the setting. -/
def key : Item → String
  | workspace => "workspace"
  | concurrency => "concurrency"
  | policy => "write_policy"
  | backend => "backend"
  | frameSize => "frame_size"
  | segmenter => "ffmpeg"
  | segmentTime => "segment_time"
  | logLevel => "level"
  | logFormat => "format"

/-- Reads the change that a value in a document stands for. -/
def change? (value : Toml) : Item → Option Change
  | workspace => value.text?.map .workspace
  | concurrency => value.count?.map .concurrency
  | policy => (value.word?.bind Policy.vocabulary.exact?).map .policy
  | backend => (value.word?.bind Backend.vocabulary.exact?).map .backend
  | frameSize => value.count?.map .frameSize
  | segmenter => value.text?.map .segmenter
  | segmentTime => value.number?.map .segmentTime
  | logLevel => value.text?.map .logLevel
  | logFormat => (value.word?.bind LogFormat.vocabulary.exact?).map .logFormat

/-- What a part of a document gives for a setting. -/
def within? (part : Option Toml) (setting : Item) : Option Change :=
  (part.bind (Toml.field? setting.part.keys setting.key)).bind fun value => setting.change? value

theorem within?_of_record {setting : Item} {part : Part} (here : setting.part = part)
    {value : Toml} {fields : List (Option Toml)} (record : value.record? part.keys = some fields) :
    setting.within? (some value) =
      ((part.keys.zip fields).lookup setting.key).join.bind fun value => setting.change? value := by
  rw [within?, Option.bind_some, here, Toml.field?_of_record record]

/-- What a document gives for a setting. -/
def stored? (root : Toml) (setting : Item) : Option Change :=
  setting.within? (root.field? Part.names setting.part.name)

end Settings.Item

namespace Settings

variable {settings : Settings} {setting : Item} {part : Option Toml}

/-! ### The parts of a document -/

/-- A setting in a part that may be missing: if it is, the part is the default. -/
theorem entry_of_fieldOr {α : Type} {fallback value : α} {read : Toml → Option α}
    (got : Toml.fieldOr fallback read part = some value)
    (absent : value = fallback → settings.entry setting = entry {} setting)
    (present : ∀ given, read given = some value →
      settings.entry setting = (setting.within? (some given)).or (entry {} setting)) :
    settings.entry setting = (setting.within? part).or (entry {} setting) := by
  cases part with
  | none => exact absent (Option.some.inj got).symm
  | some given => exact present given got

/-- The settings of runs. Each part is read in the same way: one key after the other, and those that
only a file can give are passed over here. -/
theorem entry_pipeline
    (got : Toml.fieldOr {} PipelineSettings.ofToml? part = some settings.pipeline)
    (here : setting.part = .pipeline) :
    settings.entry setting = (setting.within? part).or (entry {} setting) := by
  refine entry_of_fieldOr got (fun defaults => ?_) fun value got => ?_
  · cases setting <;> cases here <;> rw [entry, defaults] <;> rfl
  · unfold PipelineSettings.ofToml? at got
    obtain ⟨fields, record, got⟩ := Option.bind_eq_some_iff.mp got
    split at got
    · obtain ⟨workspace, first, got⟩ := Option.bind_eq_some_iff.mp got
      obtain ⟨_, -, got⟩ := Option.bind_eq_some_iff.mp got
      obtain ⟨concurrency, third, got⟩ := Option.bind_eq_some_iff.mp got
      obtain ⟨policy, fourth, got⟩ := Option.bind_eq_some_iff.mp got
      have read := (Option.some.inj got).symm
      rw [Item.within?_of_record here record]
      cases setting <;> cases here <;> rw [entry, read]
      · exact Toml.some_of_fieldOr first .workspace
      · exact Toml.map_of_fieldOr third .concurrency
      · exact Toml.some_of_fieldOr fourth .policy
    · cases got

theorem entry_codec (got : Toml.fieldOr {} CodecSettings.ofToml? part = some settings.codec)
    (here : setting.part = .codec) :
    settings.entry setting = (setting.within? part).or (entry {} setting) := by
  refine entry_of_fieldOr got (fun defaults => ?_) fun value got => ?_
  · cases setting <;> cases here <;> rw [entry, defaults] <;> rfl
  · unfold CodecSettings.ofToml? at got
    obtain ⟨fields, record, got⟩ := Option.bind_eq_some_iff.mp got
    split at got
    · obtain ⟨backend, first, got⟩ := Option.bind_eq_some_iff.mp got
      obtain ⟨frameSize, second, got⟩ := Option.bind_eq_some_iff.mp got
      obtain ⟨_, -, got⟩ := Option.bind_eq_some_iff.mp got
      obtain ⟨_, -, got⟩ := Option.bind_eq_some_iff.mp got
      have read := (Option.some.inj got).symm
      rw [Item.within?_of_record here record]
      cases setting <;> cases here <;> rw [entry, read]
      · exact Toml.some_of_fieldOr first .backend
      · exact Toml.some_of_fieldOr second .frameSize
    · cases got

theorem entry_split (got : Toml.fieldOr {} SplitSettings.ofToml? part = some settings.split)
    (here : setting.part = .split) :
    settings.entry setting = (setting.within? part).or (entry {} setting) := by
  refine entry_of_fieldOr got (fun defaults => ?_) fun value got => ?_
  · cases setting <;> cases here <;> rw [entry, defaults] <;> rfl
  · unfold SplitSettings.ofToml? at got
    obtain ⟨fields, record, got⟩ := Option.bind_eq_some_iff.mp got
    split at got
    · obtain ⟨segmenter, first, got⟩ := Option.bind_eq_some_iff.mp got
      obtain ⟨segmentTime, second, got⟩ := Option.bind_eq_some_iff.mp got
      have read := (Option.some.inj got).symm
      rw [Item.within?_of_record here record]
      cases setting <;> cases here <;> rw [entry, read]
      · exact Toml.some_of_fieldOr first .segmenter
      · exact Toml.some_of_fieldOr second .segmentTime
    · cases got

theorem entry_logging (got : Toml.fieldOr {} LoggingSettings.ofToml? part = some settings.logging)
    (here : setting.part = .logging) :
    settings.entry setting = (setting.within? part).or (entry {} setting) := by
  refine entry_of_fieldOr got (fun defaults => ?_) fun value got => ?_
  · cases setting <;> cases here <;> rw [entry, defaults] <;> rfl
  · unfold LoggingSettings.ofToml? at got
    obtain ⟨fields, record, got⟩ := Option.bind_eq_some_iff.mp got
    split at got
    · obtain ⟨level, first, got⟩ := Option.bind_eq_some_iff.mp got
      obtain ⟨format, second, got⟩ := Option.bind_eq_some_iff.mp got
      have read := (Option.some.inj got).symm
      rw [Item.within?_of_record here record]
      cases setting <;> cases here <;> rw [entry, read]
      · exact Toml.some_of_fieldOr first .logLevel
      · exact Toml.some_of_fieldOr second .logFormat
    · cases got

/-! ### The whole document -/

/-- **A document that can be read** gives a setting, or leaves it at the default. -/
theorem entry_ofToml? {root : Toml} (got : ofToml? root = some settings) (setting : Item) :
    settings.entry setting = (setting.stored? root).or (entry {} setting) := by
  unfold ofToml? at got
  obtain ⟨parts, record, got⟩ := Option.bind_eq_some_iff.mp got
  split at got
  · obtain ⟨pipeline, first, got⟩ := Option.bind_eq_some_iff.mp got
    obtain ⟨codec, second, got⟩ := Option.bind_eq_some_iff.mp got
    obtain ⟨split, third, got⟩ := Option.bind_eq_some_iff.mp got
    obtain ⟨logging, fourth, got⟩ := Option.bind_eq_some_iff.mp got
    have read : { pipeline, codec, split, logging } = settings := Option.some.inj got
    subst read
    change root.record? Part.names = some _ at record
    rw [Item.stored?, Toml.field?_of_record record]
    cases here : setting.part with
    | pipeline => exact entry_pipeline first here
    | codec => exact entry_codec second here
    | split => exact entry_split third here
    | logging => exact entry_logging fourth here
  · cases got

/-- The document that settings are loaded from. Without a file, or with one that is no document,
there is none. -/
def loaded? (path : Option String) (disk : Disk) : Option Toml := do
  let text ← (readText (← path) disk).toOption
  (Toml.read text).map Toml.Table.toToml

/-- **Settings that are loaded** are what the document gives, and otherwise the default. -/
theorem entry_loadOrDefault {path : Option String} {disk : Disk}
    (got : loadOrDefault path disk = .ok settings) (setting : Item) :
    settings.entry setting =
      ((loaded? path disk).bind setting.stored?).or (entry {} setting) := by
  cases path with
  | none =>
    cases got
    rfl
  | some path =>
    change load path disk = .ok settings at got
    unfold load at got
    split at got
    · next text readable =>
      unfold ofDocument at got
      split at got
      · next known =>
        cases got
        obtain ⟨root, parsed, known⟩ := Option.bind_eq_some_iff.mp known
        have document : loaded? (some path) disk = some root.toToml := by
          show (readText path disk).toOption.bind _ = _
          rw [readable]
          show (Toml.read text).map _ = _
          rw [parsed]
          rfl
        rw [document]
        exact entry_ofToml? known setting
      · cases got
    · cases got

end Settings

end Transcode
