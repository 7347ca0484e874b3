/-
**Where settings come from.** Setting by setting, the command line counts before the environment,
the environment before the file, and the file before the defaults.

* `Environment.given` and `Invocation.given` are what the environment and a command line give; their
  layers are just that (`Environment.layer_eq`, `Invocation.layer_eq`).
* `Settings.initialise_eq_ok` — what a program starts with, place over place.
* `Settings.initialise_by_precedence` — the same setting by setting, and what of the environment can
  make no difference.
-/
import Transcode.Proofs.Codec.Stream
import Transcode.Proofs.Settings.Document

namespace Transcode

/-! ### The environment -/

namespace Settings.Item

/-- The variable that gives the setting. -/
def environmentName : Item → String
  | workspace => "CHUNKSTITCH_WORKSPACE"
  | concurrency => "CHUNKSTITCH_CONCURRENCY"
  | policy => "CHUNKSTITCH_WRITE_POLICY"
  | backend => "CHUNKSTITCH_CODEC"
  | frameSize => "CHUNKSTITCH_FRAME_SIZE"
  | segmenter => "CHUNKSTITCH_FFMPEG"
  | segmentTime => "CHUNKSTITCH_SEGMENT_TIME"
  | logLevel => "CHUNKSTITCH_LOG_LEVEL"
  | logFormat => "CHUNKSTITCH_LOG_FORMAT"

/-- Reads the change that the value of the variable stands for. -/
def read (text : String) : Item → Except ConfigError Change
  | workspace => .ok (.workspace text)
  | concurrency => Environment.readCount "pipeline.concurrency" text .concurrency
  | policy => Change.readPolicy text
  | backend => Change.readBackend text
  | frameSize => Environment.readCount "codec.frame_size" text .frameSize
  | segmenter => .ok (.segmenter text)
  | segmentTime => Environment.readSeconds text
  | logLevel => .ok (.logLevel text)
  | logFormat => Change.readLogFormat text

theorem setting_of_read {text : String} {setting : Item} {change : Change}
    (got : setting.read text = .ok change) : change.setting = setting := by
  cases setting with
  | workspace | segmenter | logLevel =>
    cases got
    rfl
  | concurrency | policy | backend | frameSize | segmentTime | logFormat =>
    simp only [read, Environment.readCount, Environment.readSeconds, Change.readPolicy,
      Change.readBackend, Change.readLogFormat, Change.reading_eq_ok] at got
    obtain ⟨_, -, rfl⟩ := got
    rfl

end Settings.Item

namespace Environment

/-- What the environment gives. -/
def given (environment : Environment) : Given where
  value? setting := (environment.lookup setting.environmentName).map fun text => setting.read text
  own found := by
    obtain ⟨text, -, got⟩ := Option.map_eq_some_iff.mp found
    exact Settings.Item.setting_of_read got

theorem layer_eq (environment : Environment) :
    environment.layer = environment.given.layer Settings.Item.all := by
  have readers_eq : readers =
      Settings.Item.all.map fun setting =>
        (setting.environmentName, fun text => setting.read text) := rfl
  unfold layer Given.layer
  rw [readers_eq, List.filterMap_map]
  rfl

end Environment

/-! ### The command line -/

namespace Command

/-- The concurrency that a command asks for. -/
def concurrency? : Command → Option Nat
  | run command => command.concurrency
  | batch command => command.concurrency
  | split _ | status _ | decode _ => none

/-- The word for the policy that a command asks for. -/
def policy? : Command → Option String
  | run command => command.policy
  | batch command => command.policy
  | split _ | status _ | decode _ => none

/-- The duration of chunks that a command asks for. -/
def segmentTime? : Command → Option Float
  | split command => command.segmentTime
  | run _ | batch _ | status _ | decode _ => none

end Command

namespace Invocation

/-- What a command line gives. -/
def given (invocation : Invocation) : Given where
  value?
    | .workspace => invocation.workspace.map fun path => .ok (.workspace path)
    | .concurrency => invocation.command.concurrency?.map fun count => .ok (.concurrency count)
    | .policy => invocation.command.policy?.map Change.readPolicy
    | .backend => invocation.codec.map Change.readBackend
    | .frameSize | .segmenter => none
    | .segmentTime => invocation.command.segmentTime?.map fun seconds => .ok (.segmentTime seconds)
    | .logLevel => invocation.logLevel.map fun level => .ok (.logLevel level)
    | .logFormat => invocation.logFormat.map Change.readLogFormat
  own {setting change} found := by
    cases setting with
    | workspace | concurrency | segmentTime | logLevel =>
      obtain ⟨_, -, got⟩ := Option.map_eq_some_iff.mp found
      cases got
      rfl
    | policy | backend | logFormat =>
      obtain ⟨_, -, got⟩ := Option.map_eq_some_iff.mp found
      obtain ⟨_, -, rfl⟩ := Change.reading_eq_ok.mp got
      rfl
    | frameSize | segmenter => cases found

/-- The order in which a command line is searched. -/
def order : List Settings.Item :=
  [.workspace, .backend, .logLevel, .logFormat, .segmentTime, .concurrency, .policy, .frameSize,
    .segmenter]

theorem perm_order : order.Perm Settings.Item.all := by
  decide

theorem layer_eq (invocation : Invocation) : invocation.layer = invocation.given.layer order := by
  -- no command gives both a duration and what belongs to transcoding
  have changes_eq (command : Command) : commandChanges command =
      (command.segmentTime?.map fun seconds => .ok (.segmentTime seconds)).toList ++
        ((command.concurrency?.map fun count => .ok (.concurrency count)).toList ++
          ((command.policy?.map Change.readPolicy).toList ++ [])) := by
    cases command with
    | run command | batch command => exact congrArg (_ ++ ·) (List.append_nil _).symm
    | split command => exact (List.append_nil _).symm
    | status command | decode command => rfl
  unfold layer Given.layer order
  rw [List.filterMap_eq_flatMap_toList, changes_eq]
  simp only [List.append_assoc]
  rfl

end Invocation

/-! ### Startup -/

namespace Settings

variable {invocation : Invocation} {environment : Environment} {disk : Disk} {settings : Settings}
  {sources : Sources}

/-- **What a program starts with**: what is loaded from a file, or the defaults, under what the
environment gives, under what the command line gives. It is checked at the end. -/
theorem initialise_eq_ok :
    initialise invocation environment disk = .ok (settings, sources) ↔
      ∃ file between, discover invocation.config disk = .ok sources.file ∧
        loadOrDefault sources.file disk = .ok file ∧
        environment.given.Over file between ∧ invocation.given.Over between settings ∧
        sources.fromEnvironment = environment.given.count ∧
        sources.fromCommandLine = invocation.given.count ∧ settings.check = .ok () := by
  unfold initialise
  rw [Environment.layer_eq, Invocation.layer_eq]
  constructor
  · intro started
    obtain ⟨path, found, started⟩ := bind_eq_ok.mp started
    obtain ⟨file, loaded, started⟩ := bind_eq_ok.mp started
    obtain ⟨⟨between, lower⟩, first, started⟩ := bind_eq_ok.mp started
    obtain ⟨⟨above, upper⟩, second, started⟩ := bind_eq_ok.mp started
    obtain ⟨_, sound, started⟩ := bind_eq_ok.mp started
    cases started
    obtain ⟨low, rfl⟩ := (environment.given.applyAll_layer (.refl _)).mp first
    obtain ⟨high, rfl⟩ := (invocation.given.applyAll_layer Invocation.perm_order).mp second
    exact ⟨file, between, found, loaded, low, high, rfl, rfl, sound⟩
  · rintro ⟨file, between, found, loaded, low, high, lower, upper, sound⟩
    refine bind_eq_ok.mpr ⟨_, found, bind_eq_ok.mpr ⟨file, loaded, ?_⟩⟩
    refine bind_eq_ok.mpr
      ⟨_, (environment.given.applyAll_layer (.refl _)).mpr ⟨low, lower⟩, ?_⟩
    refine bind_eq_ok.mpr
      ⟨_, (invocation.given.applyAll_layer Invocation.perm_order).mpr ⟨high, upper⟩, ?_⟩
    exact bind_eq_ok.mpr ⟨(), sound, rfl⟩

/-- **Precedence.** A program starts just if the file it is to use can be found and loaded,
everything that the environment and the command line give can be read, and the settings that come of
it pass the check. Then each setting is what the command line gives for it; if that gives nothing,
what the environment gives; if that gives nothing either, what stands in the document; and otherwise
the default. The settings that neither the environment nor the command line can give are those of
the file, or the defaults without one. The numbers of settings given by the environment and by the
command line are counted.

So two environments in which a program starts, and which agree on what the command line leaves open,
lead to the same settings. -/
theorem initialise_by_precedence (invocation : Invocation) (environment : Environment)
    (disk : Disk) :
    (∀ settings sources, initialise invocation environment disk = .ok (settings, sources) ↔
      ∃ file, discover invocation.config disk = .ok sources.file ∧
        loadOrDefault sources.file disk = .ok file ∧
        environment.given.Readable ∧
        (∀ setting, (settings.entry setting).map Except.ok =
          (invocation.given.value? setting).or ((environment.given.value? setting).or
            ((((loaded? sources.file disk).bind setting.stored?).or
              (entry {} setting)).map Except.ok))) ∧
        settings.rest = file.rest ∧
        sources.fromEnvironment = environment.given.count ∧
        sources.fromCommandLine = invocation.given.count ∧
        settings.check = .ok ()) ∧
    ∀ other : Environment,
      (∀ setting, invocation.given.value? setting = none →
        other.lookup setting.environmentName = environment.lookup setting.environmentName) →
      ∀ settings sources settings' sources',
        initialise invocation environment disk = .ok (settings, sources) →
        initialise invocation other disk = .ok (settings', sources') → settings' = settings := by
  refine ⟨fun settings sources => ?_, ?_⟩
  · rw [initialise_eq_ok]
    constructor
    · rintro ⟨file, between, found, loaded, low, high, counted⟩
      obtain ⟨readable, entry, rest⟩ := Given.over_over.mp ⟨between, low, high⟩
      refine ⟨file, found, loaded, readable, fun setting => ?_, rest, counted⟩
      rw [entry, entry_loadOrDefault loaded]
    · rintro ⟨file, found, loaded, readable, entry, rest, counted⟩
      have chain (setting : Item) : (settings.entry setting).map Except.ok =
          (invocation.given.value? setting).or ((environment.given.value? setting).or
            ((file.entry setting).map Except.ok)) := by
        rw [entry, entry_loadOrDefault loaded]
      obtain ⟨between, low, high⟩ := Given.over_over.mpr ⟨readable, chain, rest⟩
      exact ⟨file, between, found, loaded, low, high, counted⟩
  · -- both start from the same file, and what differs in the environment is covered
    intro other agree settings sources settings' sources' started started'
    obtain ⟨file, between, found, loaded, low, high, -⟩ := initialise_eq_ok.mp started
    obtain ⟨file', between', found', loaded', low', high', -⟩ := initialise_eq_ok.mp started'
    have samePath : sources'.file = sources.file := Except.ok.inj (found'.symm.trans found)
    rw [samePath] at loaded'
    have sameFile : file' = file := Except.ok.inj (loaded'.symm.trans loaded)
    obtain ⟨-, entry, rest⟩ := Given.over_over.mp ⟨between, low, high⟩
    obtain ⟨-, entry', rest'⟩ := Given.over_over.mp ⟨between', low', high'⟩
    rw [sameFile] at entry' rest'
    refine eq_of_map_entry (fun setting => ?_) (rest'.trans rest.symm)
    rw [entry, entry']
    cases given : invocation.given.value? setting with
    | some result => rfl
    | none =>
      have sameVariable : other.given.value? setting = environment.given.value? setting :=
        congrArg (·.map fun text => setting.read text) (agree setting given)
      rw [sameVariable]

/-- A run whose command line gives four of the settings. -/
def givenFour : Invocation where
  logLevel := some "debug"
  logFormat := none
  config := none
  workspace := some "here"
  codec := none
  command := .run ⟨"clip", 4, some 7, some "strict", none, false⟩

/-- An environment that gives four of the settings, and some place. -/
def surroundings (place : String) : Environment :=
  [("CHUNKSTITCH_WORKSPACE", place), ("CHUNKSTITCH_CODEC", " SIM "),
    ("CHUNKSTITCH_CONCURRENCY", "3"), ("CHUNKSTITCH_SEGMENT_TIME", "0.5"), ("PWD", place)]

/-- A file that gives two of the settings. -/
def oneFile : Disk :=
  ⟨[(["chunkstitch.toml"],
    .file (Bytes.ofString "[codec]\nbackend = \"process\"\nframe_size = 8\n") false)], []⟩

/-- The concurrency is that of the command line, the backend that of the environment, and the format
of the log is the default. The place makes no difference, since the command line gives the
workspace. -/
theorem initialise_by_precedence_givenFour :
    ∃ settings sources,
      initialise givenFour (surroundings "there") oneFile = .ok (settings, sources) ∧
      sources = ⟨some "chunkstitch.toml", 4, 4⟩ ∧
      settings.entry .concurrency = some (.concurrency 7) ∧
      settings.entry .backend = some (.backend .simulated) ∧
      settings.entry .logFormat = some (.logFormat .pretty) ∧
      ∃ sources', initialise givenFour (surroundings "elsewhere") oneFile =
        .ok (settings, sources') := by
  have starts (place : String)
      (succeeds : (initialise givenFour (surroundings place) oneFile).isOk = true) :
      ∃ settings sources, initialise givenFour (surroundings place) oneFile =
        .ok (settings, sources) := by
    cases result : initialise givenFour (surroundings place) oneFile with
    | ok started => exact ⟨started.1, started.2, rfl⟩
    | error error =>
      rw [result] at succeeds
      cases succeeds
  obtain ⟨settings, sources, started⟩ := starts "there" (by decide +kernel)
  obtain ⟨settings', sources', started'⟩ := starts "elsewhere" (by decide +kernel)
  obtain ⟨precedence, independence⟩ :=
    initialise_by_precedence givenFour (surroundings "there") oneFile
  obtain ⟨file, found, -, -, entry, -, lower, upper, -⟩ := (precedence settings sources).mp started
  have path : sources.file = some "chunkstitch.toml" :=
    (Except.ok.inj found).symm.trans (by decide +kernel)
  have wins {setting : Item} {change : Change}
      (first : (settings.entry setting).map Except.ok =
        some (Except.ok change : Except ConfigError Change)) :
      settings.entry setting = some change := by
    obtain ⟨_, same, equal⟩ := Option.map_eq_some_iff.mp first
    cases equal
    exact same
  refine ⟨settings, sources, started, ?_, wins (entry .concurrency), wins (entry .backend), wins ?_,
    sources', ?_⟩
  · cases sources
    cases path
    cases lower
    cases upper
    rfl
  · have nothing :
        (loaded? (some "chunkstitch.toml") oneFile).bind Item.logFormat.stored? = none :=
      Option.isNone_iff_eq_none.mp (by decide +kernel)
    rw [entry, path, nothing]
    rfl
  · have agree (setting : Item) (free : givenFour.given.value? setting = none) :
        (surroundings "elsewhere").lookup setting.environmentName =
          (surroundings "there").lookup setting.environmentName := by
      cases setting with
      | workspace => cases free
      | _ => rfl
    rw [← independence _ agree settings sources settings' sources' started started']
    exact started'

end Settings

end Transcode
