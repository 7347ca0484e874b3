/-
**Layers of settings.** Nine settings can be given from outside. A change sets one of them and
leaves everything else as it is, so that after changes in a row each setting is what the last change
of it has made it.

* `Settings.Item` names a setting. `Settings.entry` is the value of a setting, written as the change
  that sets it; `Settings.rest` is what cannot be given from outside. Together they are all the
  settings (`Settings.eq_of_entry`).
* `Settings.entry_foldl` — the last change of a setting counts.
* `Given` is what one place gives for each setting, and `Given.applyAll_layer` what comes of
  applying it, whatever the order in which the place is searched. `Given.over_over` puts one place
  over another.
-/
import Transcode.Settings.Change

namespace Transcode

/-- The settings that can be given from outside. -/
inductive Settings.Item where
  | workspace
  | concurrency
  | policy
  | backend
  | frameSize
  | segmenter
  | segmentTime
  | logLevel
  | logFormat
  deriving DecidableEq, Repr

namespace Settings.Item

/-- Every setting that can be given from outside. -/
def all : List Item :=
  [workspace, concurrency, policy, backend, frameSize, segmenter, segmentTime, logLevel, logFormat]

theorem mem_all (setting : Item) : setting ∈ all := by
  cases setting <;> decide

end Settings.Item

/-- The setting that a change sets. -/
def Change.setting : Change → Settings.Item
  | workspace _ => .workspace
  | concurrency _ => .concurrency
  | policy _ => .policy
  | backend _ => .backend
  | frameSize _ => .frameSize
  | segmenter _ => .segmenter
  | segmentTime _ => .segmentTime
  | logLevel _ => .logLevel
  | logFormat _ => .logFormat

theorem Change.reading_eq_ok {α ε : Type} {setting text : String} {make : α → Change}
    {message : ε → String} {value : Except ε α} {change : Change} :
    reading setting text make message value = .ok change ↔
      ∃ read, value = .ok read ∧ make read = change := by
  cases value with
  | error error => exact iff_of_false nofun fun ⟨_, failed, _⟩ => nomatch failed
  | ok read =>
    constructor
    · intro same
      exact ⟨read, rfl, Except.ok.inj same⟩
    · rintro ⟨_, same, rfl⟩
      cases same
      rfl

namespace Settings

variable {settings other : Settings} {setting : Item}

/-! ### Settings one by one -/

/-- The value of a setting, as the change that sets it. Only the concurrency can be left open. -/
def entry (settings : Settings) : Item → Option Change
  | .workspace => some (.workspace settings.pipeline.workspace)
  | .concurrency => settings.pipeline.concurrency.map .concurrency
  | .policy => some (.policy settings.pipeline.policy)
  | .backend => some (.backend settings.codec.backend)
  | .frameSize => some (.frameSize settings.codec.frameSize)
  | .segmenter => some (.segmenter settings.split.segmenter)
  | .segmentTime => some (.segmentTime settings.split.segmentTime)
  | .logLevel => some (.logLevel settings.logging.level)
  | .logFormat => some (.logFormat settings.logging.format)

/-- What only a file can give: the extension of chunks, the place for scratch folders and the
command templates. -/
def rest (settings : Settings) : String × Option String × Commands :=
  (settings.pipeline.chunkExtension, settings.codec.scratch, settings.codec.commands)

/-- Nothing but the entries and the rest makes settings differ. -/
theorem eq_of_entry (same : ∀ setting, settings.entry setting = other.entry setting)
    (rest : settings.rest = other.rest) : settings = other := by
  obtain ⟨⟨workspace, extension, concurrency, policy⟩, ⟨backend, size, scratch, commands⟩,
    ⟨segmenter, time⟩, level, format⟩ := settings
  obtain ⟨⟨_, _, concurrency', _⟩, _, _, _⟩ := other
  cases same .workspace
  cases same .policy
  cases same .backend
  cases same .frameSize
  cases same .segmenter
  cases same .segmentTime
  cases same .logLevel
  cases same .logFormat
  cases rest
  have sameCount : concurrency = concurrency' :=
    Option.map_injective (fun _ _ equal => Change.concurrency.inj equal) (same .concurrency)
  rw [sameCount]

theorem eq_of_map_entry
    (same : ∀ setting, ((settings.entry setting).map .ok : Option (Except ConfigError Change)) =
      (other.entry setting).map .ok)
    (rest : settings.rest = other.rest) : settings = other :=
  eq_of_entry (fun setting => Option.map_injective (fun _ _ => Except.ok.inj) (same setting)) rest

/-- **One change** sets its setting and no other one. -/
theorem entry_apply (settings : Settings) (change : Change) (setting : Item) :
    (change.apply settings).entry setting =
      if change.setting = setting then some change else settings.entry setting := by
  cases change <;> cases setting <;> rfl

theorem rest_apply (settings : Settings) (change : Change) :
    (change.apply settings).rest = settings.rest := by
  cases change <;> rfl

/-- **Changes in a row**: the last change of a setting counts. -/
theorem entry_foldl (changes : List Change) (settings : Settings) (setting : Item) :
    (changes.foldl Change.apply settings).entry setting =
      (changes.filter (·.setting = setting)).getLast?.or (settings.entry setting) := by
  induction changes generalizing settings with
  | nil => rfl
  | cons change changes ih =>
    rw [List.foldl_cons, ih, entry_apply]
    by_cases same : change.setting = setting
    · rw [if_pos same, List.filter_cons_of_pos (by simpa using same), List.getLast?_cons]
      cases (changes.filter (·.setting = setting)).getLast? <;> rfl
    · rw [if_neg same, List.filter_cons_of_neg (by simpa using same)]

theorem rest_foldl (changes : List Change) (settings : Settings) :
    (changes.foldl Change.apply settings).rest = settings.rest := by
  induction changes generalizing settings with
  | nil => rfl
  | cons change changes ih => rw [List.foldl_cons, ih, rest_apply]

end Settings

/-! ### Layers -/

namespace Layer

/-- When everything can be read, the layer has all of it. -/
theorem ofResults_map_ok (changes : List Change) :
    ofResults (changes.map .ok) = ⟨changes, none⟩ := by
  induction changes with
  | nil => rfl
  | cons change changes ih => rw [List.map_cons, ofResults, ih]

/-- A layer without a failure is everything there was to read. -/
theorem eq_map_ok_of_failure {results : List (Except ConfigError Change)}
    (none : (ofResults results).failure = none) :
    results = (ofResults results).changes.map Except.ok := by
  induction results with
  | nil => rfl
  | cons result results ih =>
    cases result with
    | error error => cases none
    | ok change =>
      show _ = .ok change :: (ofResults results).changes.map Except.ok
      rw [← ih none]

/-- Applying a layer succeeds just if all of it can be read. -/
theorem applyAll_ofResults_eq_ok {results : List (Except ConfigError Change)}
    {settings changed : Settings} {count : Nat} :
    (ofResults results).applyAll settings = .ok (changed, count) ↔
      ∃ changes : List Change, results = changes.map .ok ∧
        changes.foldl Change.apply settings = changed ∧ changes.length = count := by
  constructor
  · intro applied
    unfold applyAll at applied
    split at applied
    · cases applied
    · next none =>
      cases applied
      exact ⟨_, eq_map_ok_of_failure none, rfl, rfl⟩
  · rintro ⟨changes, rfl, rfl, rfl⟩
    rw [ofResults_map_ok]
    rfl

end Layer

/-- What one place gives for each of the settings, if anything: a change of it, or the failure to
read one. -/
structure Given where
  value? : Settings.Item → Option (Except ConfigError Change)
  own : ∀ {setting change}, value? setting = some (.ok change) → change.setting = setting

namespace Given

variable {given : Given} {order : List Settings.Item} {below above : Settings} {total : Nat}

/-- How many settings are given. -/
def count (given : Given) : Nat :=
  Settings.Item.all.countP fun setting => (given.value? setting).isSome

/-- Whatever is given can be read. -/
def Readable (given : Given) : Prop :=
  ∀ setting error, given.value? setting ≠ some (.error error)

/-- The layer of what is given, searched in some order. -/
def layer (given : Given) (order : List Settings.Item) : Layer :=
  .ofResults (order.filterMap given.value?)

/-- Settings that are as given, and otherwise as the ones below. -/
structure Over (given : Given) (below above : Settings) : Prop where
  entry : ∀ setting, (above.entry setting).map Except.ok =
    (given.value? setting).or ((below.entry setting).map Except.ok)
  rest : above.rest = below.rest

/-- What can be put over other settings can be read. -/
theorem Over.readable (laid : given.Over below above) : given.Readable := by
  intro setting error unreadable
  have same := laid.entry setting
  rw [unreadable, Option.some_or, Option.map_eq_some_iff] at same
  obtain ⟨change, -, impossible⟩ := same
  cases impossible

theorem Over.unique {other : Settings} (laid : given.Over below above)
    (again : given.Over below other) : above = other :=
  Settings.eq_of_map_entry (fun setting => (laid.entry setting).trans (again.entry setting).symm)
    (laid.rest.trans again.rest.symm)

/-- The last change of a setting, among all that were given, is the one that was given for it. -/
theorem map_getLast?_filter (given : Given) (complete : order.Perm Settings.Item.all)
    {changes : List Change} (read : order.filterMap given.value? = changes.map .ok)
    (setting : Settings.Item) :
    (changes.filter (·.setting = setting)).getLast?.map Except.ok = given.value? setting := by
  have present (result : Except ConfigError Change) :
      result ∈ changes.map .ok ↔ ∃ other, given.value? other = some result := by
    rw [← read, List.mem_filterMap]
    exact ⟨fun ⟨other, _, found⟩ => ⟨other, found⟩,
      fun ⟨other, found⟩ => ⟨other, complete.mem_iff.mpr other.mem_all, found⟩⟩
  -- all changes of the setting are the one that was given, so it does not matter which comes last
  have ofMember {change : Change} (member : change ∈ changes.filter (·.setting = setting)) :
      given.value? setting = some (.ok change) := by
    obtain ⟨member, same⟩ := List.mem_filter.mp member
    obtain ⟨other, found⟩ := (present (.ok change)).mp (List.mem_map_of_mem member)
    rw [← of_decide_eq_true same, given.own found]
    exact found
  cases last : (changes.filter (·.setting = setting)).getLast? with
  | some change => exact (ofMember (List.mem_of_getLast? last)).symm
  | none =>
    cases found : given.value? setting with
    | none => rfl
    | some result =>
      obtain ⟨change, member, rfl⟩ := List.mem_map.mp ((present result).mpr ⟨setting, found⟩)
      have among : change ∈ changes.filter (·.setting = setting) :=
        List.mem_filter.mpr ⟨member, decide_eq_true (given.own found)⟩
      rw [List.getLast?_eq_none_iff.mp last] at among
      cases among

/-- What is given can be read in one go. -/
theorem Readable.exists_changes (readable : given.Readable) (order : List Settings.Item) :
    ∃ changes : List Change, order.filterMap given.value? = changes.map .ok := by
  induction order with
  | nil => exact ⟨[], rfl⟩
  | cons setting order ih =>
    obtain ⟨changes, read⟩ := ih
    cases found : given.value? setting with
    | none => exact ⟨changes, by rw [List.filterMap_cons_none found, read]⟩
    | some result =>
      cases result with
      | error error => exact absurd found (readable setting error)
      | ok change =>
        exact ⟨change :: changes, by rw [List.filterMap_cons_some found, read, List.map_cons]⟩

/-- Everything that is given, put over other settings. -/
theorem over_foldl (given : Given) (complete : order.Perm Settings.Item.all) {changes : List Change}
    (read : order.filterMap given.value? = changes.map .ok) (below : Settings) :
    given.Over below (changes.foldl Change.apply below) := by
  refine ⟨fun setting => ?_, Settings.rest_foldl changes below⟩
  rw [Settings.entry_foldl, ← given.map_getLast?_filter complete read setting, Option.map_or]

/-- What can be read can be put over any settings. -/
theorem Readable.exists_over (readable : given.Readable) (below : Settings) :
    ∃ above, given.Over below above := by
  obtain ⟨changes, read⟩ := readable.exists_changes Settings.Item.all
  exact ⟨_, given.over_foldl (.refl _) read below⟩

/-- **A layer applied**: every setting is as given, and as before if it is not given. The number is
that of the settings given. It makes no difference in which order they are searched for. -/
theorem applyAll_layer (given : Given) (complete : order.Perm Settings.Item.all) :
    (given.layer order).applyAll below = .ok (above, total) ↔
      given.Over below above ∧ total = given.count := by
  have counted {changes : List Change} (read : order.filterMap given.value? = changes.map .ok) :
      changes.length = given.count := by
    rw [count, ← complete.countP_eq, ← List.length_filterMap_eq_countP, read, List.length_map]
  unfold layer
  rw [Layer.applyAll_ofResults_eq_ok]
  constructor
  · rintro ⟨changes, read, rfl, rfl⟩
    exact ⟨given.over_foldl complete read below, counted read⟩
  · rintro ⟨laid, rfl⟩
    obtain ⟨changes, read⟩ := laid.readable.exists_changes order
    exact ⟨changes, read, (given.over_foldl complete read below).unique laid, counted read⟩

/-- **Two layers**, one over the other: what the upper one gives counts before what the lower one
gives. -/
theorem over_over {lower upper : Given} :
    (∃ between, lower.Over below between ∧ upper.Over between above) ↔
      lower.Readable ∧
      (∀ setting, (above.entry setting).map Except.ok = (upper.value? setting).or
        ((lower.value? setting).or ((below.entry setting).map Except.ok))) ∧
      above.rest = below.rest := by
  constructor
  · rintro ⟨between, low, high⟩
    refine ⟨low.readable, fun setting => ?_, high.rest.trans low.rest⟩
    rw [high.entry, low.entry]
  · rintro ⟨readable, entry, rest⟩
    obtain ⟨between, low⟩ := readable.exists_over below
    refine ⟨between, low, fun setting => ?_, rest.trans low.rest.symm⟩
    rw [entry, low.entry]

end Given

end Transcode
