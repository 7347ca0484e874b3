/-
**Several sources in one workspace.** The ledgers of all sources keep their files in one folder.
Any sequence of calls to them is answered as by ledgers in memory, one for each source, that know
nothing of each other.

* `Ledger.Access` is a use of a ledger, `Ledger.Call` one of the ledger of a source, and
  `Ledger.answers` are the answers to calls one after another.
* `FolderLedger.Vacant` is where it begins: a folder without a file that could be taken for a slot.
* `FolderLedger.answers_as_in_memory`: the answers are the same, and a call that fails changes
  nothing.
-/
import Transcode.Proofs.Ledger.OnDisk

namespace Transcode

namespace Ledger

/-! ### Calls -/

/-- A use of a ledger: an operation, or reading a slot as the payload that it must hold. -/
inductive Access where
  | op (op : Op)
  | bitstream (key : Key)
  | state (key : Key)
  deriving DecidableEq, Repr

namespace Access

/-- What an access yields when it succeeds. -/
abbrev Result : Access → Type
  | .op request => request.Result
  | bitstream _ => Bitstream
  | state _ => StateHandle

/-- What an access yields. -/
abbrev Answer (access : Access) : Type :=
  Except LedgerError access.Result

/-- The operation behind an access. -/
abbrev request : Access → Op
  | .op request => request
  | bitstream key | state key => .get key

/-- What an access makes of the answer to the operation behind it. -/
def reply : (access : Access) → access.request.Answer → access.Answer
  | .op _, answer => answer
  | bitstream key, answer => answer.bind (asBitstream key)
  | state key, answer => answer.bind (asState key)

/-- Only the storage behind an access can disturb it. -/
theorem undisturbed_of_reply {access : Access} {answer : access.request.Answer}
    (calm : Undisturbed (access.reply answer)) : Undisturbed answer := by
  rintro error rfl
  cases access <;> exact calm error rfl

end Access

/-- A use of the ledger of a source. -/
structure Call where
  source : String
  access : Access
  deriving DecidableEq, Repr

namespace Call

/-- The answer from the workspace folder, and the tree after it. -/
def onDisk (workspace : String) (call : Call) (disk : Disk) : call.access.Answer × Disk :=
  let (answer, disk) := FolderLedger.answer ⟨workspace, call.source⟩ disk call.access.request
  (call.access.reply answer, disk)

/-- The answer from a ledger in memory that only this source uses, and the ledgers after it. -/
def inMemory (call : Call) (ledgers : String → MemoryLedger) :
    call.access.Answer × (String → MemoryLedger) :=
  let (answer, ledger) := (ledgers call.source).answer call.access.request
  (call.access.reply answer, Function.update ledgers call.source ledger)

/-- The call is for one of the sources, and the number of the chunk is one of a 64-bit word. -/
def Within (used : Set String) (call : Call) : Prop :=
  call.source ∈ used ∧ ∀ key ∈ call.access.request.slot?, key.chunk ≤ Number.maxWord

/-- The file of the slot has a name and a path within the limits. -/
def Addressable (workspace : String) (call : Call) : Prop :=
  ∀ key ∈ call.access.request.slot?,
    Disk.Addressable workspace (FileName.artifact call.source key)

end Call

/-- The answers to calls one after another, and what is there after them. -/
def answers {σ : Type} (serve : (call : Call) → σ → call.access.Answer × σ) :
    List Call → σ → List ((call : Call) × call.access.Answer) × σ
  | [], state => ([], state)
  | call :: rest, state =>
    let (answer, next) := serve call state
    let (others, last) := answers serve rest next
    (⟨call, answer⟩ :: others, last)

end Ledger

namespace FolderLedger

open Ledger (Call answers)

variable {workspace : String} {location : Location} {used : Set String} {disk : Disk}
  {ledgers : String → MemoryLedger}

/-- The workspace is a folder without a file that could be taken for a slot of the sources. -/
structure Vacant (disk : Disk) (workspace : String) (used : Set String) : Prop where
  plain : ∀ source ∈ used, FileName.IsPlain source
  folder : disk.isFolder workspace = true
  unnamed : ∀ names, disk.list workspace = .ok names →
    ∀ name ∈ names, ∀ source ∈ used, FileName.parse? source name = none

/-- A workspace without slots holds what empty ledgers hold. -/
theorem Vacant.mirrors (vacant : Vacant disk workspace used) :
    ∃ location, Mirrors workspace location used disk fun _ => .empty := by
  obtain ⟨location, here⟩ := Disk.isFolder_iff.mp vacant.folder
  have absent : ∀ source ∈ used, ∀ name key, FileName.parse? source name = some key →
      disk.node? (location ++ [name]) = none := by
    intro source member name key read
    refine Option.not_isSome_iff_eq_none.mp fun present => ?_
    have none := vacant.unnamed _ here.list name (Disk.mem_childNames.mpr present) source member
    rw [none] at read
    cases read
  refine ⟨location, here, ?_, ?_, ?_⟩
  · intro source member key sized
    exact absent source member _ key (FileName.parse?_artifact source sized)
  · intro source member key artifact found
    cases found
  · intro source member name key read present
    rw [absent source member name key read] at present
    cases present

/-! ### One call -/

/-- A call that the file system does not fail is answered as in memory. -/
theorem Mirrors.serve (mirrors : Mirrors workspace location used disk ledgers)
    (plain : ∀ source ∈ used, FileName.IsPlain source) {call : Call} (ours : call.Within used)
    (smooth : call.Addressable workspace ∨ Undisturbed (call.onDisk workspace disk).1) :
    (call.onDisk workspace disk).1 = (call.inMemory ledgers).1 ∧
      Mirrors workspace location used (call.onDisk workspace disk).2
        (call.inMemory ledgers).2 := by
  obtain ⟨same, next⟩ := mirrors.answer ours.1 (plain _ ours.1) call.access.request ours.2
    (smooth.imp_right Ledger.Access.undisturbed_of_reply)
  exact ⟨congrArg call.access.reply same, next⟩

/-- The workspace stays where it is. -/
theorem folderAt_serve (here : disk.FolderAt workspace location) {call : Call}
    (plain : FileName.IsPlain call.source) :
    (call.onDisk workspace disk).2.FolderAt workspace location :=
  folderAt_answer here plain.slash call.access.request

/-- A call that fails changes nothing. -/
theorem serve_snd_of_error (here : disk.FolderAt workspace location) {call : Call}
    (plain : FileName.IsPlain call.source) {error : LedgerError}
    (failed : (call.onDisk workspace disk).1 = .error error) :
    (call.onDisk workspace disk).2 = disk := by
  obtain ⟨source, access⟩ := call
  cases access with
  | op request => exact answer_snd_of_error here plain.slash failed
  | bitstream | state => rfl

/-! ### Calls one after another -/

/-- Calls that the file system does not fail are answered as in memory. -/
theorem Mirrors.answers (mirrors : Mirrors workspace location used disk ledgers)
    (plain : ∀ source ∈ used, FileName.IsPlain source) {calls : List Call}
    (ours : ∀ call ∈ calls, call.Within used)
    (smooth : (∀ call ∈ calls, call.Addressable workspace) ∨
      ∀ reply ∈ (answers (Call.onDisk workspace) calls disk).1, Undisturbed reply.2) :
    (answers (Call.onDisk workspace) calls disk).1 = (answers Call.inMemory calls ledgers).1 := by
  induction calls generalizing disk ledgers with
  | nil => rfl
  | cons call rest ih =>
    obtain ⟨same, next⟩ := mirrors.serve plain (ours call List.mem_cons_self)
      (smooth.imp (fun short => short call List.mem_cons_self)
        fun calm => calm _ List.mem_cons_self)
    have others := ih next (fun other member => ours other (List.mem_cons_of_mem _ member))
      (smooth.imp (fun short other member => short other (List.mem_cons_of_mem _ member))
        fun calm reply member => calm reply (List.mem_cons_of_mem _ member))
    rw [Ledger.answers, Ledger.answers]
    simp only [same, others]

theorem folderAt_answers (here : disk.FolderAt workspace location) {calls : List Call}
    (plain : ∀ call ∈ calls, FileName.IsPlain call.source) :
    (answers (Call.onDisk workspace) calls disk).2.FolderAt workspace location := by
  induction calls generalizing disk with
  | nil => exact here
  | cons call rest ih =>
    exact ih (folderAt_serve here (plain call List.mem_cons_self))
      fun other member => plain other (List.mem_cons_of_mem _ member)

/-- **Several sources in one workspace are as good as a ledger in memory for each.** From a
workspace without slots, calls that the file system does not fail are answered alike, and it fails
none whose names are short enough. Whenever a call fails, for whatever reason, nothing has
changed. -/
theorem answers_as_in_memory (vacant : Vacant disk workspace used) {calls : List Call}
    (ours : ∀ call ∈ calls, call.Within used) :
    (((∀ call ∈ calls, call.Addressable workspace) ∨
        ∀ reply ∈ (answers (Call.onDisk workspace) calls disk).1, Undisturbed reply.2) →
      (answers (Call.onDisk workspace) calls disk).1 =
        (answers Call.inMemory calls fun _ => .empty).1) ∧
    ∀ reached, (answers (Call.onDisk workspace) calls disk).2 = reached →
      ∀ call : Call, call.source ∈ used → ∀ error,
        (call.onDisk workspace reached).1 = .error error →
        (call.onDisk workspace reached).2 = reached := by
  obtain ⟨location, mirrors⟩ := vacant.mirrors
  refine ⟨mirrors.answers vacant.plain ours, ?_⟩
  rintro reached rfl call member error failed
  have here := folderAt_answers mirrors.folder fun call member =>
    vacant.plain call.source (ours call member).1
  exact serve_snd_of_error here (vacant.plain call.source member) failed

/-- A workspace with a raw chunk in it. -/
def rawWorkspace : Disk :=
  ⟨[(["work"], .folder), (["work", "a_00.y4m"], .file [1] false)], []⟩

/-- Two sources, one of which continues the other as the name of a slot does. -/
def similarSources : Set String :=
  {"a", "a_vpx_00.ivf"}

/-- A slot of one source is filled, filled again, and another with what does not belong there; a
slot of the other source is filled, and read as what it is not. -/
def mixedCalls : List Call :=
  [⟨"a", .op (.put ⟨0, .baseline⟩ (.bitstream ⟨[2]⟩))⟩,
    ⟨"a", .op (.put ⟨0, .baseline⟩ (.bitstream ⟨[3]⟩))⟩,
    ⟨"a", .op (.overwrite ⟨0, .decodeState⟩ (.bitstream ⟨[4]⟩))⟩,
    ⟨"a_vpx_00.ivf", .op (.overwrite ⟨0, .baseline⟩ (.bitstream ⟨[5]⟩))⟩,
    ⟨"a_vpx_00.ivf", .state ⟨0, .baseline⟩⟩,
    ⟨"a", .op .keys⟩]

/-- The calls are answered as in memory, and one more put, which fails, changes nothing. -/
theorem answers_as_in_memory_similarSources :
    Vacant rawWorkspace "work" similarSources ∧
      (∀ call ∈ mixedCalls, call.Within similarSources) ∧
      (answers (Call.onDisk "work") mixedCalls rawWorkspace).1 =
        (answers Call.inMemory mixedCalls fun _ => .empty).1 ∧
      (Call.onDisk "work" ⟨"a", .op (.put ⟨0, .baseline⟩ (.bitstream ⟨[3]⟩))⟩
          (answers (Call.onDisk "work") mixedCalls rawWorkspace).2).2 =
        (answers (Call.onDisk "work") mixedCalls rawWorkspace).2 := by
  have vacant : Vacant rawWorkspace "work" similarSources := {
    plain := by
      rintro source (rfl | rfl)
      · exact ⟨by decide, by decide⟩
      · exact ⟨by decide, by decide⟩
    folder := by decide
    unnamed := by
      intro names listed name member
      have only : rawWorkspace.list "work" = .ok ["a_00.y4m"] := by decide
      rw [only] at listed
      cases listed
      obtain rfl := List.mem_singleton.mp member
      rintro source (rfl | rfl) <;> decide }
  have ours : ∀ call ∈ mixedCalls, call.Within similarSources := by
    have first : "a" ∈ similarSources := .inl rfl
    have second : "a_vpx_00.ivf" ∈ similarSources := .inr rfl
    simp [mixedCalls, Call.Within, Ledger.Op.slot?, first, second]
  obtain ⟨same, unchanged⟩ := answers_as_in_memory vacant ours
  refine ⟨vacant, ours, same (.inl ?_),
    unchanged _ rfl _ (.inl rfl) (.duplicateKey ⟨0, .baseline⟩) ?_⟩
  · unfold Call.Addressable
    decide
  · decide

end FolderLedger

end Transcode
