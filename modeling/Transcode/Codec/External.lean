/-
**The external codec.** Each operation is one run of a configured tool. The operands are staged as
files in a folder made for the call, the results are collected from there, and the folder is
removed, however the call ends.
-/
import Transcode.Codec.Template
import Transcode.Tool.Basic

namespace Transcode

/-- The codec behind the configured tools. -/
structure External where
  commands : Commands
  /-- The folder in which the folders of the calls are made. -/
  scratch : String
  deriving DecidableEq, Repr

namespace External

/-- Where scratch folders lie when none is configured. -/
def temporaryFolder : String := "/tmp"

/-- The name of the folder of a call. Calls are made one after another and leave no folder behind,
so one name serves them all. -/
def callFolder : String := "chunkstitch-XXXXXX"

/-- The codec for commands that have been checked, with its scratch folder made. -/
def create (commands : Commands) (scratch : Option String) (disk : Disk) :
    Except CodecError External × Disk :=
  match commands.check with
  | .error error => (.error (.template error), disk)
  | .ok () =>
    let scratch := scratch.getD temporaryFolder
    match disk.makeFolders scratch with
    | (.ok (), disk) => (.ok ⟨commands, scratch⟩, disk)
    | (.error error, disk) => (.error (.io error), disk)

/-! ### Steps of a call -/

/-- Part of a call, which works on the tree of files and may fail. -/
abbrev Step (α : Type) : Type :=
  ExceptT CodecError (StateM Disk) α

/-- A change of the tree that may fail. -/
def change (apply : Disk → Except IoError Disk) : Step Unit := do
  match apply (← get) with
  | .ok disk => set disk
  | .error error => throw (.io error)

variable (external : External)

/-- Does something in a folder made for it, and removes the folder. -/
def inCallFolder {α : Type} (body : (folder : String) → Step α) : Step α := do
  let disk ← get
  let folder := Path.join (Path.join disk.homePath external.scratch) callFolder
  match disk.makeFolder folder with
  | .error error => throw (.io (.atPath error folder))
  | .ok made =>
    let (result, used) := (body folder).run.run made
    set (used.removeTree folder)
    ExceptT.mk (pure result)

/-- Puts an operand into a file; the path of the file. -/
def stage (folder name : String) (bytes : Bytes) : Step String := do
  let path := Path.join folder name
  change fun disk => disk.write path bytes
  pure path

/-- Runs the tool of an operation on the files of the call. -/
def invoke (launcher : Launcher) (operation : Codec.Operation)
    (bindings : List (Placeholder × String)) : Step Unit :=
  match (external.commands.template operation).render bindings with
  | [] => throw (.template (.empty operation.name))
  | program :: arguments => do
    let (result, disk) := launcher.launch program arguments (← get)
    set disk
    match result with
    | .error error => throw (.launch program error)
    | .ok finished =>
      if finished.status.isSuccess then pure ()
      else throw (.exited program finished.status finished.diagnosticText)

/-- Takes a result from its file. -/
def collect (path what : String) : Step Bytes := do
  match (← get).read path with
  | .ok bytes => pure bytes
  | .error .notFound => throw (.malformed (.notProduced what path))
  | .error error => throw (.io error)

/-- Runs the tool for an operation that yields a stream. -/
def produceStream (launcher : Launcher) (operation : Codec.Operation) (folder : String)
    (bindings : List (Placeholder × String)) : Step Bitstream := do
  let output := Path.join folder "out.ivf"
  external.invoke launcher operation (bindings ++ [(.output, output)])
  let stream ← collect output "bitstream"
  pure ⟨stream⟩

/-- Runs the tool for an operation that yields a stream and a state. -/
def produceEncoded (launcher : Launcher) (operation : Codec.Operation) (folder : String)
    (bindings : List (Placeholder × String)) : Step Encoded := do
  let output := Path.join folder "out.ivf"
  let outputState := Path.join folder "out.state"
  external.invoke launcher operation
    (bindings ++ [(.output, output), (.outputState, outputState)])
  let stream ← collect output "bitstream"
  let state ← collect outputState "state"
  pure ⟨⟨stream⟩, ⟨state⟩⟩

/-! ### Calls -/

/-- A call from the staging of its operands to the collection of its results. -/
def call (launcher : Launcher) : (call : Codec.Call) → Step call.Result
  | .encode raw =>
    external.inCallFolder fun folder =>
      external.produceStream launcher .encode folder [(.raw, raw.path)]
  | .decodeState stream =>
    external.inCallFolder fun folder => do
      let input ← stage folder "in.ivf" stream.bytes
      let outputState := Path.join folder "out.state"
      external.invoke launcher .decodeState [(.bitstream, input), (.outputState, outputState)]
      let state ← collect outputState "state"
      pure ⟨state⟩
  | .encodeGivenState raw predecessor predictor =>
    external.inCallFolder fun folder => do
      let state ← stage folder "in.state" predecessor.bytes
      let predictor ← stage folder "pred.ivf" predictor.bytes
      external.produceEncoded launcher .encodeGivenState folder
        [(.raw, raw.path), (.state, state), (.predictor, predictor)]
  | .rebase raw newState oldState predictor =>
    external.inCallFolder fun folder => do
      let newState ← stage folder "new.state" newState.bytes
      let oldState ← stage folder "old.state" oldState.bytes
      let predictor ← stage folder "pred.ivf" predictor.bytes
      external.produceEncoded launcher .rebase folder
        [(.raw, raw.path), (.state, newState), (.oldState, oldState), (.predictor, predictor)]
  | .merge head tail =>
    external.inCallFolder fun folder => do
      let head ← stage folder "prefix.ivf" head.bytes
      let tail ← stage folder "suffix.ivf" tail.bytes
      external.produceStream launcher .merge folder [(.head, head), (.tail, tail)]
  | .decode stream =>
    external.inCallFolder fun folder => do
      let input ← stage folder "in.ivf" stream.bytes
      let output := Path.join folder "out.y4m"
      external.invoke launcher .decode [(.bitstream, input), (.output, output)]
      collect output "media"

/-- The answer to a call, and the tree after it. -/
def answer (launcher : Launcher) (call : Codec.Call) (disk : Disk) : call.Answer × Disk :=
  (external.call launcher call).run.run disk

end External

end Transcode
