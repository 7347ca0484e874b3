/-
**The files of a call.** Every call of the external codec stages operands, runs the tool on files
that are known beforehand, and collects results; what differs from one operation to the next is
which files those are.

* `External.call_eq` — the calls of all operations as one, with `External.files` for the files that
  are put into the command.
* `External.renders_as_filled_iff` — for the raw chunks of a source, under any workspace and any
  scratch folder: which of these files can be put one after another into every command that passes
  the check, as if all were put in at once.
-/
import Mathlib.Data.List.TakeWhile
import Transcode.Codec.External
import Transcode.Proofs.Codec.Template
import Transcode.Proofs.Disk.Path
import Transcode.Proofs.FileName.Roles
import Transcode.Run.Order
import Transcode.Settings.Basic
import Transcode.Source.Folder

namespace Transcode

/-- The raw chunk lies where a run looks for it: in some workspace, under the name of a source that
can be ordered, with an extension that the settings allow. -/
def RawChunk.IsPlaced (raw : RawChunk) : Prop :=
  ∃ (workspace extension : String) (order : Order), Settings.isDots extension = false ∧
    Order.create order.source order.count order.policy = .ok order ∧
    raw.path = (ChunkFolder.ofExtension workspace extension).path order.source raw.index

/-- The raw chunk among the operands. -/
def Codec.Call.raw? : Codec.Call → Option RawChunk
  | encode raw | encodeGivenState raw .. | rebase raw .. => some raw
  | _ => none

namespace External

open Codec (Call Operation)

variable {external : External} {launcher : Launcher}

/-! ### All calls as one -/

/-- The operands that are put into files of their own. -/
def operands : Call → List (String × Bytes)
  | .encode _ => []
  | .decodeState stream | .decode stream => [("in.ivf", stream.bytes)]
  | .encodeGivenState _ predecessor predictor =>
    [("in.state", predecessor.bytes), ("pred.ivf", predictor.bytes)]
  | .rebase _ newState oldState predictor =>
    [("new.state", newState.bytes), ("old.state", oldState.bytes), ("pred.ivf", predictor.bytes)]
  | .merge head tail => [("prefix.ivf", head.bytes), ("suffix.ivf", tail.bytes)]

/-- Puts operands into the folder of the call. -/
def stageAll (folder : String) (operands : List (String × Bytes)) : Step Unit :=
  operands.forM fun operand => do
    let _ ← stage folder operand.1 operand.2

/-- The files in the folder of the call that its placeholders stand for. -/
def scratchFiles : Operation → List (Placeholder × String)
  | .encode => [(.output, "out.ivf")]
  | .decodeState => [(.bitstream, "in.ivf"), (.outputState, "out.state")]
  | .encodeGivenState => [(.state, "in.state"), (.predictor, "pred.ivf"), (.output, "out.ivf"),
      (.outputState, "out.state")]
  | .rebase => [(.state, "new.state"), (.oldState, "old.state"), (.predictor, "pred.ivf"),
      (.output, "out.ivf"), (.outputState, "out.state")]
  | .merge => [(.head, "prefix.ivf"), (.tail, "suffix.ivf"), (.output, "out.ivf")]
  | .decode => [(.bitstream, "in.ivf"), (.output, "out.y4m")]

/-- The files of a call, in the order in which they are put into the template: the raw chunk, if
there is one, and the files in the folder of the call. -/
def files (folder : String) (call : Call) : List (Placeholder × String) :=
  call.raw?.toList.map (fun raw => (Placeholder.raw, raw.path)) ++
    (scratchFiles call.operation).map fun file => (file.1, Path.join folder file.2)

/-- Takes the results of a call from its folder. -/
def collectResult (folder : String) : (call : Call) → Step call.Result
  | .encode _ | .merge .. => do
    let stream ← collect (Path.join folder "out.ivf") "bitstream"
    pure ⟨stream⟩
  | .decodeState _ => do
    let state ← collect (Path.join folder "out.state") "state"
    pure ⟨state⟩
  | .encodeGivenState .. | .rebase .. => do
    let stream ← collect (Path.join folder "out.ivf") "bitstream"
    let state ← collect (Path.join folder "out.state") "state"
    pure ⟨⟨stream⟩, ⟨state⟩⟩
  | .decode _ => collect (Path.join folder "out.y4m") "media"

/-- A call in its folder: operands into their files, the tool on all files, and the results out of
theirs. -/
def steps (external : External) (launcher : Launcher) (call : Call) (folder : String) :
    Step call.Result := do
  stageAll folder (operands call)
  external.invoke launcher call.operation (files folder call)
  collectResult folder call

theorem inCallFolder_congr {α : Type} {body other : String → Step α}
    (same : ∀ folder, body folder = other folder) :
    external.inCallFolder body = external.inCallFolder other :=
  congrArg external.inCallFolder (funext same)

/-- **All calls as one.** -/
theorem call_eq (call : Call) :
    external.call launcher call = external.inCallFolder (external.steps launcher call) := by
  cases call
  all_goals
    rw [External.call]
    apply inCallFolder_congr
    intro folder
    simp [steps, produceStream, produceEncoded, stageAll, operands, files, scratchFiles,
      collectResult, stage, Call.raw?, Call.operation]

/-! ### The files -/

theorem map_fst_files (folder : String) (call : Call) :
    (files folder call).map Prod.fst = call.operation.offered := by
  cases call <;> rfl

theorem source_ne_empty {source : String} {count : Nat} {policy : Policy} {order : Order}
    (ordered : Order.create source count policy = .ok order) : source ≠ "" := by
  rintro rfl
  rw [Order.create, if_pos (by decide)] at ordered
  cases ordered

/-- The path of a raw chunk is longer than the placeholder it is put in place of. -/
theorem length_mark_lt_path {raw : RawChunk} (placed : raw.IsPlaced) :
    Placeholder.raw.mark.length < raw.path.toList.length := by
  obtain ⟨workspace, extension, order, named, ordered, place⟩ := placed
  have name := Path.length_le_join workspace (FileName.rawChunk order.source raw.index
    (ChunkFolder.ofExtension workspace extension).extension)
  have source := List.length_pos_of_ne_nil
    (mt String.toList_eq_nil_iff.mp (source_ne_empty ordered))
  have digits : 2 ≤ (Number.paddedDigits 2 raw.index).length := by
    rw [Number.paddedDigits, List.leftpad, List.length_append, List.length_replicate]
    omega
  have suffix : 0 < (ChunkFolder.ofExtension workspace extension).extension.toList.length := by
    rw [ChunkFolder.ofExtension, String.toList_ofList, List.length_pos_iff]
    intro none
    have dots : Settings.isDots extension = true :=
      List.all_eq_true.mpr (List.dropWhile_eq_nil_iff.mp none)
    exact Bool.false_ne_true (named.symm.trans dots)
  rw [FileName.toList_rawChunk, List.length_append, List.length_append, List.length_cons,
    List.length_cons] at name
  rw [place]
  have marked : Placeholder.raw.mark.length = 5 := by decide
  exact lt_of_lt_of_le (by omega) name

/-- The path of a file in the folder of a call is longer than the placeholder it is put in place
of. -/
theorem length_mark_lt_join (base : String) {operation : Operation} {file : Placeholder × String}
    (member : file ∈ scratchFiles operation) :
    file.1.mark.length < (Path.join (Path.join base callFolder) file.2).toList.length := by
  have folder := Path.length_le_join base callFolder
  have known : Path.isAbsolute file.2 = false ∧ file.1.mark.length < callFolder.toList.length := by
    revert file
    cases operation <;> decide
  exact known.2.trans_le (folder.trans (Path.length_le_join_left _ known.1))

/-- The files of a call whose folder is made in the given one. -/
def filesIn (base : String) (call : Call) : List (Placeholder × String) :=
  files (Path.join base callFolder) call

theorem longer_filesIn (base : String) {call : Call}
    (placed : ∀ raw, call.raw? = some raw → raw.IsPlaced) :
    ∀ file ∈ filesIn base call, file.1.mark.length < file.2.toList.length := by
  intro file member
  rcases List.mem_append.mp member with member | member
  · obtain ⟨raw, given, rfl⟩ := List.mem_map.mp member
    exact length_mark_lt_path (placed raw (Option.mem_toList.mp given))
  · obtain ⟨file, listed, rfl⟩ := List.mem_map.mp member
    exact length_mark_lt_join base listed

/-! ### What reaches the tool -/

/-- **Which files are put into the command as if all were put in at once.** In every call the tool
is run on the files in the order of the operation. For each of the commands that pass the check its
arguments are what they should be, with every placeholder replaced by the path of its file and
everything else as it was, if and only if no path can be taken for a placeholder whose turn comes
later; and the order makes no difference if and only if no path can be taken for any other
placeholder. -/
theorem renders_as_filled_iff (base : String) {call : Call}
    (placed : ∀ raw, call.raw? = some raw → raw.IsPlaced) :
    (∀ (external : External) (launcher : Launcher),
      external.call launcher call = external.inCallFolder (external.steps launcher call)) ∧
    ((∀ commands : Commands, commands.check = .ok () →
      (commands.template call.operation).render (filesIn base call) =
        (commands.template call.operation).fill (filesIn base call)) ↔
      Template.InTurn (filesIn base call)) ∧
    ((∀ order : List (Placeholder × String), order.Perm (filesIn base call) →
      ∀ commands : Commands, commands.check = .ok () →
        (commands.template call.operation).render order =
          (commands.template call.operation).fill (filesIn base call)) ↔
      ∀ file ∈ filesIn base call, ∀ other ∈ filesIn base call,
        other.1 ≠ file.1 → ¬ other.1.MistakenIn file.2) := by
  have named : ((filesIn base call).map Prod.fst).Perm call.operation.offered := by
    rw [filesIn, map_fst_files]
  have longer := longer_filesIn base placed
  exact ⟨fun _ _ => call_eq call, Template.render_iff named longer,
    Template.render_perm_iff named longer⟩

/-- The first chunk of a source in the workspace. -/
def firstChunk (source : String) : RawChunk :=
  ⟨0, "work/" ++ source ++ "_00.y4m", []⟩

/-- A call on a source with braces of its own. -/
def bracedCall : Call :=
  .encodeGivenState (firstChunk "\x7bclip\x7d") ⟨[1]⟩ ⟨[2]⟩

/-- Braces that are those of no placeholder do no harm, in any order of the files. -/
theorem renders_as_filled_iff_bracedCall :
    (∀ raw, bracedCall.raw? = some raw → raw.IsPlaced) ∧
      ∀ order : List (Placeholder × String), order.Perm (filesIn "/tmp" bracedCall) →
        ∀ commands : Commands, commands.check = .ok () →
          commands.encodeGivenState.render order =
            commands.encodeGivenState.fill (filesIn "/tmp" bracedCall) := by
  have placed : ∀ raw, bracedCall.raw? = some raw → raw.IsPlaced := by
    rintro raw ⟨⟩
    exact ⟨"work", "y4m", ⟨"\x7bclip\x7d", 1, .resume⟩, by decide, by decide, by decide⟩
  obtain ⟨-, -, anyOrder⟩ := renders_as_filled_iff "/tmp" placed
  exact ⟨placed, anyOrder.mpr (by decide +kernel)⟩

/-- A source is accepted whose name is the mark of the finished file: the standard command then
reads another file than the chunk, and with the files in another order it would not. -/
theorem renders_as_filled_not :
    (firstChunk "\x7boutput\x7d").IsPlaced ∧ Commands.standard.check = .ok () ∧
      Commands.standard.encode.render (filesIn "/tmp" (.encode (firstChunk "\x7boutput\x7d"))) ≠
        Commands.standard.encode.fill (filesIn "/tmp" (.encode (firstChunk "\x7boutput\x7d"))) ∧
      Commands.standard.encode.render
          (filesIn "/tmp" (.encode (firstChunk "\x7boutput\x7d"))).reverse =
        Commands.standard.encode.fill (filesIn "/tmp" (.encode (firstChunk "\x7boutput\x7d"))) := by
  refine ⟨⟨"work", "y4m", ⟨"\x7boutput\x7d", 1, .resume⟩, by decide, by decide, by decide⟩,
    Commands.check_standard, ?_, ?_⟩ <;> decide +kernel

end External

end Transcode
