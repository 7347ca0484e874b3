/-
**Orders**: what is to be transcoded, before its chunks have been read. `Order.create` refuses
source identifiers that could lead out of the workspace, and empty work; `Order.toRun` makes sure
that the chunks are as many as were ordered.
-/
import Transcode.Run.Basic
import Transcode.Text.Blank

namespace Transcode

/-- A request to transcode the first `count` chunks of a source. -/
structure Order where
  source : String
  count : Nat
  policy : Policy
  deriving DecidableEq, Repr

namespace Order

/-- Whether the text holds a character that separates the names of a path. -/
def hasSeparator (source : String) : Bool :=
  source.toList.any fun c => c = '/' || c = '\\'

/-- An order that can be carried out. -/
def create (source : String) (count : Nat) (policy : Policy) : Except RunError Order :=
  if Blank.trim source = "" then
    .error (.config (.invalid "source" "source identifier must not be empty"))
  else if hasSeparator source then
    .error (.config (.invalid "source" "source identifier must not contain path separators"))
  else if count = 0 then .error (.config (.invalid "chunks" "chunk count must be at least 1"))
  else .ok ⟨source, count, policy⟩

/-- The run over the chunks that were found. -/
def toRun (order : Order) (chunks : Except SplitError (List RawChunk)) : Except RunError Run :=
  match chunks with
  | .error error => .error (.split error)
  | .ok chunks =>
    if chunks.length = order.count then .ok ⟨order.source, chunks, order.policy⟩
    else .error (.split (.chunkCount order.source order.count chunks.length))

end Order

end Transcode
