/-
**External tools.** A `Launcher` starts programs over a tree of files; the parts of the program that
need tools are told how to start them.
-/
import Transcode.Disk.Basic
import Transcode.Text.Blank
import Transcode.Text.Utf8

namespace Transcode

/-- A program that has ended. -/
structure Finished where
  status : ExitStatus
  output : Bytes
  diagnostics : Bytes
  deriving DecidableEq, Repr

namespace Finished

/-- What the program had to say about its failure. -/
def diagnosticText (finished : Finished) : String :=
  Blank.trim (Utf8.lossy finished.diagnostics)

end Finished

/-- Starts a program with arguments and waits for its end. -/
structure Launcher where
  launch : (program : String) → (arguments : List String) → Disk →
    Except IoError Finished × Disk

end Transcode
