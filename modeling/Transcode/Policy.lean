/-
**Write policies**: what a run does about artifacts that exist already.
-/
import Transcode.Text.Vocabulary

namespace Transcode

/-- How stored artifacts are treated. -/
inductive Policy where
  /-- Tasks whose outputs are all present are skipped. -/
  | resume
  /-- Everything is computed again and replaced. -/
  | overwrite
  /-- A stored artifact in the way is an error. -/
  | strict
  deriving DecidableEq, Repr

namespace Policy

/-- The word for the policy. -/
def name : Policy → String
  | resume => "resume"
  | overwrite => "overwrite"
  | strict => "strict"

/-- The words for policies. -/
def vocabulary : Vocabulary Policy where
  subject := "write policy"
  plural := "policies"
  words := [resume, overwrite, strict].map fun policy => (policy.name, policy)
  synonyms := []
  trims := true

/-- Reads the word for a policy. -/
def read (text : String) : Except ValueError Policy :=
  vocabulary.read text

end Policy

end Transcode
