/-
**Patterns.** In a pattern a star matches any text and a question mark any one character. `without`
removes the shortest or the longest match at one end of a text.
-/
import Transcode.Shell.Script

namespace Transcode.Shell.Pattern

/-- Whether the pattern matches the whole text. -/
def isMatch : (pattern text : List Char) → Bool
  | [], text => text.isEmpty
  | '*' :: pattern, [] => isMatch pattern []
  | '*' :: pattern, c :: text => isMatch pattern (c :: text) || isMatch ('*' :: pattern) text
  | '\\' :: literal :: pattern, c :: text => literal = c && isMatch pattern text
  | '?' :: pattern, _ :: text => isMatch pattern text
  | literal :: pattern, c :: text => literal = c && isMatch pattern text
  | _ :: _, [] => false
  termination_by pattern text => (pattern.length, text.length)

/-- The text without a match of the pattern at its end or its beginning. -/
def without (edge : Edge) (longest : Bool) (pattern text : List Char) : List Char :=
  let sizes := List.range (text.length + 1)
  let cut (size : Nat) : List Char × List Char :=
    match edge with
    | .front => (text.take size, text.drop size)
    | .back => (text.drop (text.length - size), text.take (text.length - size))
  match (if longest then sizes.reverse else sizes).find? fun size =>
      isMatch pattern (cut size).1 with
  | some size => (cut size).2
  | none => text

end Transcode.Shell.Pattern
