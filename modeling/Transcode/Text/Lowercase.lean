/-
**Lowercase text.** `Lowercase.text` maps every letter to its lowercase form. Two letters need more
than the table: capital dotted I becomes two characters, and capital sigma has a form of its own
at the end of a word (`Lowercase.endsWord`).
-/
import Transcode.Text.CaseData

namespace Transcode.Lowercase

/-- The lowercase form of a letter beyond ASCII, or the character itself. -/
def letter (c : Char) : Char :=
  let run := CaseData.lowercaseRuns.find? fun (first, last, step, _) =>
    first ≤ c.toNat && c.toNat ≤ last && (c.toNat - first) % step = 0
  match run with
  | some (_, _, _, distance) => Char.ofNat (Int.toNat (c.toNat + distance))
  | none => c

/-- Whether a cased character comes first once ignorable ones are passed over. -/
def meetsCased (text : List Char) : Bool :=
  match text.dropWhile (CaseData.holds CaseData.caseIgnorable) with
  | [] => false
  | c :: _ => CaseData.holds CaseData.cased c

/-- Whether the place between the two texts, the first in reverse, is the end of a word. -/
def endsWord (before after : List Char) : Bool :=
  meetsCased before && !meetsCased after

/-- The lowercase form of a character between the two texts, the first in reverse. -/
def inContext (before : List Char) (c : Char) (after : List Char) : List Char :=
  if c.toNat < 0x80 then [c.toLower]
  else if c = 'Σ' then [if endsWord before after then 'ς' else 'σ']
  else if c = 'İ' then ['i', '\u0307']
  else [letter c]

/-- The lowercase form of text that follows the given one, which is in reverse. -/
def characters (before : List Char) : List Char → List Char
  | [] => []
  | c :: after => inContext before c after ++ characters (c :: before) after

/-- The lowercase form of a text. -/
def text (source : String) : String :=
  String.ofList (characters [] source.toList)

end Transcode.Lowercase
