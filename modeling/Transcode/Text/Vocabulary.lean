/-
**Options that take one of a few words.** A `Vocabulary` lists the words with their values;
`Vocabulary.read` accepts a word in any letter case, and the error names the lowercase form of what
was given and the words that are valid.
-/
import Transcode.Error.Value
import Transcode.Text.Blank
import Transcode.Text.Lowercase

namespace Transcode

/-- The words of an option. -/
structure Vocabulary (α : Type) where
  subject : String
  plural : String
  words : List (String × α)
  /-- Other spellings, which are accepted and not advertised. -/
  synonyms : List (String × α)
  /-- Whether blanks around the word are ignored. -/
  trims : Bool

namespace Vocabulary

variable {α : Type}

/-- The form of a given word that is looked up. -/
def normalise (vocabulary : Vocabulary α) (given : String) : String :=
  Lowercase.text (if vocabulary.trims then Blank.trim given else given)

/-- The value of a word. -/
def read (vocabulary : Vocabulary α) (given : String) : Except ValueError α :=
  let word := vocabulary.normalise given
  match (vocabulary.words ++ vocabulary.synonyms).lookup word with
  | some value => .ok value
  | none =>
    .error (.unrecognised vocabulary.subject vocabulary.plural word
      (vocabulary.words.map Prod.fst))

end Vocabulary

end Transcode
