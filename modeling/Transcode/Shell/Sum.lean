/-
**Sums in a script.** `Sum.value?` is the value of an expression with the four operations, the
remainder and parentheses. A name stands for the number in the variable of that name, and for zero
where there is none; a dollar sign in front changes nothing.
-/
import Transcode.Shell.Scan

namespace Transcode.Shell.Sum

/-- The number that a text is, with blanks around it and perhaps a sign. -/
def number? (text : String) : Option Int :=
  let trimmed := text.trimAscii.toString
  match trimmed.toList with
  | '+' :: rest => (String.ofList rest).toNat?.map Int.ofNat
  | _ => trimmed.toInt?

/-- The text after its leading blanks. -/
def skipBlanks (text : List Char) : List Char :=
  text.dropWhile Char.isWhitespace

/-- A value and what follows it. -/
abbrev Reading := Option (Int × List Char)

/-- One of the operations on products. -/
def scale (sign : Char) (left right : Int) : Option Int :=
  if sign = '*' then some (left * right)
  else if right = 0 then none
  else if sign = '/' then some (left.tdiv right)
  else some (left.tmod right)

mutual

/-- A number, a name, a signed or a parenthesised expression. -/
def atom (value : String → String) : (fuel : Nat) → List Char → Reading
  | 0, _ => none
  | fuel + 1, text =>
    match skipBlanks text with
    | '(' :: rest =>
      match terms value fuel rest with
      | some (inner, rest) =>
        match skipBlanks rest with
        | ')' :: rest => some (inner, rest)
        | _ => none
      | none => none
    | '-' :: rest => (atom value fuel rest).map fun (inner, rest) => (-inner, rest)
    | '+' :: rest => atom value fuel rest
    | '$' :: rest => do
      let (name, rest) ← Scan.parameterName rest
      some ((number? (value name)).getD 0, rest)
    | text =>
      let word := text.takeWhile Scan.isNameChar
      let rest := text.dropWhile Scan.isNameChar
      match word with
      | [] => none
      | first :: _ =>
        if first.isDigit then (number? (String.ofList word)).map fun number => (number, rest)
        else some ((number? (value (String.ofList word))).getD 0, rest)

/-- A product, and what it is multiplied with further on. -/
def factors (value : String → String) : (fuel : Nat) → (left : Int) → List Char → Reading
  | 0, _, _ => none
  | fuel + 1, left, text =>
    match skipBlanks text with
    | sign :: rest =>
      if ['*', '/', '%'].contains sign then do
        let (right, rest) ← atom value fuel rest
        factors value fuel (← scale sign left right) rest
      else some (left, sign :: rest)
    | [] => some (left, [])

/-- A sum, and what is added further on. -/
def further (value : String → String) : (fuel : Nat) → (left : Int) → List Char → Reading
  | 0, _, _ => none
  | fuel + 1, left, text =>
    match skipBlanks text with
    | sign :: rest =>
      if sign = '+' || sign = '-' then do
        let (first, rest) ← atom value fuel rest
        let (right, rest) ← factors value fuel first rest
        further value fuel (if sign = '+' then left + right else left - right) rest
      else some (left, sign :: rest)
    | [] => some (left, [])

/-- An expression. -/
def terms (value : String → String) : (fuel : Nat) → List Char → Reading
  | 0, _ => none
  | fuel + 1, text => do
    let (first, rest) ← atom value fuel text
    let (product, rest) ← factors value fuel first rest
    further value fuel product rest

end

/-- The value of an expression, where `value` gives the text of each name. -/
def value? (value : String → String) (expression : String) : Option Int :=
  match terms value (2 * expression.length + 4) expression.toList with
  | some (result, rest) => if (skipBlanks rest).isEmpty then some result else none
  | none => none

end Transcode.Shell.Sum
