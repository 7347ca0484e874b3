/-
**Reading shell scripts.** `Script.read` turns a text into a `Script`: lists of commands, joined by
operators, of which some are loops, choices or groups. Reserved words count only where a command
may begin.
-/
import Transcode.Shell.Scan

namespace Transcode.Shell

/-- Why a text is no script: something unexpected on a line. -/
structure ScriptError where
  line : Nat
  deriving DecidableEq, Repr

namespace Grammar

/-- A reader of a part of a script. -/
abbrev Read (α : Type) : Type :=
  StateT (List Placed) (Except ScriptError) α

/-- Something stands where it cannot. -/
def unexpected {α : Type} : Read α := do
  let line := ((← get).head?.map Placed.line).getD 1
  throw ⟨line⟩

/-- The line that has been reached. -/
def line : Read Nat := do
  return ((← get).head?.map Placed.line).getD 1

/-- Whether the next token is an unquoted word with this text. -/
def isNext (text : String) (placed : List Placed) : Bool :=
  match placed with
  | ⟨.word word, _⟩ :: _ => word.plain? == some text
  | ⟨.operator operator, _⟩ :: _ => operator == text
  | _ => false

/-- Takes the next token if it is a word or an operator with this text. -/
def accept (text : String) : Read Bool := do
  let placed ← get
  if isNext text placed then
    set placed.tail
    pure true
  else pure false

/-- Takes the next token, which must be a word or an operator with this text. -/
def expect (text : String) : Read Unit := do
  if !(← accept text) then unexpected

/-- Takes line ends. -/
def skipLines : Read Unit :=
  modify fun placed => placed.dropWhile fun next => next.token == .operator "\n"

/-- The words that end a list of commands. -/
def closers : List String :=
  ["then", "else", "elif", "fi", "do", "done", "\x7d", ")"]

/-- Whether a list of commands ends here. -/
def atEnd (placed : List Placed) : Bool :=
  placed.isEmpty || closers.any fun text => isNext text placed

/-- The stream of a number. -/
def descriptor? : Nat → Option Descriptor
  | 1 => some .output
  | 2 => some .diagnostics
  | _ => none

/-- The redirection with this arrow and the word after it. -/
def redirection? (arrow : Arrow) (number : Option Nat) (word : Word) : Option Redirection :=
  let descriptor := descriptor? (number.getD 1)
  match arrow with
  | .input => some (.input word)
  | .fresh => descriptor.map fun descriptor => .file descriptor word false
  | .extend => descriptor.map fun descriptor => .file descriptor word true
  | .same => do
    let text ← word.plain?
    let target ← text.toNat?
    some (.same (← descriptor) (← descriptor? target))

/-- The redirections that come next, and no other token. -/
def redirections : (fuel : Nat) → Read (List Redirection)
  | 0 => unexpected
  | fuel + 1 => do
    match ← get with
    | ⟨.arrow arrow number, _⟩ :: ⟨.word word, _⟩ :: rest =>
      set rest
      match redirection? arrow number word with
      | some redirection => return redirection :: (← redirections fuel)
      | none => unexpected
    | _ => return []

/-- The words that come next. -/
def words : (fuel : Nat) → Read (List Word)
  | 0 => unexpected
  | fuel + 1 => do
    match ← get with
    | ⟨.word word, _⟩ :: rest =>
      set rest
      return word :: (← words fuel)
    | _ => return []

/-- The words and redirections of a simple command. -/
def simple : (fuel : Nat) → Read (List Word × List Redirection)
  | 0 => unexpected
  | fuel + 1 => do
    let before ← redirections (fuel + 1)
    match ← words (fuel + 1) with
    | [] => return ([], before)
    | found => do
      let (more, after) ← simple fuel
      return (found ++ more, before ++ after)

/-- The setting that a word makes when it stands before the name of a command. -/
def setting? : Word → Option (String × Word)
  | ⟨.text text, false⟩ :: rest =>
    let chars := text.toList
    let name := chars.takeWhile Scan.isNameChar
    match chars.dropWhile Scan.isNameChar with
    | '=' :: value =>
      if name.isEmpty || (name.head?.map Char.isDigit).getD true then none
      else
        let start : Word := if value.isEmpty then [] else [⟨.text (String.ofList value), false⟩]
        some (String.ofList name, start ++ rest)
    | _ => none
  | _ => none

/-- The settings in front of a command, and the words of the command. -/
def settings : List Word → List (String × Word) × List Word
  | [] => ([], [])
  | word :: rest =>
    match setting? word with
    | some setting =>
      let (more, words) := settings rest
      (setting :: more, words)
    | none => ([], word :: rest)

/-- A body with redirections, if there are any. -/
def under (body : Script) (line : Nat) : List Redirection → Script
  | [] => body
  | redirections => .redirected body line redirections

/-- A simple command. -/
def simpleCommand (fuel : Nat) : Read Script := do
  let start ← line
  let (words, redirections) ← simple fuel
  if words.isEmpty && redirections.isEmpty then unexpected
  else
    let (settings, words) := settings words
    return under (.command start settings words) start redirections

/-- The words of a loop over words; without them it is over the arguments. -/
def loopWords (fuel : Nat) : Read (List Word) := do
  if ← accept "in" then words fuel else return [[⟨.parameter "@", true⟩]]

/-- A name. -/
def name : Read String := do
  match ← get with
  | ⟨.word word, _⟩ :: rest =>
    set rest
    match word.plain? with
    | some text => return text
    | none => unexpected
  | _ => unexpected

mutual

/-- A list of commands up to a word that ends it. -/
def list : (fuel : Nat) → Read Script
  | 0 => unexpected
  | fuel + 1 => do
    skipLines
    if atEnd (← get) then return .nothing
    let first ← chain fuel
    if (← accept ";") || (← accept "\n") then return .sequence first (← list fuel)
    else return first

/-- Pipes joined by the operators that look at their status. -/
def chain : (fuel : Nat) → Read Script
  | 0 => unexpected
  | fuel + 1 => do
    chainAfter fuel (← pipes fuel)

/-- The rest of a chain. -/
def chainAfter : (fuel : Nat) → Script → Read Script
  | 0, _ => unexpected
  | fuel + 1, first => do
    if ← accept "&&" then
      skipLines
      chainAfter fuel (.both first (← pipes fuel))
    else if ← accept "||" then
      skipLines
      chainAfter fuel (.either first (← pipes fuel))
    else return first

/-- Commands of which each reads what the one before it writes. -/
def pipes : (fuel : Nat) → Read Script
  | 0 => unexpected
  | fuel + 1 => do
    if ← accept "!" then return .inverse (← pipes fuel)
    let first ← command fuel
    if ← accept "|" then
      skipLines
      return .pipe first (← pipes fuel)
    else return first

/-- The part of a choice after its condition has been announced. -/
def choiceAfter : (fuel : Nat) → Read Script
  | 0 => unexpected
  | fuel + 1 => do
    let condition ← list fuel
    expect "then"
    let yes ← list fuel
    if ← accept "elif" then return .choice condition yes (← choiceAfter fuel)
    let no ← if ← accept "else" then list fuel else pure .nothing
    expect "fi"
    return .choice condition yes no

/-- The body of a loop. -/
def loopBody : (fuel : Nat) → Read Script
  | 0 => unexpected
  | fuel + 1 => do
    expect "do"
    let body ← list fuel
    expect "done"
    return body

/-- A command. -/
def command : (fuel : Nat) → Read Script
  | 0 => unexpected
  | fuel + 1 => do
    let start ← line
    let finish (body : Script) : Read Script :=
      return under body start (← redirections (fuel + 1))
    if ← accept "if" then finish (← choiceAfter fuel)
    else if ← accept "while" then
      let condition ← list fuel
      finish (.loop condition (← loopBody fuel) true)
    else if ← accept "until" then
      let condition ← list fuel
      finish (.loop condition (← loopBody fuel) false)
    else if ← accept "for" then
      let name ← name
      let words ← loopWords (fuel + 1)
      let _ ← accept ";"
      skipLines
      finish (.each name words (← loopBody fuel))
    else if ← accept "\x7b" then
      let body ← list fuel
      expect "\x7d"
      finish body
    else if ← accept "(" then
      let body ← list fuel
      expect ")"
      finish (.inside body)
    else simpleCommand (fuel + 1)

end

end Grammar

/-- The script that a text is. -/
def Script.read (text : String) : Except ScriptError Script :=
  match Scan.tokens text with
  | .error line => .error ⟨line⟩
  | .ok placed =>
    match (Grammar.list (8 * placed.length + 8)).run placed with
    | .error error => .error error
    | .ok (script, []) => .ok script
    | .ok (_, next :: _) => .error ⟨next.line⟩

end Transcode.Shell
