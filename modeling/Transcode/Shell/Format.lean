/-
**Formatted output.** `Format.render` fills the directives of a format with arguments, and begins
the format again while arguments are left. `Format.unescape` resolves the escapes of a text.
-/
import Transcode.Shell.Sum

namespace Transcode.Shell

/-- What a directive prints. -/
inductive Conversion where
  | text
  | escapedText
  | character
  | decimal
  | octal
  | hexadecimal
  deriving DecidableEq, Repr

/-- A part of a format. -/
inductive FormatPart where
  | literal (text : String)
  | directive (left zeros : Bool) (width : Nat) (precision : Option Nat) (conversion : Conversion)
  | faulty
  deriving DecidableEq, Repr

namespace Format

/-- The character of a one-letter escape. -/
def escape? : Char → Option Char
  | 'n' => some '\n'
  | 't' => some '\t'
  | 'r' => some '\r'
  | 'a' => some '\x07'
  | 'b' => some '\x08'
  | 'f' => some '\x0c'
  | 'v' => some '\x0b'
  | '\\' => some '\\'
  | _ => none

/-- Text with its escapes resolved; a backslash before anything else stays. -/
def unescape : List Char → List Char
  | [] => []
  | '\\' :: c :: rest =>
    match escape? c with
    | some escaped => escaped :: unescape rest
    | none => '\\' :: c :: unescape rest
  | c :: rest => c :: unescape rest

/-- The conversion of a letter. -/
def conversion? : Char → Option Conversion
  | 's' => some .text
  | 'b' => some .escapedText
  | 'c' => some .character
  | 'd' => some .decimal
  | 'i' => some .decimal
  | 'u' => some .decimal
  | 'o' => some .octal
  | 'x' => some .hexadecimal
  | _ => none

/-- The directive after its percent sign, and what follows it. -/
def directive (text : List Char) : FormatPart × List Char :=
  let isFlag (c : Char) : Bool := ['-', '0', '+', ' ', '#'].contains c
  let flags := text.takeWhile isFlag
  let text := text.dropWhile isFlag
  let width := Nat.ofDigitChars 10 (text.takeWhile Char.isDigit) 0
  let text := text.dropWhile Char.isDigit
  let (precision, text) :=
    match text with
    | '.' :: rest =>
      (some (Nat.ofDigitChars 10 (rest.takeWhile Char.isDigit) 0), rest.dropWhile Char.isDigit)
    | text => (none, text)
  match text with
  | [] => (.faulty, [])
  | letter :: rest =>
    match conversion? letter with
    | some conversion =>
      (.directive (flags.contains '-') (flags.contains '0') width precision conversion, rest)
    | none => (.faulty, [])

/-- The parts of a format. Nothing after a faulty directive counts. -/
def parts : (fuel : Nat) → List Char → List FormatPart
  | 0, _ => []
  | fuel + 1, text =>
    match text with
    | [] => []
    | '%' :: '%' :: rest => .literal "%" :: parts fuel rest
    | '%' :: rest =>
      let (part, rest) := directive rest
      part :: parts fuel rest
    | '\\' :: c :: rest => .literal (String.ofList (unescape ['\\', c])) :: parts fuel rest
    | c :: rest => .literal (String.singleton c) :: parts fuel rest

/-- Text brought to a width. -/
def fill (left zeros : Bool) (width : Nat) (text : List Char) : String :=
  if left then String.ofList (text.rightpad width ' ')
  else if zeros then
    match text with
    | '-' :: digits => String.ofList ('-' :: digits.leftpad (width - 1) '0')
    | digits => String.ofList (digits.leftpad width '0')
  else String.ofList (text.leftpad width ' ')

/-- The digits of a number in a base, at least as many as asked for. -/
def digits (base : Nat) (value : Int) (precision : Option Nat) : List Char :=
  let magnitude := (Nat.toDigits base value.natAbs).leftpad (precision.getD 1) '0'
  if value < 0 then '-' :: magnitude else magnitude

/-- What a part prints with an argument, and whether the argument fits. -/
def printed (part : FormatPart) (argument : String) : String × Bool :=
  match part with
  | .literal text => (text, true)
  | .faulty => ("", false)
  | .directive left zeros width precision conversion =>
    let shown (text : List Char) : String :=
      fill left false width (match precision with | some most => text.take most | none => text)
    let number (base : Nat) : String × Bool :=
      let value? := if argument.isEmpty then some 0 else Sum.number? argument
      let zeros := zeros && precision.isNone
      (fill left zeros width (digits base (value?.getD 0) precision), value?.isSome)
    match conversion with
    | .text => (shown argument.toList, true)
    | .escapedText => (shown (unescape argument.toList), true)
    | .character => (shown (argument.toList.take 1), true)
    | .decimal => number 10
    | .octal => number 8
    | .hexadecimal => number 16

/-- Whether a part takes an argument. -/
def takesArgument : FormatPart → Bool
  | .directive .. => true
  | _ => false

/-- One pass through a format: what is printed, whether all went well, and the arguments left. -/
def pass : List FormatPart → List String → String × Bool × List String
  | [], arguments => ("", true, arguments)
  | part :: parts, arguments =>
    let (text, fits) := printed part (arguments.headD "")
    let (more, fit, left) := pass parts (if takesArgument part then arguments.tail else arguments)
    (text ++ more, fits && fit, left)

/-- Passes through a format while there are arguments, at least one and at most `fuel + 1`. -/
def passes (parts : List FormatPart) : (fuel : Nat) → List String → String × Bool
  | 0, arguments => let (text, fits, _) := pass parts arguments; (text, fits)
  | fuel + 1, arguments =>
    let (text, fits, left) := pass parts arguments
    if left.isEmpty || !parts.any takesArgument then (text, fits)
    else
      let (more, fit) := passes parts fuel left
      (text ++ more, fits && fit)

/-- The format filled with the arguments, and whether all of them fit. -/
def render (format : String) (arguments : List String) : String × Bool :=
  passes (parts (format.length + 1) format.toList) arguments.length arguments

end Format

end Transcode.Shell
