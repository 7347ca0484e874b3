/-
**Instants**, read and written as a date, a time of day and an offset.

* `Instant.read` accepts a `T` or a blank between date and time, fields with fewer digits, blanks
  between fields, and any offset of less than a day.
* `Instant.text` writes the instant without an offset, marked by a `Z`, and with as many groups of
  three fraction digits as it needs.
-/
import Transcode.Text.Blank
import Transcode.Text.Number
import Transcode.Time.Calendar
import Transcode.Time.Span

namespace Transcode

/-- A moment in time. A leap second is the second before it with more than a full second of
nanoseconds. -/
structure Instant where
  day : Int
  second : Nat
  nanos : Nat
  deriving DecidableEq, Repr

namespace Instant

/-- The seconds of a day. -/
def secondsPerDay : Nat := 86400

/-! ### Reading -/

/-- The text after its leading blanks. -/
def skipBlanks (text : List Char) : List Char :=
  text.dropWhile Blank.isBlank

/-- A field of one to `width` digits, after blanks. -/
def field? (width : Nat) (text : List Char) : Option (Nat × List Char) :=
  let text := skipBlanks text
  let digits := (text.take width).takeWhile Char.isDigit
  (Number.ofDigits? digits).map fun value => (value, text.drop digits.length)

/-- A field whose value lies in a range. -/
def boundedField? (first last : Nat) (text : List Char) : Option (Nat × List Char) := do
  let (value, rest) ← field? 2 text
  if first ≤ value ∧ value ≤ last then some (value, rest) else none

/-- The year. With a sign it may have any number of digits. -/
def year? (text : List Char) : Option (Int × List Char) :=
  match skipBlanks text with
  | '-' :: rest => digits? rest fun value => -(value : Int)
  | '+' :: rest => digits? rest fun value => (value : Int)
  | rest => (field? 4 rest).map fun (value, rest) => ((value : Int), rest)
where
  /-- All digits at the front; there is no blank before them. -/
  digits? (text : List Char) (sign : Nat → Int) : Option (Int × List Char) :=
    (Number.ofDigits? (text.takeWhile Char.isDigit)).map fun value =>
      (sign value, text.dropWhile Char.isDigit)

/-- A character after blanks. -/
def separator? (expected : Char) (text : List Char) : Option (List Char) :=
  match skipBlanks text with
  | c :: rest => if c = expected then some rest else none
  | [] => none

/-- The nanoseconds of a fraction. Digits after the ninth count for nothing. -/
def fraction? : List Char → Option (Nat × List Char)
  | '.' :: rest =>
    let digits := (rest.takeWhile Char.isDigit).take 9
    (Number.ofDigits? digits).map fun value =>
      (value * Nat.pow 10 (9 - digits.length), rest.dropWhile Char.isDigit)
  | text => some (0, text)

/-- A pair of digits. -/
def pair? : List Char → Option (Nat × List Char)
  | high :: low :: rest => (Number.ofDigits? [high, low]).map fun value => (value, rest)
  | _ => none

/-- The hours and minutes of an offset as seconds. -/
def offsetSeconds? (text : List Char) : Option (Nat × List Char) := do
  let (hours, rest) ← pair? text
  let (minutes, rest) ← pair? (rest.dropWhile fun c => c = ':' || Blank.isBlank c)
  if minutes < 60 then some (hours * 3600 + minutes * 60, rest) else none

/-- The offset from universal time. -/
def offset? : List Char → Option (Int × List Char)
  | '+' :: rest => (offsetSeconds? rest).map fun (seconds, rest) => ((seconds : Int), rest)
  | '-' :: rest => (offsetSeconds? rest).map fun (seconds, rest) => (-(seconds : Int), rest)
  | '\u2212' :: rest => (offsetSeconds? rest).map fun (seconds, rest) => (-(seconds : Int), rest)
  | c :: rest =>
    if c.toLower = 'z' then some (0, rest)
    else if ((c :: rest).take 3).map Char.toLower = ['u', 't', 'c'] then some (0, rest.drop 2)
    else none
  | [] => none

/-- The mark between date and time. -/
def timeMark? : List Char → Option (List Char)
  | c :: rest => if c = 'T' ∨ c = 't' ∨ c = ' ' then some rest else none
  | [] => none

/-- The instant that is shown as the given date and time where clocks are ahead by the offset. -/
def ofLocal? (date : Date) (second nanos : Nat) (offset : Int) : Option Instant :=
  let utc := (second : Int) - offset
  let day := date.toDays + utc / secondsPerDay
  let year := (Date.ofDays day).year
  if offset.natAbs < secondsPerDay ∧ Date.firstYear ≤ year ∧ year ≤ Date.lastYear then
    some ⟨day, (utc % secondsPerDay).toNat, nanos⟩
  else none

/-- Reads an instant. -/
def read (text : String) : Option Instant := do
  let (year, text) ← year? text.toList
  let (month, text) ← boundedField? 1 12 (← separator? '-' text)
  let (day, text) ← boundedField? 1 31 (← separator? '-' text)
  let (hour, text) ← boundedField? 0 23 (← timeMark? text)
  let (minute, text) ← boundedField? 0 59 (← separator? ':' text)
  let (second, text) ← boundedField? 0 60 (← separator? ':' text)
  let (nanos, text) ← fraction? text
  let (offset, text) ← offset? (skipBlanks text)
  let date ← Date.ofFields? year month day
  if skipBlanks text ≠ [] then none
  else if second = 60 then
    ofLocal? date (hour * 3600 + minute * 60 + 59) (Span.nanosPerSecond + nanos) offset
  else ofLocal? date (hour * 3600 + minute * 60 + second) nanos offset

/-! ### Writing -/

/-- A year of four digits, or of more with a sign. -/
def yearText (year : Int) : String :=
  if 0 ≤ year ∧ year ≤ 9999 then Number.padded 4 year.toNat
  else (if year < 0 then "-" else "+") ++ Number.padded 4 year.natAbs

/-- No digits, or three, six or nine of them after a point. -/
def fractionText (nanos : Nat) : String :=
  if nanos = 0 then ""
  else if nanos % 1000000 = 0 then "." ++ Number.padded 3 (nanos / 1000000)
  else if nanos % 1000 = 0 then "." ++ Number.padded 6 (nanos / 1000)
  else "." ++ Number.padded 9 nanos

/-- The written form, in universal time. -/
def text (instant : Instant) : String :=
  let date := Date.ofDays instant.day
  let leap := instant.nanos / Span.nanosPerSecond
  yearText date.year ++ "-" ++ Number.padded 2 date.month ++ "-" ++ Number.padded 2 date.day ++
    "T" ++ Number.padded 2 (instant.second / 3600) ++ ":" ++
    Number.padded 2 (instant.second / 60 % 60) ++ ":" ++
    Number.padded 2 (instant.second % 60 + leap) ++
    fractionText (instant.nanos % Span.nanosPerSecond) ++ "Z"

end Instant

end Transcode
