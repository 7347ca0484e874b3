/-
**The calendar**, counted in days from the first of January 1970. Years run on before the first
one: the year zero comes before it, and then the negative years.
-/

namespace Transcode

/-- A day of the calendar. -/
structure Date where
  year : Int
  month : Nat
  day : Nat
  deriving DecidableEq, Repr

namespace Date

/-- Whether the year has 366 days. -/
def isLeap (year : Int) : Bool :=
  year % 4 = 0 && (year % 100 ≠ 0 || year % 400 = 0)

/-- The number of days in a month. -/
def daysInMonth (year : Int) : Nat → Nat
  | 2 => if isLeap year then 29 else 28
  | 4 | 6 | 9 | 11 => 30
  | _ => 31

/-- The earliest year. -/
def firstYear : Int := -262143

/-- The latest year. -/
def lastYear : Int := 262142

/-- The date, if there is such a day. -/
def ofFields? (year : Int) (month day : Nat) : Option Date :=
  if firstYear ≤ year ∧ year ≤ lastYear ∧ 1 ≤ month ∧ month ≤ 12 ∧ 1 ≤ day ∧
      day ≤ daysInMonth year month then
    some ⟨year, month, day⟩
  else none

/-- The days from the first of January of the year zero to that of the given year. -/
def daysBeforeYear (year : Int) : Int :=
  year * 365 + (year + 3) / 4 - (year + 99) / 100 + (year + 399) / 400

/-- The days of the year before the month. -/
def daysBeforeMonth (year : Int) (month : Nat) : Nat :=
  (List.range (month - 1)).foldl (fun days earlier => days + daysInMonth year (earlier + 1)) 0

/-- The days from the first of January of the year zero to that of 1970. -/
def epoch : Int := 719528

/-- The number of the day. -/
def toDays (date : Date) : Int :=
  daysBeforeYear date.year + daysBeforeMonth date.year date.month + (date.day - 1 : Nat) - epoch

/-- The month and the day at a position in the year, both from a given month on. -/
def monthAndDay (year : Int) (month position : Nat) : (fuel : Nat) → Nat × Nat
  | 0 => (month, position + 1)
  | fuel + 1 =>
    let length := daysInMonth year month
    if position < length then (month, position + 1)
    else monthAndDay year (month + 1) (position - length) fuel

/-- The date of a day. The year is at most one off the quotient by its mean length. -/
def ofDays (days : Int) : Date :=
  let count := days + epoch
  let guess := count * 400 / 146097
  let year :=
    if daysBeforeYear (guess + 1) ≤ count then guess + 1
    else if count < daysBeforeYear guess then guess - 1
    else guess
  let (month, day) := monthAndDay year 1 (count - daysBeforeYear year).toNat 12
  ⟨year, month, day⟩

end Date

end Transcode
