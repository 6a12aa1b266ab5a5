import DurableFlow.Calendar.Gregorian
import DurableFlow.Calendar.Padded
import DurableFlow.Values.Invalid

/-!
# Dates and parts of dates

Dates run from 1 January of year -262143 to 31 December of year 262142. A year alone, a year with a month
and a period may hold any 32-bit numbers, and what the calendar says of them is limited to years that
have dates.
-/

namespace DurableFlow

structure LocalDate where
  year : Int
  month : Nat
  day : Nat
  deriving DecidableEq

namespace LocalDate

def firstYear : Int := -262143

def lastYear : Int := 262142

def of? (year : Int) (month day : Nat) : Option LocalDate :=
  if firstYear ≤ year ∧ year ≤ lastYear ∧ 1 ≤ month ∧ month ≤ 12 ∧ 1 ≤ day ∧
      day ≤ Gregorian.daysInMonth year month then some ⟨year, month, day⟩
  else none

def first : LocalDate := ⟨firstYear, 1, 1⟩

def last : LocalDate := ⟨lastYear, 12, 31⟩

/-- The day before, if it is a date. -/
def pred? (d : LocalDate) : Option LocalDate :=
  if d.day ≠ 1 then some { d with day := d.day - 1 }
  else if d.month ≠ 1 then
    some { d with month := d.month - 1, day := Gregorian.daysInMonth d.year (d.month - 1) }
  else if d.year ≠ firstYear then some ⟨d.year - 1, 12, 31⟩
  else none

/-- Years of one to four digits are written with four, others also with their sign. -/
protected def toString (d : LocalDate) : String :=
  let year := padded 4 d.year.natAbs
  let sign := if d.year < 0 then "-" else if 9999 < d.year then "+" else ""
  s!"{sign}{year}-{padded 2 d.month}-{padded 2 d.day}"

end LocalDate

/-- A year has a 29 February or not; years without dates have none. -/
def isLeapYear (year : Int) : Bool := (LocalDate.of? year 2 29).isSome

def checkMonth (month : Nat) : Except InvalidValue Unit :=
  if 1 ≤ month ∧ month ≤ 12 then .ok () else .error (.temporal "month" month)

structure YearMonth where
  year : Int
  month : Nat
  deriving DecidableEq

namespace YearMonth

def of (year : Int) (month : Nat) : Except InvalidValue YearMonth := do
  checkMonth month
  return ⟨year, month⟩

/-- The first day of the month after this one, if it is a date. -/
def nextFirst? (m : YearMonth) : Option LocalDate :=
  if m.month = 12 then LocalDate.of? (m.year + 1) 1 1 else LocalDate.of? m.year (m.month + 1) 1

/-- The day of the month on the eve of the next one, and 31 where the calendar has no such date. -/
def length (m : YearMonth) : Nat :=
  match m.nextFirst?.bind LocalDate.pred? with
  | some d => d.day
  | none => 31

end YearMonth

/-- A day of the year, 29 February among them. -/
structure MonthDay where
  month : Nat
  day : Nat
  deriving DecidableEq

def MonthDay.of (month day : Nat) : Except InvalidValue MonthDay := do
  checkMonth month
  if (LocalDate.of? 2000 month day).isNone then throw (.temporal "day" day)
  return ⟨month, day⟩

/-- An amount of years, months and days, each of which may be negative. -/
structure Period where
  years : Int
  months : Int
  days : Int
  deriving DecidableEq

namespace Period

def zero : Period := ⟨0, 0, 0⟩

protected def toString (p : Period) : String :=
  let part (n : Int) (unit : String) := if n = 0 then "" else s!"{n}{unit}"
  if p = zero then "P0D" else "P" ++ part p.years "Y" ++ part p.months "M" ++ part p.days "D"

end Period

end DurableFlow
