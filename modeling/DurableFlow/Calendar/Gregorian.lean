/-!
# The proleptic Gregorian calendar
-/

namespace DurableFlow.Gregorian

def isLeap (year : Int) : Bool := year % 4 = 0 && (year % 100 ≠ 0 || year % 400 = 0)

/-- The number of days in a month, for months from 1 to 12. -/
def daysInMonth (year : Int) (month : Nat) : Nat :=
  if month = 2 then if isLeap year then 29 else 28
  else if month = 4 ∨ month = 6 ∨ month = 9 ∨ month = 11 then 30
  else 31

/-- Days from 1 January of year 1 to 1 January of `year`. -/
def daysBefore (year : Int) : Int :=
  let past := year - 1
  365 * past + past / 4 - past / 100 + past / 400

/-- Days from the epoch, 1 January 1970, to 1 January of `year`. -/
def daysFromEpoch (year : Int) : Int := daysBefore year - daysBefore 1970

end DurableFlow.Gregorian
