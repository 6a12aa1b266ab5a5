import DurableFlow.Calendar.Time

/-!
# Zones and offsets from UTC

An offset is a number of seconds east of UTC, less than a day in either direction. Values that are read
or built by the host keep within 18 hours.
-/

namespace DurableFlow

structure ZoneId where
  id : String
  deriving DecidableEq

namespace ZoneId

def isZoneChar (c : Char) : Bool := c.isAlphanum || "/_-+:".toList.contains c

def of (id : String) : Except InvalidValue ZoneId :=
  let cs := id.toList
  if cs ≠ [] ∧ cs.head? ≠ some '/' ∧ cs.getLast? ≠ some '/' ∧ cs.all isZoneChar then .ok ⟨id⟩
  else .error (.zone id)

def utc : ZoneId := ⟨"UTC"⟩

end ZoneId

namespace Offset

def maxSeconds : Nat := 18 * 3600

/-- Checks an offset in seconds. -/
def check (seconds : Int) : Except InvalidValue Int :=
  if seconds.natAbs ≤ maxSeconds then .ok seconds else .error (.temporal "offset" seconds)

/-- Can a clock be this far from UTC at all? -/
def isProper (seconds : Int) : Bool := -86400 < seconds && seconds < 86400

end Offset

/-- Is the date and time at this offset also one in UTC? It is not where the shift leaves the calendar. -/
def hasUtc (date : LocalDate) (time : LocalTime) (offset : Int) : Bool :=
  let utc := (time.secondOfDay : Int) - offset
  (0 ≤ utc || date ≠ LocalDate.first) && (utc < 86400 || date ≠ LocalDate.last)

end DurableFlow
