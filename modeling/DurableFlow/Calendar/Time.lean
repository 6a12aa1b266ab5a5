import DurableFlow.Calendar.Date

/-!
# Times of day, instants and durations

A leap second is the second 59 of some minute with a nanosecond part of 10⁹ or more.
-/

namespace DurableFlow

def nanosPerSecond : Nat := 1000000000

structure LocalTime where
  hour : Nat
  minute : Nat
  second : Nat
  nano : Nat
  deriving DecidableEq

namespace LocalTime

def of? (hour minute second nano : Nat) : Option LocalTime :=
  if hour < 24 ∧ minute < 60 ∧ second < 60 ∧ nano < 2 * nanosPerSecond ∧
      (nano < nanosPerSecond ∨ second = 59) then some ⟨hour, minute, second, nano⟩
  else none

def secondOfDay (t : LocalTime) : Nat := 3600 * t.hour + 60 * t.minute + t.second

/-- The fraction of the second in three, six or nine digits, and not at all where it is zero. -/
def fraction (nano : Nat) : String :=
  if nano = 0 then ""
  else if nano % 1000000 = 0 then "." ++ padded 3 (nano / 1000000)
  else if nano % 1000 = 0 then "." ++ padded 6 (nano / 1000)
  else "." ++ padded 9 nano

/-- A leap second is written as second 60. -/
protected def toString (t : LocalTime) : String :=
  let leap := nanosPerSecond ≤ t.nano
  let second := if leap then t.second + 1 else t.second
  let nano := if leap then t.nano - nanosPerSecond else t.nano
  s!"{padded 2 t.hour}:{padded 2 t.minute}:{padded 2 second}{fraction nano}"

end LocalTime

/-- A point in time: seconds since the epoch, which is the start of 1970, and nanoseconds. -/
structure Instant where
  seconds : Int
  nanos : Nat
  deriving DecidableEq

namespace Instant

def first : Int := 86400 * Gregorian.daysFromEpoch LocalDate.firstYear

def last : Int := 86400 * Gregorian.daysFromEpoch (LocalDate.lastYear + 1) - 1

/-- The instants are those of the days that are dates. -/
def of? (seconds : Int) (nanos : Nat) : Option Instant :=
  if first ≤ seconds ∧ seconds ≤ last ∧ nanos < 2 * nanosPerSecond ∧
      (nanos < nanosPerSecond ∨ seconds % 60 = 59) then some ⟨seconds, nanos⟩
  else none

end Instant

/-- A length of time in nanoseconds, positive or negative. -/
structure Duration where
  nanos : Int
  deriving DecidableEq

namespace Duration

/-- The longest duration is 2⁶³ - 1 milliseconds. -/
def limit : Int := 9223372036854775807 * 1000000

def ofNanos? (nanos : Int) : Option Duration :=
  if -limit ≤ nanos ∧ nanos ≤ limit then some ⟨nanos⟩ else none

/-- Whole seconds, which must be a duration already, and nanoseconds on top. -/
def of? (seconds nanos : Int) : Option Duration := do
  let whole ← ofNanos? (seconds * nanosPerSecond)
  ofNanos? (whole.nanos + nanos)

/-- Whole seconds, toward zero. -/
def seconds (d : Duration) : Int := d.nanos.tdiv nanosPerSecond

/-- What is left beside the whole seconds, with the sign of the duration. -/
def subsecond (d : Duration) : Int := d.nanos.tmod nanosPerSecond

end Duration

end DurableFlow
