/-!
# Sets of code points given by their runs

A set of code points is written as the increasing list of places where membership changes: the
first code point of its first run, the first one after that run, and so on.
-/

namespace DurableFlow.Text

/-- Is `n` in the set with these turning points, when code points before them are in it iff `inside`? -/
def inRuns (inside : Bool) : List Nat → Nat → Bool
  | [], _ => inside
  | turn :: turns, n => if n < turn then inside else inRuns (!inside) turns n

end DurableFlow.Text
