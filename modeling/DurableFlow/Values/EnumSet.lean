import DurableFlow.Ordered

/-!
# Sets of constants of a named type

An empty set still knows what it is a set of.
-/

namespace DurableFlow

structure EnumSet where
  elementType : String
  /-- In increasing order. -/
  constants : List String
  deriving DecidableEq

namespace EnumSet

def empty (elementType : String) : EnumSet := ⟨elementType, []⟩

def ofList (elementType : String) (constants : List String) : EnumSet :=
  ⟨elementType, Ordered.ofList compare constants⟩

def contains (s : EnumSet) (constant : String) : Bool := s.constants.contains constant

end EnumSet

end DurableFlow
