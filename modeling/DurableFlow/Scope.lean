import DurableFlow.Bindings
import DurableFlow.Serializer.Basic

/-!
# Resolution scopes

A scope holds the object types that a reader can build. A later type of one wire name takes the name over.
-/

namespace DurableFlow

structure Scope where
  /-- Scopes are counted from 1. -/
  id : Nat
  label : String
  byName : Bindings String ObjectType
  byType : Bindings Ty ObjectType

namespace Scope

def new (id : Nat) (label : String) : Scope := ⟨id, label, .empty, .empty⟩

def load (s : Scope) (c : ObjectType) : Scope :=
  { s with byName := s.byName.set c.name c, byType := s.byType.set c.type c }

def resolve? (s : Scope) (name : String) : Option ObjectType := s.byName.get? name

def objectType? (s : Scope) (t : Ty) : Option ObjectType := s.byType.get? t

/-- How many names can be resolved. -/
def size (s : Scope) : Nat := s.byName.size

end Scope

end DurableFlow
