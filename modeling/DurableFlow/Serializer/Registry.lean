import DurableFlow.Bindings
import DurableFlow.Serializer.Basic

/-!
# Serializer registries

A registry binds serializers to the types they write and to their descriptors. What comes with the library
is bound unless the type is bound already; what is contributed replaces another serializer of its type.
-/

namespace DurableFlow

structure Registry where
  byType : Bindings Ty Serializer
  byDescriptor : Bindings String Serializer

/-- What a registration did. -/
inductive Registration where
  | added
  /-- The same serializer was bound already. -/
  | unchanged
  | replaced (previous : String)
  | kept (existing : String)
  deriving DecidableEq

namespace Registry

def empty : Registry := ⟨.empty, .empty⟩

/-- Does a serializer of another type have this descriptor? -/
def conflicts (r : Registry) (s : Serializer) : Bool :=
  (r.byDescriptor.get? s.descriptor).any (·.target ≠ s.target)

/-- Binds a serializer in place of the one bound to its type, if there is one. -/
def bind (r : Registry) (s : Serializer) : Registry :=
  let byDescriptor := match r.byType.get? s.target with
    | some current => r.byDescriptor.erase current.descriptor
    | none => r.byDescriptor
  ⟨r.byType.set s.target s, byDescriptor.set s.descriptor s⟩

/-- Registers a serializer; `replace` tells if another one of its type gives way. -/
def add (r : Registry) (replace : Bool) (s : Serializer) :
    Except SerializationError (Registry × Registration) :=
  if r.conflicts s then .error (.descriptorConflict s.descriptor)
  else match r.byType.get? s.target with
    | none => .ok (r.bind s, .added)
    | some current =>
      if current.id = s.id then .ok (r, .unchanged)
      else if replace then .ok (r.bind s, .replaced current.id)
      else .ok (r, .kept current.id)

/-- Registers a contributed serializer. -/
def register (r : Registry) (s : Serializer) : Except SerializationError (Registry × Registration) :=
  r.add true s

/-- Registers a serializer unless its type has one. -/
def registerDefault (r : Registry) (s : Serializer) :
    Except SerializationError (Registry × Registration) :=
  r.add false s

def size (r : Registry) : Nat := r.byType.size

/-- The bound descriptors in increasing order. -/
def descriptors (r : Registry) : List String := r.byDescriptor.keys.mergeSort fun a b => a ≤ b

end Registry

end DurableFlow
