import DurableFlow.Policy
import DurableFlow.Scope
import DurableFlow.Serializer.Registry
import DurableFlow.Serializer.Simple

/-!
# What writing and reading depend on
-/

namespace DurableFlow

structure Setting where
  /-- The types whose values can be read back from their own descriptors. -/
  natives : List Ty
  registry : Registry
  scope : Scope
  policy : Policy

namespace Setting

/-- Is there a serializer with this descriptor or an object type of this name? -/
def knows (c : Setting) (name : String) : Bool :=
  (c.registry.byDescriptor.get? name).isSome || (c.scope.resolve? name).isSome

end Setting

namespace Serializer

/-- What a call of the serializer comes to for its caller if it breaks off. -/
def guard {α : Type} (s : Serializer) (operation : String) : Except Abort α → Except Abort α
  | .error .panic =>
    if s.isolated then .error (.error (.customSerializer s.id s!"panicked during {operation}"))
    else .error .panic
  | r => r

/-- The outcome of a conversion made for the serializer. -/
def report {α : Type} (s : Serializer) : Except HostFault α → Except Abort α
  | .ok a => .ok a
  | .error (.reported e) => .error (.error (.customSerializer s.id e.line))
  | .error .panic => .error .panic

end Serializer

end DurableFlow
