import DurableFlow.Codec.Error

/-!
# Errors of the machine
-/

namespace DurableFlow

inductive MachineError where
  | serialization (cause : SerializationError)
  /-- The verifier has been started before. -/
  | doubleStart

namespace MachineError

def kind : MachineError → String
  | serialization cause => s!"Serialization/{cause.kind}"
  | doubleStart => "DoubleStart"

def message : MachineError → String
  | serialization cause => s!"serialization error: {cause.message}"
  | doubleStart => "checkpoint verifier already started"

end MachineError

end DurableFlow
