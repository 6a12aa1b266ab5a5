import DurableFlow.Magic
import DurableFlow.Values.Invalid
import DurableFlow.Wire.Fault

/-!
# Errors of writing and reading values
-/

namespace DurableFlow

inductive SerializationError where
  /-- A batch repeats a name or has one that is admitted already. -/
  | duplicateAdmission (names : List String)
  | unadmittedType (name : String) (policy : Nat)
  /-- The data, or a value to be written, is not what its type asks for. -/
  | mismatch (expected found : String)
  | unknownType (name : String)
  | unsupportedUseCase (scheme : String) (useCase : UseCase)
  | notImplemented (what : String)
  | unsupportedOperation (what : String)
  /-- Bytes that start with no known magic, described by their front. -/
  | unknownMagic (front : String)
  | noSchemeFor (magic : Magic) (useCase : UseCase)
  | malformed (fault : WireFault)
  /-- The parts are of the right form and yet make no value. -/
  | invalidValue (cause : InvalidValue)
  /-- A contributed serializer reported an error or broke off. -/
  | customSerializer (id : String) (reason : String)
  | descriptorConflict (descriptor : String)
  deriving DecidableEq

namespace SerializationError

def kind : SerializationError → String
  | duplicateAdmission _ => "DuplicateAdmission"
  | unadmittedType _ _ => "UnadmittedType"
  | mismatch _ _ => "SchemaMismatch"
  | unknownType _ => "UnknownType"
  | unsupportedUseCase _ _ => "UnsupportedUseCase"
  | notImplemented _ => "NotImplemented"
  | unsupportedOperation _ => "UnsupportedOperation"
  | unknownMagic _ => "UnknownMagic"
  | noSchemeFor _ _ => "NoSchemeFor"
  | malformed _ => "Malformed"
  | invalidValue _ => "InvalidValue"
  | customSerializer _ _ => "CustomSerializer"
  | descriptorConflict _ => "DescriptorConflict"

def message : SerializationError → String
  | duplicateAdmission names => "duplicate admission: " ++ ", ".intercalate names
  | unadmittedType name policy => s!"type {name} is not admitted by policy policy#{policy}"
  | mismatch expected found => s!"schema mismatch: expected {expected}, found {found}"
  | unknownType name => s!"unknown type: {name}"
  | unsupportedUseCase scheme useCase => s!"{scheme} does not support use case {useCase.name}"
  | notImplemented what => s!"not implemented: {what}"
  | unsupportedOperation what => s!"unsupported operation: {what}"
  | unknownMagic front => s!"unknown serialization magic: {front}"
  | noSchemeFor magic useCase =>
    s!"no serialization scheme for {magic.text} and use case {useCase.name}"
  | malformed fault => s!"malformed envelope: {fault.message}"
  | invalidValue cause => s!"invalid value: {cause.message}"
  | customSerializer id reason => s!"custom serializer {id} failed: {reason}"
  | descriptorConflict descriptor => s!"descriptor {descriptor} is already bound to another type"

/-- Do the bytes bear the blame, and not the configuration? -/
def isDataError : SerializationError → Bool
  | mismatch _ _ | malformed _ | unknownMagic _ | invalidValue _ => true
  | _ => false

/-- The texts of the errors behind this one. -/
def causes : SerializationError → List String
  | invalidValue cause => [cause.message]
  | _ => []

end SerializationError

/-- Why a call gives no result. -/
inductive Abort where
  | error (cause : SerializationError)
  /-- Code of the host broke off in the middle. -/
  | panic
  deriving DecidableEq

namespace Abort

/-- Fails because `expected` was asked for and something else is there. -/
def mismatch {α : Type} (expected found : String) : Except Abort α :=
  .error (.error (.mismatch expected found))

end Abort

/-- The outcome of building a value, where a fault makes the data wrong. -/
def InvalidValue.lift {α : Type} : Except InvalidValue α → Except Abort α
  | .ok a => .ok a
  | .error e => .error (.error (.invalidValue e))

end DurableFlow
