import DurableFlow.Element
import DurableFlow.Failure.Capture
import DurableFlow.Types.Value

/-!
# Serializers and object types

A serializer writes the values of one type under one descriptor. Most write a single element, some a list
of parts, and a contributed one may turn a value into a value of another type that stands in for it.

The code of an application is taken to do the following and no more. A codec writes and reads through the setting
only, and where a part or a stand-in fails it fails in the same way: it neither catches an error nor puts another
one in its place. An object type writes its fields one after the other in one fixed order and leaves out those that
are absent. It reads them by their names in the same order, each under its own type, passes on the first error, and
is made again from the values that it has read and from nothing else.
-/

namespace DurableFlow

/-- A value is not of the type it is given for. -/
def wrongValue {α : Type} (label : String) : Except Abort α :=
  Abort.mismatch label "value of another type"

/-- One part of a value written as a list of parts. -/
inductive Part where
  /-- A text, which messages call by this name. -/
  | text (what : String)
  /-- An offset from UTC in seconds. -/
  | offset
  /-- A value of its own. -/
  | value (type : Ty)

/-- Why a conversion of the host gives nothing. -/
inductive HostFault where
  | reported (e : HostError)
  | panic

inductive Codec where
  /-- One element for a value. The reader is told which descriptors and object names are known. -/
  | single (write : Value → Except Abort Element)
      (read : (String → Bool) → Element → Except Abort Value)
  /-- A list of parts, read from the last to the first if `backward`; then the whole is checked. -/
  | composite (what : String) (backward : Bool) (parts : List Part)
      (check : List Value → Except Abort Unit)
  /-- A value of another type in place of the value. -/
  | proxy (standIn : Ty) (toProxy fromProxy : Value → Except HostFault Value)

structure Serializer where
  /-- Two serializers of one id are taken for the same. -/
  id : String
  descriptor : String
  target : Ty
  codec : Codec
  /-- If the code of the host breaks off, does that count as an error of this serializer? -/
  isolated : Bool

/-- A field of an object type. -/
structure Field where
  name : String
  type : Ty
  required : Bool

/-- An object type: its fields are written and read in this order, by name. -/
structure ObjectType where
  type : Ty
  /-- The name on the wire. -/
  name : String
  fields : List Field

/-- The form used in diagnostics. -/
def ObjectType.describe (c : ObjectType) : String :=
  "ClassInfo \x7b name: " ++ Text.quoted c.name ++ ", rust_name: " ++ Text.quoted c.type.label ++ " \x7d"

/-- The id of a serializer contributed by `source`. -/
def contributedId (source descriptor : String) : String := s!"custom:{source}:{descriptor}"

/-- A contributed serializer that works through a stand-in. -/
def Serializer.ofProxy (source descriptor : String) (target standIn : Ty)
    (toProxy fromProxy : Value → Except HostFault Value) : Serializer where
  id := contributedId source descriptor
  descriptor := descriptor
  target := target
  codec := .proxy standIn toProxy fromProxy
  isolated := true

end DurableFlow
