import DurableFlow.Bindings
import DurableFlow.Types.Ty

/-!
# The table of native types

In a slot of unknown type a value of a native type is written and read by the codec of its type, which a
table binds to the descriptor of the type. Simple types are in the table from the start, and any other
native type from when a value of it is first put into such a slot or the type is registered.
-/

namespace DurableFlow

/-- The types that come without parts. -/
def Ty.simple : List Ty := IntKind.all.map .int ++ [.boolean, .double, .char, .string]

/-- The codec for values of one type. -/
structure NativeCodec where
  descriptor : String
  type : Ty
  deriving DecidableEq

abbrev NativeTable := Bindings String NativeCodec

namespace NativeTable

/-- Binds the codec of a type to the descriptor of the type, if it has one. -/
def seed (table : NativeTable) (t : Ty) : NativeTable :=
  match t.nativeDescriptor with
  | some descriptor => table.set descriptor ⟨descriptor, t⟩
  | none => table

/-- The table at the start. -/
def seeded : NativeTable := Ty.simple.foldl seed .empty

/-- The codec for the type, which is the one that its descriptor is bound to already, if there is one, and
is added otherwise. -/
def register (table : NativeTable) (t : Ty) : Option NativeCodec × NativeTable :=
  match t.nativeDescriptor with
  | none => (none, table)
  | some descriptor =>
    match table.get? descriptor with
    | some codec => (some codec, table)
    | none => (some ⟨descriptor, t⟩, table.set descriptor ⟨descriptor, t⟩)

/-- Registers types one after the other. -/
def registerAll (table : NativeTable) (ts : List Ty) : NativeTable :=
  ts.foldl (fun table t => (table.register t).2) table

/-- The types with a codec in the table. -/
def types (table : NativeTable) : List Ty := table.list.map (·.2.type)

end NativeTable

end DurableFlow
