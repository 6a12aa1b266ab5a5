import DurableFlow.Wire.Reader

/-!
# Schemas

The schema of an envelope tells for each descriptor in the body how it is encoded. Of several notations
of one name the first counts.
-/

namespace DurableFlow

inductive TypeNotation where
  /-- An object: the list of the values of these fields. -/
  | composite (name : String) (fields : List String)
  /-- Written by a registered serializer. -/
  | restricted (name : String) (serializer : String)
  deriving DecidableEq

def TypeNotation.name : TypeNotation → String
  | composite name _ => name
  | restricted name _ => name

structure Schema where
  /-- In the order of first use. -/
  types : List TypeNotation
  deriving DecidableEq

namespace Schema

def empty : Schema := ⟨[]⟩

def get? (s : Schema) (name : String) : Option TypeNotation := s.types.find? (·.name = name)

/-- Adds a notation unless there is one of the same name. -/
def add (s : Schema) (n : TypeNotation) : Schema :=
  if (s.get? n.name).isSome then s else ⟨s.types ++ [n]⟩

/-- The fields of an object type. -/
def fields? (s : Schema) (name : String) : Option (List String) :=
  match s.get? name with
  | some (.composite _ fields) => some fields
  | _ => none

end Schema

namespace Wire

def notationBytes : TypeNotation → Bytes
  | .composite name fields => tag 0 ++ text name ++ length fields.length ++ fields.flatMap text
  | .restricted name serializer => tag 1 ++ text name ++ text serializer

def readNotation : Reader TypeNotation := fun bs =>
  match readTag bs with
  | .error e => .error e
  | .ok (0, rest) => map (fun p => .composite p.1 p.2) (readPair readText (readList readText)) rest
  | .ok (1, rest) => map (fun p => .restricted p.1 p.2) (readPair readText readText) rest
  | .ok (n, _) => .error (.badTag n 2)

def schemaBytes (s : Schema) : Bytes := length s.types.length ++ s.types.flatMap notationBytes

def readSchema : Reader Schema := map Schema.mk (readList readNotation)

def textsSize : List String → Nat
  | [] => 0
  | t :: ts => 8 + t.utf8ByteSize + textsSize ts

def notationSize : TypeNotation → Nat
  | .composite name fields => 20 + name.utf8ByteSize + textsSize fields
  | .restricted name serializer => 20 + name.utf8ByteSize + serializer.utf8ByteSize

def notationsSize : List TypeNotation → Nat
  | [] => 0
  | t :: ts => notationSize t + notationsSize ts

def schemaSize (s : Schema) : Nat := 8 + notationsSize s.types

end Wire

end DurableFlow
