import DurableFlow.Codec.Error
import DurableFlow.Ordered

/-!
# Admission policies

A policy lists the names of the object types that may be written and read. It only ever grows. A policy
that admits everything keeps a list as well, which then decides nothing.
-/

namespace DurableFlow

structure Policy where
  /-- Policies are counted from 1. -/
  id : Nat
  admitsAll : Bool
  /-- In increasing order. -/
  names : List String

namespace Policy

def new (id : Nat) (admitsAll : Bool) : Policy := ⟨id, admitsAll, []⟩

def isAdmitted (p : Policy) (name : String) : Bool := p.admitsAll || p.names.contains name

/-- The names that stand in a batch more than once, in increasing order. -/
def repeated (batch : List String) : List String :=
  Ordered.ofList compare (batch.filter fun name => 1 < batch.count name)

/-- The policy with the names of a batch added. -/
def join (p : Policy) (batch : List String) : Policy :=
  { p with names := batch.foldl (fun names name => Ordered.insert compare name names) p.names }

/-- Admits the names of a batch, none of which may be admitted already. -/
def allow (p : Policy) (batch : List String) : Except SerializationError Policy :=
  let clashes := batch.filter p.names.contains
  if repeated batch ≠ [] then .error (.duplicateAdmission (repeated batch))
  else if clashes ≠ [] then .error (.duplicateAdmission clashes)
  else .ok (p.join batch)

/-- Admits those names of a batch that are not admitted, and tells how many they are. -/
def allowMissing (p : Policy) (batch : List String) : Except SerializationError (Policy × Nat) :=
  if repeated batch ≠ [] then .error (.duplicateAdmission (repeated batch))
  else
    let p' := p.join batch
    .ok (p', p'.names.length - p.names.length)

/-- Fails for an object type that is not admitted. -/
def check (p : Policy) (name : String) : Except Abort Unit :=
  if p.isAdmitted name then .ok () else .error (.error (.unadmittedType name p.id))

end Policy

end DurableFlow
