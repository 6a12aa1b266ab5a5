import DurableFlow.Serializer.Setting

/-!
# Taking bodies apart
-/

namespace DurableFlow

namespace Element

variable (e : Element) (expected : String)

def asPair : Except Abort (Element × Element) := do
  match ← e.asTuple expected 2 with
  | [a, b] => return (a, b)
  | _ => Abort.mismatch expected e.kind

def asTriple : Except Abort (Element × Element × Element) := do
  match ← e.asTuple expected 3 with
  | [a, b, c] => return (a, b, c)
  | _ => Abort.mismatch expected e.kind

/-- A signed number that a smaller type holds, where `what` names a number that it does not hold. -/
def asSmall (kind : IntKind) (what : String) : Except Abort Int := do
  let n := (← e.asLong expected).toInt
  if kind.holds n then return n else Abort.mismatch s!"valid {what}" s!"{n}"

end Element

/-- The value that was found, or the message that the parts make none. -/
def orInvalid {α : Type} (what found : String) : Option α → Except Abort α
  | some a => .ok a
  | none => Abort.mismatch s!"valid {what}" found

/-- A codec that writes atoms as one element and reads without looking at names. -/
def atomCodec (label : String) (write : Atom → Option Element) (read : Element → Except Abort Atom) :
    Codec :=
  .single
    (fun v => match v with
      | .atom a => match write a with
        | some e => .ok e
        | none => wrongValue label
      | _ => wrongValue label)
    (fun _ e => do return .atom (← read e))

/-- The element for a number of the library, which is far from the ends of the range. -/
def Element.ofInt (n : Int) : Element := .long (Int64.ofInt n)

end DurableFlow
