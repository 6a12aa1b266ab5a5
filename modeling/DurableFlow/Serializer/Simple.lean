import DurableFlow.Serializer.Basic

/-!
# The encoding of simple values

Signed integers are written as signed numbers of 64 bits and unsigned ones as unsigned numbers, whatever
their own width.
-/

namespace DurableFlow

/-- The element for a value of a simple type. -/
def writeSimple? : Ty → Value → Option Element
  | .int kind, .int n =>
    if kind.holds n then
      some (if kind.isSigned then .long (Int64.ofInt n) else .ulong (UInt64.ofNat n.toNat))
    else none
  | .boolean, .boolean b => some (.bool b)
  | .double, .double bits => some (.double bits)
  | .char, .char c => some (.char c)
  | .string, .text s => some (.text s)
  | _, _ => none

def writeSimple (t : Ty) (v : Value) : Except Abort Element :=
  match writeSimple? t v with
  | some e => .ok e
  | none => wrongValue t.label

def inRange (kind : IntKind) (n : Int) : Except Abort Value :=
  if kind.holds n then .ok (.int n) else Abort.mismatch kind.label s!"out of range {n}"

/-- The value of a simple type that an element holds. -/
def readSimple (t : Ty) (e : Element) : Except Abort Value :=
  match t, e with
  | .int kind, e =>
    if kind.isSigned then do inRange kind (← e.asLong kind.label).toInt
    else match e with
      | .ulong n => inRange kind n.toNat
      | e => Abort.mismatch kind.label e.kind
  | .boolean, .bool b => .ok (.boolean b)
  | .double, .double bits => .ok (.double bits)
  | .char, .char c => .ok (.char c)
  | .string, e => return .text (← e.asText "string")
  | t, e => Abort.mismatch t.label e.kind

end DurableFlow
