import DurableFlow.Calendar.Zone
import DurableFlow.Security.Key
import DurableFlow.Types.Ty
import DurableFlow.Values.BitSet
import DurableFlow.Values.Decimal
import DurableFlow.Values.EnumSet
import DurableFlow.Values.Name

/-!
# Values

A value is read by its type. A list and a set are the sequence of their items, an optional value is the
sequence of nothing or of one value, a pair and a composite value are the sequence of their parts, and an
object is the sequence of its fields, where a field that may be absent holds an optional value. A value of
unknown type carries its type with it.
-/

namespace DurableFlow

/-- Values of built-in types that have no parts of their own to be written. -/
inductive Atom where
  | privateKey (k : PrivateKey)
  | publicKey (k : PublicKey)
  | decimal (d : Decimal)
  | currency (c : Currency)
  | instant (t : Instant)
  | duration (d : Duration)
  | date (d : LocalDate)
  | time (t : LocalTime)
  | zone (z : ZoneId)
  | yearMonth (m : YearMonth)
  | monthDay (d : MonthDay)
  | period (p : Period)
  | className (n : ClassName)
  | certificate (c : Certificate)
  | bitSet (s : BitSet)
  | enumSet (s : EnumSet)
  | bytes (bs : Bytes)
  | flowId (id : FlowId)
  | hash (h : SecureHash)
  deriving DecidableEq

namespace Atom

def ofText (s : String) : List Int := s.toList.map fun c => (c.toNat : Int)

def ofBytes (bs : Bytes) : List Int := bs.map fun b => (b.toNat : Int)

def ofKey {role : KeyRole} (k : Key role) : List (List Int) :=
  [[k.algorithm.ctorIdx], ofText k.algorithm.name, ofBytes k.encoded]

/-- The numbers that tell an atom from the others of its kind, in the order in which they count. -/
def parts : Atom → List (List Int)
  | privateKey k => ofKey k
  | publicKey k => ofKey k
  | decimal d => [[if d.negative then 1 else 0], d.digits.map fun c => (c.toNat : Int), [d.scale.toNat]]
  | currency c => [ofText c.code]
  | instant t => [[t.seconds, t.nanos]]
  | duration d => [[d.nanos]]
  | date d => [[d.year, d.month, d.day]]
  | time t => [[t.hour, t.minute, t.second, t.nano]]
  | zone z => [ofText z.id]
  | yearMonth m => [[m.year, m.month]]
  | monthDay d => [[d.month, d.day]]
  | period p => [[p.years, p.months, p.days]]
  | className n => [ofText n.text]
  | certificate c => [ofBytes c.der]
  | bitSet s => [s.words.map fun w => (w.toNat : Int)]
  | enumSet s => ofText s.elementType :: s.constants.map ofText
  | bytes bs => [ofBytes bs]
  | flowId id => [ofBytes id.bytes]
  | hash h => [ofBytes h.bytes]

/-- The order of atoms: times from the earlier to the later, names by code points and the rest by bytes. Kinds
that are compared for equality only, such as keys and decimals, have some order that agrees with it. -/
def compare : Atom → Atom → Ordering := compareLex (compareOn Atom.ctorIdx) (compareOn parts)

end Atom

inductive Value where
  | int (n : Int)
  | boolean (b : Bool)
  | double (bits : UInt64)
  | char (c : Char)
  | text (s : String)
  | atom (a : Atom)
  | seq (items : List Value)
  | entries (es : List (Value × Value))
  /-- A value with its type, the name the type goes by, and whether it may be written by the type's own
  descriptor. -/
  | erased (type : Ty) (name : String) (native : Bool) (value : Value)
  deriving Inhabited

namespace Value

/-- The absence of an optional value. -/
protected def none : Value := seq []

protected def some (v : Value) : Value := seq [v]

def ofOption : Option Value → Value
  | .none => Value.none
  | .some v => Value.some v

/-- A value of this type put into a slot of unknown type. -/
def erase (type : Ty) (v : Value) : Value := erased type type.label type.isNative v

/-- The form used in diagnostics for an erased value whose type goes by this name. -/
def describeErased (name : String) : String := s!"AnyObject({name})"

/-- The form used in diagnostics for the bytes of a value of this type. -/
def describeSerialized (type : Ty) (bs : Bytes) : String :=
  s!"SerializedBytes<{type.label}>({bs.length} bytes)"

mutual

/-- The order of keys and of items of sets: numbers by value, texts by code points, `false` before `true`,
sequences item by item, maps entry by entry. Floating-point numbers are told apart by their bits. Values of
unknown type are neither ordered nor compared, and count as equal. -/
def compare : Value → Value → Ordering
  | int m, int n => Ord.compare m n
  | boolean a, boolean b => Ord.compare a b
  | char a, char b => Ord.compare a.val b.val
  | text a, text b => Ord.compare a b
  | double a, double b => Ord.compare a.toNat b.toNat
  | atom a, atom b => a.compare b
  | seq as, seq bs => compareAll as bs
  | entries as, entries bs => compareEntries as bs
  | _, _ => .eq

def compareAll : List Value → List Value → Ordering
  | [], [] => .eq
  | [], _ :: _ => .lt
  | _ :: _, [] => .gt
  | a :: as, b :: bs => (compare a b).then (compareAll as bs)

def compareEntries : List (Value × Value) → List (Value × Value) → Ordering
  | [], [] => .eq
  | [], _ :: _ => .lt
  | _ :: _, [] => .gt
  | (k, a) :: as, (k', b) :: bs =>
    ((compare k k').then (compare a b)).then (compareEntries as bs)

end

end Value

end DurableFlow
