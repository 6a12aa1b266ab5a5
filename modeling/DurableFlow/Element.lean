import DurableFlow.Codec.Error

/-!
# Elements

An element is one node of an encoded object graph. Anything but a simple value or a collection is
*described*: a descriptor names the type and the body is its encoding.
-/

namespace DurableFlow

inductive Element where
  | null
  | bool (b : Bool)
  | long (n : Int64)
  | ulong (n : UInt64)
  /-- A floating-point number by its bits. -/
  | double (bits : UInt64)
  | char (c : Char)
  | text (s : String)
  | binary (bs : Bytes)
  | list (items : List Element)
  /-- Pairs in the order they were met. -/
  | map (entries : List (Element × Element))
  | described (descriptor : String) (body : Element)
  deriving Inhabited

namespace Element

def kind : Element → String
  | null => "null"
  | bool _ => "bool"
  | long _ => "long"
  | ulong _ => "ulong"
  | double _ => "double"
  | char _ => "char"
  | text _ => "string"
  | binary _ => "binary"
  | list _ => "list"
  | map _ => "map"
  | described _ _ => "described"

mutual

/-- How many elements stand on the longest path from here down, this one included. -/
def depth : Element → Nat
  | list items => 1 + depthAll items
  | map entries => 1 + depthEntries entries
  | described _ body => 1 + body.depth
  | _ => 1

def depthAll : List Element → Nat
  | [] => 0
  | e :: es => max e.depth (depthAll es)

def depthEntries : List (Element × Element) → Nat
  | [] => 0
  | (k, v) :: es => max (max k.depth v.depth) (depthEntries es)

end

mutual

/-- How many elements there are, this one included. -/
def count : Element → Nat
  | list items => 1 + countAll items
  | map entries => 1 + countEntries entries
  | described _ body => 1 + body.count
  | _ => 1

def countAll : List Element → Nat
  | [] => 0
  | e :: es => e.count + countAll es

def countEntries : List (Element × Element) → Nat
  | [] => 0
  | (k, v) :: es => k.count + v.count + countEntries es

end

/-- Equality of floating-point numbers: no NaN equals anything, and both zeros are one number. -/
def sameNumber (a b : UInt64) : Bool :=
  let magnitude (x : UInt64) := x &&& 0x7FFFFFFFFFFFFFFF
  let isNaN (x : UInt64) : Bool := 0x7FF0000000000000 < magnitude x
  !isNaN a && !isNaN b && (a == b || (magnitude a == 0 && magnitude b == 0))

mutual

/-- Equality of elements with floating-point numbers compared as numbers. -/
def same : Element → Element → Bool
  | null, null => true
  | bool a, bool b => a == b
  | long a, long b => a == b
  | ulong a, ulong b => a == b
  | double a, double b => sameNumber a b
  | char a, char b => a == b
  | text a, text b => a == b
  | binary a, binary b => a == b
  | list as, list bs => sameAll as bs
  | map as, map bs => sameEntries as bs
  | described d a, described d' b => d == d' && same a b
  | _, _ => false

def sameAll : List Element → List Element → Bool
  | [], [] => true
  | a :: as, b :: bs => same a b && sameAll as bs
  | _, _ => false

def sameEntries : List (Element × Element) → List (Element × Element) → Bool
  | [], [] => true
  | (k, v) :: as, (k', v') :: bs => same k k' && same v v' && sameEntries as bs
  | _, _ => false

end

variable (e : Element) (expected : String)

/-- The items of a list. -/
def asList : Except Abort (List Element) :=
  match e with
  | list items => .ok items
  | _ => Abort.mismatch expected e.kind

/-- The items of a list of `n`. -/
def asTuple (n : Nat) : Except Abort (List Element) :=
  match e.asList expected with
  | .error e => .error e
  | .ok items =>
    if items.length = n then .ok items
    else Abort.mismatch s!"{expected} with {n} parts" s!"{items.length} parts"

def asLong : Except Abort Int64 :=
  match e with
  | long n => .ok n
  | _ => Abort.mismatch expected e.kind

def asText : Except Abort String :=
  match e with
  | text s => .ok s
  | _ => Abort.mismatch expected e.kind

def asBinary : Except Abort Bytes :=
  match e with
  | binary bs => .ok bs
  | _ => Abort.mismatch expected e.kind

end Element

end DurableFlow
