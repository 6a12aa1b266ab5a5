import DurableFlow.Sample.Types

/-!
# A sample application: contributed serializers

Some work through stand-ins, some write elements, and some are there to fail: they report errors, break
off, or claim a descriptor that is not theirs.
-/

namespace DurableFlow.Sample

/-- The number that a text spells: digits after at most one sign, a minus only where numbers may be
negative. -/
def number? (kind : IntKind) (s : String) : Option Int := do
  let n ← match s.toList with
    | '+' :: cs => (Decimal.natural? cs).map Int.ofNat
    | '-' :: cs => if kind.isSigned then (Decimal.natural? cs).map fun n => -(n : Int) else none
    | cs => (Decimal.natural? cs).map Int.ofNat
  if kind.holds n then some n else none

def long? (s : String) : Option Int := number? .long s

def uint? (s : String) : Option Int := number? .uint s

def fault {α : Type} (message : String) : Except HostFault α :=
  .error (.reported (.ofMessage message))

def faultIn {α : Type} (context message : String) : Except HostFault α :=
  .error (.reported ((HostError.ofMessage message).withContext context))

/-- A value of a type that a conversion is not for. -/
def stranger {α : Type} : Except HostFault α := .error .panic

/-- Takes the one value out of its wrapper and puts it back. -/
def unwrapping (source descriptor : String) (target standIn : Ty) : Serializer :=
  .ofProxy source descriptor target standIn
    (fun | .seq [v] => .ok v | _ => stranger)
    (fun v => .ok (.seq [v]))

def ticketSerializer (source : String) : Serializer := unwrapping source "app.Ticket" ticket .uint

/-- Claims the descriptor of instants. -/
def thief (source : String) : Serializer := unwrapping source "time.Instant" ticket .uint

def receiptSerializer (source : String) : Serializer :=
  unwrapping source "app.Receipt" receipt payment

/-- A temperature as a number with its unit. -/
def temperatureSerializer (source : String) : Serializer :=
  .ofProxy source "app.Temperature" temperature .string
    (fun
      | .seq [.int n] =>
        if 100000 < n then faultIn "refused" s!"{n} is too hot" else .ok (.text s!"{n}K")
      | _ => stranger)
    (fun
      | .text s =>
        match s.toList.reverse with
        | 'K' :: cs =>
          let digits := String.ofList cs.reverse
          match uint? digits with
          | some n => .ok (.seq [.int n])
          | none => faultIn "bad kelvin" s!"not a number: {digits}"
        | _ => fault s!"missing unit in {s}"
      | _ => stranger)

/-- Breaks off unless the temperature is zero, and always when it is read. -/
def panicking (source : String) : Serializer :=
  .ofProxy source "app.Temperature" temperature .string
    (fun | .seq [.int 0] => .ok (.text "0K") | _ => .error .panic)
    (fun _ => .error .panic)

/-- An instant as its seconds and nanoseconds with a slash between. -/
def instantText (source : String) : Serializer :=
  .ofProxy source "time.Instant" (.builtin .instant) .string
    (fun | .atom (.instant t) => .ok (.text s!"{t.seconds}/{t.nanos}") | _ => stranger)
    (fun
      | .text s =>
        match s.toList.dropWhile (· ≠ '/') with
        | [] => fault "no slash"
        | _ :: nanos =>
          match long? (String.ofList (s.toList.takeWhile (· ≠ '/'))) with
          | none => fault "bad seconds"
          | some seconds =>
            match uint? (String.ofList nanos) with
            | none => fault "bad nanos"
            | some nanos =>
              match Instant.of? seconds nanos.toNat with
              | some t => .ok (.atom (.instant t))
              | none => fault "no such instant"
      | _ => stranger)

def longText (source : String) : Serializer :=
  .ofProxy source "app.LongText" .long .string
    (fun | .int n => .ok (.text s!"{n}") | _ => stranger)
    (fun
      | .text s => match long? s with
        | some n => .ok (.int n)
        | none => fault "bad long"
      | _ => stranger)

/-- A serializer that writes an element of its own. -/
def plain (id descriptor : String) (target : Ty) (write : Value → Except Abort Element)
    (read : Element → Except Abort Value) : Serializer :=
  ⟨id, descriptor, target, .single write fun _ e => read e, false⟩

/-- The element for the one number in a wrapper. -/
def ofDegrees (element : Int → Element) : Value → Except Abort Element
  | .seq [.int n] => .ok (element n)
  | _ => wrongValue celsius.label

def celsiusA : Serializer :=
  plain "celsius-a" "app.Celsius" celsius (ofDegrees .ofInt)
    fun e => do return .seq [.int (← e.asLong "celsius").toInt]

/-- Reads the length of what it writes. -/
def celsiusB : Serializer :=
  plain "celsius-b" "app.Celsius" celsius (ofDegrees fun n => .text s!"{n}")
    fun e => do return .seq [.int (← e.asText "celsius text").utf8ByteSize]

def centigrade : Serializer :=
  plain "centigrade" "app.Centigrade" celsius (ofDegrees fun n => .list [.ofInt n]) fun e => do
    match ← e.asTuple "centigrade" 1 with
    | [e] => return .seq [.int (← e.asLong "degrees").toInt]
    | _ => wrongValue celsius.label

/-- Claims the descriptor of temperatures for plain numbers. -/
def imposter : Serializer :=
  plain "imposter" "app.Celsius" .long (writeSimple .long)
    fun e => do return .int (← e.asLong "i64").toInt

def keyPlain (id descriptor : String) (write : PublicKey → Element)
    (read : Element → Except Abort PublicKey) : Serializer :=
  plain id descriptor (.builtin .publicKey)
    (fun | .atom (.publicKey k) => .ok (write k) | _ => wrongValue Builtin.publicKey.label)
    (fun e => do return .atom (.publicKey (← read e)))

/-- A key as the name of its algorithm and hexadecimal digits. -/
def hexkey : Serializer :=
  keyPlain "hexkey" "security.PublicKey"
    (fun k => .text s!"{k.algorithm.name}:{Hex.lower k.encoded}")
    (fun e => do
      let cs := (← e.asText "hex key").toList
      let encoded := (Hex.parse? (String.ofList (cs.dropWhile (· ≠ ':')).tail)).getD []
      InvalidValue.lift (Key.of (.ofName (String.ofList (cs.takeWhile (· ≠ ':')))) encoded))

/-- Writes keys and breaks off when it reads them. -/
def panickey : Serializer :=
  keyPlain "panickey" "security.PublicKey" (fun k => .binary k.encoded) fun _ => .error .panic

/-- Claims the descriptor of instants for keys. -/
def clashkey : Serializer :=
  keyPlain "clashkey" "time.Instant" (fun k => .binary k.encoded) fun e => do
    InvalidValue.lift (Key.of .ed25519 (← e.asBinary "key"))

/-- The serializers that work through stand-ins, by name, for a contributor. -/
def proxies : List (String × (String → Serializer)) := [
  ("ticket", ticketSerializer), ("temperature", temperatureSerializer), ("panicking", panicking),
  ("instant-text", instantText), ("receipt", receiptSerializer), ("thief", thief),
  ("long-text", longText)]

/-- Every other serializer, by name. -/
def others : List (String × Serializer) :=
  [celsiusA, celsiusB, centigrade, imposter, hexkey, panickey, clashkey].map (fun s => (s.id, s)) ++
    (Builtin.standard ++ [Builtin.serializer .publicKey] ++ Builtin.security).map
      fun s => (s.descriptor, s)

/-- The serializer of this name, contributed by `source` where that matters. -/
def serializer? (source name : String) : Option Serializer :=
  match proxies.lookup name with
  | some make => some (make source)
  | none => others.lookup name

end DurableFlow.Sample
