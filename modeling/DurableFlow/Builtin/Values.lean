import DurableFlow.Builtin.Parts

/-!
# How numbers, keys, names, sets and bytes are written
-/

namespace DurableFlow.Builtin

/-- An algorithm and a key, by name and encoding. -/
def keyElement {role : KeyRole} (k : Key role) : Element :=
  .list [.text k.algorithm.name, .binary k.encoded]

def readKey {role : KeyRole} (what : String) (e : Element) : Except Abort (Key role) := do
  let (algorithm, encoded) ← e.asPair what
  let algorithm := KeyAlgorithm.ofName (← algorithm.asText "key algorithm")
  InvalidValue.lift (Key.of algorithm (← encoded.asBinary "key bytes"))

def privateKeyCodec : Codec :=
  atomCodec privateKey.label (fun | .privateKey k => some (keyElement k) | _ => none)
    (fun e => return .privateKey (← readKey "private key" e))

def publicKeyCodec : Codec :=
  atomCodec publicKey.label (fun | .publicKey k => some (keyElement k) | _ => none)
    (fun e => return .publicKey (← readKey "public key" e))

/-- The scale is read before the digits. -/
def readDecimal (e : Element) : Except Abort Decimal := do
  let (digits, scale) ← e.asPair "decimal"
  let scale := (← scale.asLong "decimal scale").toInt
  if IntKind.uint.holds scale then
    InvalidValue.lift (Decimal.ofUnscaled (← digits.asText "decimal digits") (UInt32.ofNat scale.toNat))
  else Abort.mismatch "decimal scale" s!"{scale}"

def decimalCodec : Codec :=
  atomCodec decimal.label
    (fun | .decimal d => some (.list [.text d.unscaledText, .ofInt d.scale.toNat]) | _ => none)
    (fun e => return .decimal (← readDecimal e))

def currencyCodec : Codec :=
  atomCodec currency.label (fun | .currency c => some (.text c.code) | _ => none)
    (fun e => do return .currency (← InvalidValue.lift (Currency.ofCode (← e.asText "currency code"))))

/-- The name of a type is read only where the type is known. -/
def classRefCodec : Codec :=
  .single (fun | .atom (.className n) => .ok (.text n.text) | _ => wrongValue classRef.label)
    (fun known e => do
      let name ← e.asText "class name"
      if known name then return .atom (.className (← InvalidValue.lift (ClassName.of name)))
      else .error (.error (.unknownType name)))

def bitSetCodec : Codec :=
  atomCodec bitSet.label (fun | .bitSet s => some (.binary s.toBytes) | _ => none)
    (fun e => do return .bitSet (BitSet.ofBytes (← e.asBinary "bit-set bytes")))

/-- The constants are read before the type. -/
def readEnumSet (e : Element) : Except Abort EnumSet := do
  let (elementType, constants) ← e.asPair "enum set"
  let constants ← (← constants.asList "set").mapM fun e => e.asText "string"
  return EnumSet.ofList (← elementType.asText "enum type") constants

def enumSetCodec : Codec :=
  atomCodec enumSet.label
    (fun | .enumSet s => some (.list [.text s.elementType, .list (s.constants.map .text)]) | _ => none)
    (fun e => return .enumSet (← readEnumSet e))

def opaqueBytesCodec : Codec :=
  atomCodec opaqueBytes.label (fun | .bytes bs => some (.binary bs) | _ => none)
    (fun e => return .bytes (← e.asBinary "opaque bytes"))

def flowIdCodec : Codec :=
  atomCodec flowId.label (fun | .flowId id => some (.binary id.bytes) | _ => none)
    (fun e => do
      let bs ← e.asBinary "flow id"
      match FlowId.ofBytes? bs with
      | some id => return .flowId id
      | none => Abort.mismatch "16 byte flow id" s!"{bs.length} bytes")

def secureHashCodec : Codec :=
  atomCodec secureHash.label (fun | .hash h => some (.binary h.bytes) | _ => none)
    (fun e => do
      let bs ← e.asBinary "hash"
      match SecureHash.ofBytes? bs with
      | some h => return .hash h
      | none => Abort.mismatch "32 byte digest" s!"{bs.length} bytes")

def certificateCodec : Codec :=
  atomCodec certificate.label (fun | .certificate c => some (.binary c.der) | _ => none)
    (fun e => do
      return .certificate (← InvalidValue.lift (Certificate.ofDer (← e.asBinary "certificate"))))

end DurableFlow.Builtin
