import DurableFlow.Element
import DurableFlow.Schema

/-!
# Envelopes

An envelope is a schema and a body. Its bytes are a magic and the payload: the schema, then the body.
A payload is read only after its magic is checked; elements may nest `maxDepth` deep, and a payload to be
written may take `maxPayload` bytes. What follows a payload is not looked at.
-/

namespace DurableFlow

namespace Wire

mutual

def elementBytes : Element → Bytes
  | .null => tag 0
  | .bool b => tag 1 ++ bool b
  | .long n => tag 2 ++ littleEndian 8 n.toUInt64.toNat
  | .ulong n => tag 3 ++ littleEndian 8 n.toNat
  | .double bits => tag 4 ++ littleEndian 8 bits.toNat
  | .char c => tag 5 ++ String.utf8EncodeChar c
  | .text s => tag 6 ++ text s
  | .binary bs => tag 7 ++ length bs.length ++ bs
  | .list items => tag 8 ++ length items.length ++ elementsBytes items
  | .map entries => tag 9 ++ length entries.length ++ entriesBytes entries
  | .described d body => tag 10 ++ text d ++ elementBytes body

def elementsBytes : List Element → Bytes
  | [] => []
  | e :: es => elementBytes e ++ elementsBytes es

def entriesBytes : List (Element × Element) → Bytes
  | [] => []
  | (k, v) :: es => elementBytes k ++ elementBytes v ++ entriesBytes es

end

mutual

/-- How many bytes an element takes. -/
def elementSize : Element → Nat
  | .null => 4
  | .bool _ => 5
  | .long _ => 12
  | .ulong _ => 12
  | .double _ => 12
  | .char c => 4 + c.utf8Size
  | .text s => 12 + s.utf8ByteSize
  | .binary bs => 12 + bs.length
  | .list items => 12 + elementsSize items
  | .map entries => 12 + entriesSize entries
  | .described d body => 12 + d.utf8ByteSize + elementSize body

def elementsSize : List Element → Nat
  | [] => 0
  | e :: es => elementSize e + elementsSize es

def entriesSize : List (Element × Element) → Nat
  | [] => 0
  | (k, v) :: es => elementSize k + elementSize v + entriesSize es

end

def maxDepth : Nat := 128

/-- Reads an element that may nest `depth` deep. -/
def readElement : Nat → Reader Element
  | 0, _ => .error (.tooDeep maxDepth)
  | depth + 1, bs =>
    match readTag bs with
    | .error e => .error e
    | .ok (0, rest) => .ok (.null, rest)
    | .ok (1, rest) => map .bool readBool rest
    | .ok (2, rest) => map (fun n => .long (UInt64.ofNat n).toInt64) (readNumber 8) rest
    | .ok (3, rest) => map (fun n => .ulong (UInt64.ofNat n)) (readNumber 8) rest
    | .ok (4, rest) => map (fun n => .double (UInt64.ofNat n)) (readNumber 8) rest
    | .ok (5, rest) => map .char readChar rest
    | .ok (6, rest) => map .text readText rest
    | .ok (7, rest) =>
      match readLength rest with
      | .error e => .error e
      | .ok (n, rest) => map .binary (readBytes n) rest
    | .ok (8, rest) => map .list (readList (readElement depth)) rest
    | .ok (9, rest) => map .map (readList (readPair (readElement depth) (readElement depth))) rest
    | .ok (10, rest) =>
      map (fun p => .described p.1 p.2) (readPair readText (readElement depth)) rest
    | .ok (n, _) => .error (.badTag n 11)

end Wire

structure Envelope where
  schema : Schema
  body : Element

namespace Envelope

/-- The longest payload that is written: 64 MiB. -/
def maxPayload : Nat := 64 * 1024 * 1024

def payloadSize (env : Envelope) : Nat := Wire.schemaSize env.schema + Wire.elementSize env.body

def payload (env : Envelope) : Bytes := Wire.schemaBytes env.schema ++ Wire.elementBytes env.body

def encode (env : Envelope) (magic : Magic) : Except SerializationError Bytes :=
  if env.payloadSize ≤ maxPayload then .ok (magic.bytes ++ env.payload)
  else .error (.malformed .tooLong)

def read : Wire.Reader Envelope :=
  Wire.map (fun p => ⟨p.1, p.2⟩) (Wire.readPair Wire.readSchema (Wire.readElement Wire.maxDepth))

/-- The limit on bytes is one of writing only. A reader of bytes that are all there has none, and it would refuse
nothing that was written. -/
def decode (magic : Magic) (bs : Bytes) : Except SerializationError Envelope :=
  if magic.matchesFront bs then
    match read (bs.drop magic.bytes.length) with
    | .ok (env, _) => .ok env
    | .error e => .error (.malformed e)
  else .error (.unknownMagic (Magic.describeFront bs))

end Envelope

end DurableFlow
