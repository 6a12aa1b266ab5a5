import DurableFlow.Builtin.Temporal
import DurableFlow.Builtin.Values

/-!
# The serializers that come with the library

They stand in the order in which they are registered. The public key serializer comes after the general
ones, and a deployment may put another one in its place.
-/

namespace DurableFlow

namespace Builtin

def composite (what : String) (parts : List Part) : Codec := .composite what false parts fun _ => .ok ()

def codec : Builtin → Codec
  | throwable =>
    composite "throwable"
      [.text "throwable type", .value (.optional .string), .value (.optional (.builtin throwable))]
  | privateKey => privateKeyCodec
  | publicKey => publicKeyCodec
  | decimal => decimalCodec
  | currency => currencyCodec
  | instant => instantCodec
  | duration => durationCodec
  | localDate => localDateCodec
  | localTime => localTimeCodec
  | localDateTime =>
    composite "local date-time" [.value (.builtin localDate), .value (.builtin localTime)]
  | zonedDateTime =>
    composite "zoned date-time" [.value (.builtin localDateTime), .offset, .value (.builtin zoneId)]
  | zoneId => zoneIdCodec
  | offsetTime => composite "offset time" [.value (.builtin localTime), .offset]
  | offsetDateTime =>
    .composite "offset date-time" false [.value (.builtin localDateTime), .offset] checkUtc
  | year => yearCodec
  | yearMonth => yearMonthCodec
  | monthDay => monthDayCodec
  | period => periodCodec
  | classRef => classRefCodec
  | certificate => certificateCodec
  | certPath =>
    .composite "certificate path" true
      [.text "certificate type", .value (.list (.builtin certificate))] fun _ => .ok ()
  | bitSet => bitSetCodec
  | enumSet => enumSetCodec
  | opaqueBytes => opaqueBytesCodec
  | flowId => flowIdCodec
  | secureHash => secureHashCodec
  | contractAttachment =>
    composite "contract attachment"
      [.value (.builtin secureHash), .text "contract", .value (.list (.builtin publicKey))]

def serializerWith (descriptor : String) (target : Ty) (codec : Codec) : Serializer where
  id := s!"builtin:{descriptor}"
  descriptor := descriptor
  target := target
  codec := codec
  isolated := false

def serializer (b : Builtin) : Serializer := serializerWith b.name (.builtin b) b.codec

/-- Simple types have serializers for slots of unknown type. -/
def boxed (t : Ty) : Serializer :=
  serializerWith s!"primitive.{t.name}" t (.single (writeSimple t) fun _ e => readSimple t e)

def boxedTypes : List Ty := [.long, .ulong, .boolean, .double, .char, .string]

/-- The general serializers. -/
def standard : List Serializer :=
  ([throwable, privateKey, decimal, currency, instant, duration, localDate, localDateTime, localTime,
    zonedDateTime, zoneId, offsetTime, offsetDateTime, year, yearMonth, monthDay, period, classRef,
    certificate, certPath, bitSet, enumSet, opaqueBytes, flowId].map serializer) ++
  boxedTypes.map boxed

/-- The serializers registered after the one for public keys. -/
def security : List Serializer := [secureHash, contractAttachment].map serializer

end Builtin

end DurableFlow
