/-!
# Types of values

A type has a name, which for a type built from simple types and collections alone is also the descriptor
under which its values are written into slots of unknown type, and a label for diagnostics.
-/

namespace DurableFlow

/-- Integer types. -/
inductive IntKind where
  | byte | short | int | long | ubyte | ushort | uint | ulong
  deriving DecidableEq

namespace IntKind

def all : List IntKind := [byte, short, int, long, ubyte, ushort, uint, ulong]

def name : IntKind → String
  | byte => "byte"
  | short => "short"
  | int => "int"
  | long => "long"
  | ubyte => "ubyte"
  | ushort => "ushort"
  | uint => "uint"
  | ulong => "ulong"

def label : IntKind → String
  | byte => "i8"
  | short => "i16"
  | int => "i32"
  | long => "i64"
  | ubyte => "u8"
  | ushort => "u16"
  | uint => "u32"
  | ulong => "u64"

def isSigned : IntKind → Bool
  | byte | short | int | long => true
  | _ => false

def bits : IntKind → Nat
  | byte | ubyte => 8
  | short | ushort => 16
  | int | uint => 32
  | long | ulong => 64

def low : IntKind → Int
  | byte => -128
  | short => -32768
  | int => -2147483648
  | long => -9223372036854775808
  | ubyte | ushort | uint | ulong => 0

def high : IntKind → Int
  | byte => 127
  | short => 32767
  | int => 2147483647
  | long => 9223372036854775807
  | ubyte => 255
  | ushort => 65535
  | uint => 4294967295
  | ulong => 18446744073709551615

def holds (k : IntKind) (n : Int) : Bool := k.low ≤ n && n ≤ k.high

end IntKind

/-- Types that come with a serializer. -/
inductive Builtin where
  | throwable | privateKey | publicKey | decimal | currency | instant | duration | localDate
  | localTime | localDateTime | zonedDateTime | zoneId | offsetTime | offsetDateTime | year
  | yearMonth | monthDay | period | classRef | certificate | certPath | bitSet | enumSet
  | opaqueBytes | flowId | secureHash | contractAttachment
  deriving DecidableEq

namespace Builtin

def all : List Builtin :=
  [throwable, privateKey, publicKey, decimal, currency, instant, duration, localDate, localTime,
    localDateTime, zonedDateTime, zoneId, offsetTime, offsetDateTime, year, yearMonth, monthDay, period,
    classRef, certificate, certPath, bitSet, enumSet, opaqueBytes, flowId, secureHash,
    contractAttachment]

def name : Builtin → String
  | throwable => "error.Throwable"
  | privateKey => "security.PrivateKey"
  | publicKey => "security.PublicKey"
  | decimal => "math.BigDecimal"
  | currency => "money.Currency"
  | instant => "time.Instant"
  | duration => "time.Duration"
  | localDate => "time.LocalDate"
  | localTime => "time.LocalTime"
  | localDateTime => "time.LocalDateTime"
  | zonedDateTime => "time.ZonedDateTime"
  | zoneId => "time.ZoneId"
  | offsetTime => "time.OffsetTime"
  | offsetDateTime => "time.OffsetDateTime"
  | year => "time.Year"
  | yearMonth => "time.YearMonth"
  | monthDay => "time.MonthDay"
  | period => "time.Period"
  | classRef => "lang.Class"
  | certificate => "security.X509Certificate"
  | certPath => "security.CertPath"
  | bitSet => "util.BitSet"
  | enumSet => "util.EnumSet"
  | opaqueBytes => "bytes.OpaqueBytes"
  | flowId => "flow.FlowId"
  | secureHash => "crypto.SecureHash"
  | contractAttachment => "ledger.ContractAttachment"

def label : Builtin → String
  | throwable => "ledgerflow_core::throwable::ThrowableValue"
  | privateKey => "ledgerflow_core::crypto::PrivateKey"
  | publicKey => "ledgerflow_core::crypto::PublicKey"
  | decimal => "ledgerflow_core::decimal::BigDecimal"
  | currency => "ledgerflow_core::decimal::Currency"
  | instant => "chrono::datetime::DateTime<chrono::offset::utc::Utc>"
  | duration => "chrono::time_delta::TimeDelta"
  | localDate => "chrono::naive::date::NaiveDate"
  | localTime => "chrono::naive::time::NaiveTime"
  | localDateTime => "chrono::naive::datetime::NaiveDateTime"
  | zonedDateTime => "ledgerflow_core::temporal::ZonedDateTime"
  | zoneId => "ledgerflow_core::temporal::ZoneId"
  | offsetTime => "ledgerflow_core::temporal::OffsetTime"
  | offsetDateTime => "chrono::datetime::DateTime<chrono::offset::fixed::FixedOffset>"
  | year => "ledgerflow_core::temporal::Year"
  | yearMonth => "ledgerflow_core::temporal::YearMonth"
  | monthDay => "ledgerflow_core::temporal::MonthDay"
  | period => "ledgerflow_core::temporal::Period"
  | classRef => "ledgerflow_core::types::ClassRef"
  | certificate => "ledgerflow_core::crypto::X509Certificate"
  | certPath => "ledgerflow_core::crypto::CertPath"
  | bitSet => "ledgerflow_core::bits::BitSet"
  | enumSet => "ledgerflow_core::bits::EnumSet"
  | opaqueBytes => "ledgerflow_core::bytes::OpaqueBytes"
  | flowId => "ledgerflow_core::types::FlowId"
  | secureHash => "ledgerflow_core::crypto::SecureHash"
  | contractAttachment => "ledgerflow_core::crypto::ContractAttachment"

end Builtin

inductive Ty where
  | int (kind : IntKind)
  | boolean
  | double
  | char
  | string
  | list (item : Ty)
  | optional (item : Ty)
  | set (item : Ty)
  | map (key value : Ty)
  /-- A map without an order of its own. -/
  | hashmap (key value : Ty)
  | pair (first second : Ty)
  | builtin (type : Builtin)
  /-- A type of the application. -/
  | named (name label : String)
  /-- A value whose type is known from the value alone. -/
  | any
  deriving DecidableEq, Inhabited

namespace Ty

protected abbrev byte : Ty := .int .byte
protected abbrev long : Ty := .int .long
protected abbrev ulong : Ty := .int .ulong
protected abbrev uint : Ty := .int .uint

def name : Ty → String
  | int kind => kind.name
  | boolean => "boolean"
  | double => "double"
  | char => "char"
  | string => "string"
  | list item => s!"list<{item.name}>"
  | optional item => s!"optional<{item.name}>"
  | set item => s!"set<{item.name}>"
  | map key value => s!"map<{key.name},{value.name}>"
  | hashmap key value => s!"hashmap<{key.name},{value.name}>"
  | pair first second => s!"pair<{first.name},{second.name}>"
  | builtin type => type.name
  | named name _ => name
  | any => "any"

def label : Ty → String
  | int kind => kind.label
  | boolean => "bool"
  | double => "f64"
  | char => "char"
  | string => "alloc::string::String"
  | list item => s!"alloc::vec::Vec<{item.label}>"
  | optional item => s!"core::option::Option<{item.label}>"
  | set item => s!"alloc::collections::btree::set::BTreeSet<{item.label}>"
  | map key value => s!"alloc::collections::btree::map::BTreeMap<{key.label}, {value.label}>"
  | hashmap key value => s!"std::collections::hash::map::HashMap<{key.label}, {value.label}>"
  | pair first second => s!"({first.label}, {second.label})"
  | builtin type => type.label
  | named _ label => label
  | any => "ledgerflow_serialization::any::AnyObject"

/-- Is the type built from simple types and collections alone? -/
def isNative : Ty → Bool
  | int _ | boolean | double | char | string => true
  | list item | optional item | set item => item.isNative
  | map key value | hashmap key value => key.isNative && value.isNative
  | pair first second => first.isNative && second.isNative
  | builtin _ | named _ _ | any => false

/-- Is the type simple or a collection, so that its values are written without a descriptor? -/
def isPlain : Ty → Bool
  | builtin _ | named _ _ | any => false
  | _ => true

/-- The descriptor of a value of this type in a slot of unknown type. -/
def nativeDescriptor (t : Ty) : Option String := if t.isNative then some t.name else none

/-- The types with a descriptor of their own among those listed, by descriptor. -/
def ofDescriptor? (known : List Ty) (descriptor : String) : Option Ty :=
  known.find? fun t => t.isNative && t.name == descriptor

end Ty

end DurableFlow
