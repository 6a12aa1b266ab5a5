import DurableFlow.Text.Utf8

/-!
# What is wrong with the payload of an envelope
-/

namespace DurableFlow

inductive WireFault where
  /-- The bytes end inside a number, a truth value, a byte string or the first byte of a character. -/
  | endOfInput
  /-- A text is announced as longer than the bytes that are left. -/
  | shortText
  | badBool (byte : UInt8)
  | badChar
  | badText (fault : Text.Utf8Fault)
  /-- A tag that is none of the `count` known ones. -/
  | badTag (tag count : Nat)
  | tooDeep (limit : Nat)
  /-- A payload to be written takes more bytes than an envelope may. -/
  | tooLong
  deriving DecidableEq

namespace WireFault

def message : WireFault → String
  | endOfInput => "io error: unexpected end of file"
  | shortText => "io error: "
  | badBool byte => s!"invalid u8 while decoding bool, expected 0 or 1, found {byte}"
  | badChar => "char is not valid"
  | badText fault => s!"string is not valid utf8: {fault.message}"
  | badTag tag count => s!"invalid value: integer `{tag}`, expected variant index 0 <= i < {count}"
  | tooDeep limit => s!"elements nested deeper than {limit}"
  | tooLong => "the size limit has been reached"

end WireFault

end DurableFlow
