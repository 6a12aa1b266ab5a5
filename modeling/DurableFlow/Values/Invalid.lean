import DurableFlow.Text.Quoted

/-!
# Why a value cannot be built from its parts
-/

namespace DurableFlow

inductive InvalidValue where
  | decimal (text : String)
  | currency (code : String)
  /-- A part of a date, time or offset is out of its range. -/
  | temporal (part : String) (value : Int)
  | zone (id : String)
  | certificate (reason : String)
  | key (reason : String)
  | className (name : String)
  deriving DecidableEq

namespace InvalidValue

/-- The kind of the fault in one word. -/
def kind : InvalidValue → String
  | decimal _ => "InvalidDecimal"
  | currency _ => "InvalidCurrency"
  | temporal _ _ => "InvalidTemporal"
  | zone _ => "InvalidZone"
  | certificate _ => "InvalidCertificate"
  | key _ => "InvalidKey"
  | className _ => "InvalidClassName"

def message : InvalidValue → String
  | decimal text => s!"invalid decimal: {text}"
  | currency code => s!"invalid currency code: {code}"
  | temporal part value => s!"invalid {part}: {value}"
  | zone id => s!"invalid zone id: {Text.quoted id}"
  | certificate reason => s!"invalid certificate: {reason}"
  | key reason => s!"invalid key: {reason}"
  | className name => s!"invalid class name: {Text.quoted name}"

end InvalidValue

end DurableFlow
