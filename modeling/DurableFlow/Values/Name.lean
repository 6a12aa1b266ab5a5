import DurableFlow.Text.Alphabetic
import DurableFlow.Bytes
import DurableFlow.Values.Invalid

/-!
# Names of types

A name is one or more segments with points between them. A segment starts with a letter or an underscore
and goes on with letters, digits, underscores and dollar signs.
-/

namespace DurableFlow

structure ClassName where
  text : String
  deriving DecidableEq

namespace ClassName

/-- The pieces of a text between points. -/
def segments (cs : List Char) : List (List Char) :=
  cs.foldr (fun c acc => if c = '.' then [] :: acc else
    match acc with
    | [] => [[c]]
    | s :: rest => (c :: s) :: rest) [[]]

def isSegment : List Char → Bool
  | [] => false
  | c :: cs => (Text.isAlphabetic c || c = '_') &&
      cs.all fun c => Text.isAlphanumeric c || c = '_' || c = '$'

def of (text : String) : Except InvalidValue ClassName :=
  if (segments text.toList).all isSegment then .ok ⟨text⟩ else .error (.className text)

end ClassName

/-- The identity of a flow, 16 bytes. -/
structure FlowId where
  bytes : Bytes
  size : bytes.length = 16
  deriving DecidableEq

namespace FlowId

def ofBytes? (bs : Bytes) : Option FlowId :=
  if h : bs.length = 16 then some ⟨bs, h⟩ else none

/-- Hexadecimal digits in groups of 8, 4, 4, 4 and 12. -/
def text (id : FlowId) : String :=
  let part (i n : Nat) := Hex.lower ((id.bytes.drop i).take n)
  "-".intercalate [part 0 4, part 4 2, part 6 2, part 8 2, part 10 6]

end FlowId

end DurableFlow
