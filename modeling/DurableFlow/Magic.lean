import DurableFlow.Bytes

/-!
# Use cases and the mark at the front of every envelope

The mark is the five bytes `lflow`, an encoding family and a version.
-/

namespace DurableFlow

/-- What a value is written or read for. -/
inductive UseCase where
  | p2p
  | rpcClient
  | rpcServer
  | storage
  | checkpoint
  deriving DecidableEq

namespace UseCase

def all : List UseCase := [p2p, rpcClient, rpcServer, storage, checkpoint]

def name : UseCase → String
  | p2p => "P2P"
  | rpcClient => "RPCClient"
  | rpcServer => "RPCServer"
  | storage => "Storage"
  | checkpoint => "Checkpoint"

end UseCase

structure Magic where
  family : UInt8
  version : UInt8
  deriving DecidableEq

namespace Magic

/-- The letters `lflow`. -/
def mark : Bytes := [0x6c, 0x66, 0x6c, 0x6f, 0x77]

def bytes (m : Magic) : Bytes := mark ++ [m.family, m.version]

def text (m : Magic) : String := s!"lflow/{m.family}.{m.version}"

/-- The magic that bytes start with. -/
def ofPrefix? (bs : Bytes) : Option Magic :=
  match bs.drop mark.length with
  | family :: version :: _ => if mark.isPrefixOf bs then some ⟨family, version⟩ else none
  | _ => none

def matchesFront (m : Magic) (bs : Bytes) : Bool := m.bytes.isPrefixOf bs

/-- The front of bytes that should have started with a magic. -/
def describeFront (bs : Bytes) : String :=
  match ofPrefix? bs with
  | some m => m.text
  | none => "[" ++ " ".intercalate ((bs.take 7).map fun b => Hex.lower [b]) ++ "]"

end Magic

end DurableFlow
