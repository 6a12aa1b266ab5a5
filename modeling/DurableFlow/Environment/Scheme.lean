import DurableFlow.Environment.Store

/-!
# Schemes

A scheme owns the magic of its envelopes and serves some of the use cases. It makes one factory for each
pair of a policy and a scope and keeps it.
-/

namespace DurableFlow

namespace SchemeKind

def name : SchemeKind → String
  | server => "object-graph/server"
  | client => "object-graph/client"
  | checkpoint => "checkpoint"

def magic : SchemeKind → Magic
  | server | client => ⟨1, 0⟩
  | checkpoint => ⟨0, 1⟩

/-- Are envelopes with this magic read for this use case? -/
def accepts (k : SchemeKind) (magic : Magic) (useCase : UseCase) : Bool :=
  magic = k.magic && match k with
    | server | client => useCase = .p2p || useCase = .storage
    | checkpoint => useCase = .checkpoint

/-- Why the scheme makes no factory for a use case, if it makes none. -/
def refusal? : SchemeKind → UseCase → Option SerializationError
  | checkpoint, .checkpoint => none
  | checkpoint, u => some (.unsupportedUseCase checkpoint.name u)
  | k, .checkpoint => some (.unsupportedUseCase k.name .checkpoint)
  | server, .rpcClient => some (.unsupportedOperation "a node does not serialize as an RPC client")
  | server, .rpcServer => some (.notImplemented "RPC server serialization needs the RPC transport")
  | client, .rpcClient => some (.notImplemented "RPC client serialization needs the RPC transport")
  | client, .rpcServer => some (.unsupportedOperation "a client does not serialize as an RPC server")
  | _, .p2p | _, .storage => none

end SchemeKind

namespace Call

def newScheme (kind : SchemeKind) (plugins : Nat) (publicKey : Serializer) : Call Nat := do
  let k := (← get).schemes.length
  modify fun s => { s with schemes := s.schemes ++ [⟨kind, plugins, publicKey, .empty⟩] }
  return k

/-- The factory of a scheme for a policy and a scope, which is made at the first request. -/
def cachedFactory (k : Nat) (key : Nat × Nat) : Call Nat := do
  let x := (← get).scheme k
  match x.factories.get? key with
  | some f => return f
  | none => do
    let f ← newFactory key.1 key.2
    modify fun s => s.setScheme k { x with factories := x.factories.set key f }
    return f

/-- The factory of a scheme for a context, after registration. -/
def factoryFor (k : Nat) (c : Context) : Call Nat := do
  let x := (← get).scheme k
  match x.kind.refusal? c.useCase with
  | some e => fail e
  | none => do
    let f ← cachedFactory k c.key
    draft f (((← get).pluginsOf x.plugins).apply x.publicKey)
    return f

def serializeBy (k : Nat) (c : Context) (t : Ty) (v : Value) : Call Bytes := do
  let f ← factoryFor k c
  serializeWith f ((← get).scheme k).kind.magic t v

/-- A use case that the scheme does not serve is reported whatever the bytes are. -/
def deserializeBy (k : Nat) (c : Context) (t : Ty) (bs : Bytes) : Call Value := do
  let f ← factoryFor k c
  deserializeWith f ((← get).scheme k).kind.magic t bs

/-- The context for checkpoints over a scope, with a new policy that admits everything. -/
def checkpointContext (scope : Nat) : Call Context := do
  return ⟨SchemeKind.checkpoint.magic, ← newPolicy true, scope, .checkpoint, []⟩

end Call

end DurableFlow
