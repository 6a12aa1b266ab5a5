import DurableFlow.Node.Options

/-!
# Nodes

A node has an environment for messages, storage and checkpoints, an executor for transitions and, if its
options say so, a verifier of checkpoints.
-/

namespace DurableFlow

inductive NodeError where
  | serialization (cause : SerializationError)
  /-- The verifier has been started before. -/
  | doubleStart
  /-- The text of the options is no document that sets options. -/
  | config
  /-- The text of the options cannot be read. -/
  | io

namespace NodeError

def ofMachine : MachineError → NodeError
  | .serialization cause => serialization cause
  | .doubleStart => doubleStart

def kind : NodeError → String
  | serialization cause => (MachineError.serialization cause).kind
  | doubleStart => s!"StateMachine/{MachineError.doubleStart.kind}"
  | config => "Config"
  | io => "Io"

/-- The message, which for faults of the text of the options is left to those who read it. -/
def message? : NodeError → Option String
  | serialization cause => some (MachineError.serialization cause).message
  | doubleStart => some s!"state machine error: {MachineError.doubleStart.message}"
  | config | io => none

/-- Do the bytes bear the blame, and not the configuration? -/
def isDataError : NodeError → Bool
  | serialization cause => cause.isDataError
  | _ => false

/-- Does the policy not admit a type? -/
def isUnadmitted : NodeError → Bool
  | serialization (.unadmittedType _ _) => true
  | _ => false

end NodeError

/-- What a node is made from. -/
structure NodePlan where
  options : NodeOptions
  plugins : Plugins
  types : List ObjectType
  publicKey : Option Serializer

structure Node where
  options : NodeOptions
  environment : Nat
  verifier : Option Nat
  executor : Executor

/-- What a node finds when it stops. -/
structure ShutdownReport where
  unrestorable : Bool
  checks : Nat
  deriving DecidableEq

namespace Node

/-- The environment of a node: one policy and one scope for all that is not a checkpoint. -/
def plan (p : NodePlan) : Call Nat := do
  let scope ← Call.newScope "node" (Snapshot.objectTypes ++ p.types)
  let plugins ← Call.newPlugins p.plugins
  let policy ← Call.defaultPolicy p.plugins
  let key := p.publicKey.getD (Builtin.serializer .publicKey)
  let server ← Call.newScheme .server plugins key
  let checkpoint ← Call.newScheme .checkpoint plugins key
  let base (u : UseCase) : Context := ⟨SchemeKind.server.magic, policy, scope, u, []⟩
  let checkpoints ← Call.checkpointContext scope
  Call.newEnvironment [server, checkpoint]
    [base .storage, base .rpcServer, base .rpcClient, base .p2p, checkpoints]

/-- Makes a node. Its verifier runs only from its start on. -/
def build (p : NodePlan) (d : Deployment) : Except Abort Node × Deployment :=
  let (outcome, store) := ((plan p).run.run d.store : Except Abort Nat × Store)
  match outcome with
  | .error e => (.error e, { d with store := store })
  | .ok environment =>
    let verifier := if p.options.verifiesCheckpoints then some d.verifiers.length else none
    let verifiers := if verifier.isSome then d.verifiers ++ [.new] else d.verifiers
    let (executor, d) := Deployment.buildExecutor ⟨store, verifiers⟩ p.options.machine verifier
    (.ok ⟨p.options, environment, verifier, executor⟩, d)

/-- The context for a use case. -/
def context (n : Node) (u : UseCase) : Call Context := do
  match ← Call.context? n.environment u with
  | some c => return c
  | none => Call.fail (.unsupportedOperation s!"no {u.name} context configured")

def serialize (n : Node) (t : Ty) (v : Value) (u : UseCase) : Call Bytes := do
  Call.serialize n.environment (← n.context u) t v

def deserialize (n : Node) (t : Ty) (bs : Bytes) (u : UseCase) : Call Value := do
  Call.deserialize n.environment (← n.context u) t bs

/-- Starts the verifier of a node, if it has one. -/
def start (n : Node) (d : Deployment) : Except NodeError Deployment :=
  match n.verifier with
  | none => .ok d
  | some v =>
    match (d.store.environment n.environment).contexts.get? .checkpoint with
    | none => .error (.serialization (.unsupportedOperation "no checkpoint context configured"))
    | some c => (d.startVerifier v n.environment c).mapError .ofMachine

/-- Lets the verifier finish and reports what it found. -/
def stop (n : Node) (d : Deployment) : ShutdownReport × Deployment :=
  match n.verifier with
  | none => (⟨false, 0⟩, d)
  | some v =>
    let (found, d) := d.stopVerifier v
    (⟨found, (d.verifier v).checks⟩, d)

end Node

end DurableFlow
