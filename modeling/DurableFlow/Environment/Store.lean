import DurableFlow.Environment.Plugins
import DurableFlow.Serializer.Read
import DurableFlow.Serializer.Write

/-!
# Parts that are shared

Policies, scopes, contributions, factories, schemes and environments are shared: whoever holds one holds a
number that stands for it, and what is done to it through one holder is seen by all. The store keeps them
together with the counters and the log.
-/

namespace DurableFlow

/-- What a value is written or read with. -/
structure Context where
  magic : Magic
  policy : Nat
  scope : Nat
  useCase : UseCase
  /-- Options of the format, in the order of their keys. -/
  properties : List (String × String)

namespace Context

/-- Contexts that differ in other things share a factory. -/
def key (c : Context) : Nat × Nat := (c.policy, c.scope)

def withProperty (c : Context) (key value : String) : Context :=
  { c with properties := Ordered.put compare key value c.properties }

end Context

/-- A registry for one policy and one scope. -/
structure Factory where
  policy : Nat
  scope : Nat
  registry : Registry

namespace Factory

def key (f : Factory) : Nat × Nat := (f.policy, f.scope)

end Factory

inductive SchemeKind where
  /-- Objects in messages and in storage, on the side of a node. -/
  | server
  /-- The same, on the side of a client. -/
  | client
  /-- The checkpoints of flows. -/
  | checkpoint
  deriving DecidableEq

/-- A format of envelopes with the factories made for it. -/
structure Scheme where
  kind : SchemeKind
  plugins : Nat
  publicKey : Serializer
  factories : Bindings (Nat × Nat) Nat

structure Environment where
  /-- In the order in which they are tried. -/
  schemes : List Nat
  /-- The contexts that are used unless another one is given. -/
  contexts : Bindings UseCase Context
  /-- The places of the schemes that have been chosen before. -/
  chosen : Bindings (Magic × UseCase) Nat

structure Store where
  natives : List Ty
  policies : List Policy
  scopes : List Scope
  plugins : List Plugins
  factories : List Factory
  schemes : List Scheme
  environments : List Environment
  /-- How many errors of flows have been numbered. -/
  errors : Nat
  log : List LogEvent
  /-- What the checks of frozen flows have written. -/
  checkLog : List LogEvent

/-- A call that may change the store, also where it fails. -/
abbrev Call := ExceptT Abort (StateM Store)

namespace Store

def empty (natives : List Ty) : Store := ⟨natives, [], [], [], [], [], [], 0, [], []⟩

variable (s : Store)

/-- Policies and scopes are counted from 1. -/
def policy (id : Nat) : Policy := s.policies.getD (id - 1) (.new id false)

def scope (id : Nat) : Scope := s.scopes.getD (id - 1) (.new id "")

def factory (f : Nat) : Factory := s.factories.getD f ⟨0, 0, .empty⟩

def scheme (k : Nat) : Scheme :=
  s.schemes.getD k ⟨.checkpoint, 0, Builtin.serializer .publicKey, .empty⟩

def pluginsOf (g : Nat) : Plugins := s.plugins.getD g .empty

def environment (e : Nat) : Environment := s.environments.getD e ⟨[], .empty, .empty⟩

def setPolicy (id : Nat) (p : Policy) : Store := { s with policies := s.policies.set (id - 1) p }

def setScope (id : Nat) (c : Scope) : Store := { s with scopes := s.scopes.set (id - 1) c }

def setFactory (f : Nat) (x : Factory) : Store := { s with factories := s.factories.set f x }

def setScheme (k : Nat) (x : Scheme) : Store := { s with schemes := s.schemes.set k x }

def setEnvironment (e : Nat) (x : Environment) : Store :=
  { s with environments := s.environments.set e x }

/-- What a factory writes and reads with. -/
def setting (f : Nat) : Setting where
  natives := s.natives
  registry := (s.factory f).registry
  scope := s.scope (s.factory f).scope
  policy := s.policy (s.factory f).policy

end Store

namespace Call

variable {α : Type}

def lift : Except Abort α → Call α
  | .ok a => return a
  | .error e => throw e

def fail (e : SerializationError) : Call α := throw (.error e)

def liftError : Except SerializationError α → Call α
  | .ok a => return a
  | .error e => fail e

def log (e : LogEvent) : Call Unit := modify fun s => { s with log := s.log ++ [e] }

def newPolicy (admitsAll : Bool) : Call Nat := do
  let id := (← get).policies.length + 1
  modify fun s => { s with policies := s.policies ++ [.new id admitsAll] }
  return id

def newScope (label : String) (types : List ObjectType) : Call Nat := do
  let id := (← get).scopes.length + 1
  let scope := types.foldl Scope.load (.new id label)
  modify fun s => { s with scopes := s.scopes ++ [scope] }
  return id

def newPlugins (p : Plugins) : Call Nat := do
  let g := (← get).plugins.length
  modify fun s => { s with plugins := s.plugins ++ [p] }
  return g

def newFactory (policy scope : Nat) : Call Nat := do
  let f := (← get).factories.length
  modify fun s => { s with factories := s.factories ++ [⟨policy, scope, .empty⟩] }
  return f

/-- Runs a step of registration on a factory and its policy. -/
def draft (f : Nat) (step : Drafting α) : Call α := do
  let s ← get
  let x := s.factory f
  let (outcome, d) :=
    (step.run.run ⟨x.registry, s.policy x.policy, []⟩ : Except SerializationError α × Draft)
  set { (s.setFactory f { x with registry := d.registry }).setPolicy x.policy d.policy with
    log := s.log ++ d.log }
  liftError outcome

/-- Registers a serializer with a factory; `replace` tells if another one of its type gives way. -/
def register (f : Nat) (replace : Bool) (s : Serializer) : Call Registration :=
  draft f (Draft.register replace s)

/-- Admits the names of a batch, none of which may be admitted already. -/
def allow (policy : Nat) (batch : List String) : Call Unit := do
  let p ← liftError (((← get).policy policy).allow batch)
  modify fun s => s.setPolicy policy p

/-- Admits those names of a batch that are not admitted, and tells how many they are. -/
def allowMissing (policy : Nat) (batch : List String) : Call Nat := do
  let (p, added) ← liftError (((← get).policy policy).allowMissing batch)
  modify fun s => s.setPolicy policy p
  return added

/-- Admits all contributed names, one list after the other, and tells how many are new. -/
def allowContributed (p : Plugins) (policy : Nat) : Call Nat :=
  p.whitelists.foldlM (fun added w => do return added + (← allowMissing policy w.2)) 0

/-- A new policy with all contributed names. It is made also where these cannot be admitted. -/
def defaultPolicy (p : Plugins) : Call Nat := do
  let id ← newPolicy false
  let _ ← allowContributed p id
  return id

/-- Lets a scope load an object type. -/
def load (scope : Nat) (o : ObjectType) : Call Unit :=
  modify fun s => s.setScope scope ((s.scope scope).load o)

/-- Changes what is contributed, for all who share it. -/
def contribute (g : Nat) (change : Plugins → Plugins) : Call Unit :=
  modify fun s => { s with plugins := s.plugins.modify g change }

def serializeWith (f : Nat) (magic : Magic) (t : Ty) (v : Value) : Call Bytes := do
  let (body, schema) ← lift (((← get).setting f).write t v)
  liftError (Envelope.encode ⟨schema, body⟩ magic)

/-- The magic is checked before anything else is looked at. -/
def deserializeWith (f : Nat) (magic : Magic) (t : Ty) (bs : Bytes) : Call Value := do
  let env ← liftError (Envelope.decode magic bs)
  lift (((← get).setting f).read env t)

end Call

end DurableFlow
