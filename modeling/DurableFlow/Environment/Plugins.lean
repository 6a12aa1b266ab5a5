import DurableFlow.Builtin.Standard
import DurableFlow.Log

/-!
# Contributions and registration

Deployments contribute lists of names to be admitted and serializers. Registration makes a factory ready:
it registers the serializers that come with the library, admits the contributed names and registers the
contributed serializers. It runs again on every request for a factory, which changes nothing unless
something has been contributed since.
-/

namespace DurableFlow

/-- The object types of the library itself. -/
def defaultNames : List String := ["flow.FiberSnapshot", "flow.ResumePoint"]

structure Plugins where
  /-- Lists of names by contributor. -/
  whitelists : List (String × List String)
  /-- Serializers by contributor. -/
  serializers : List (String × Serializer)

namespace Plugins

def empty : Plugins := ⟨[], []⟩

def new : Plugins := ⟨[("default", defaultNames)], []⟩

def addWhitelist (p : Plugins) (contributor : String) (names : List String) : Plugins :=
  { p with whitelists := p.whitelists ++ [(contributor, names)] }

/-- A serializer that breaks off is not to take its caller down. -/
def addSerializer (p : Plugins) (contributor : String) (s : Serializer) : Plugins :=
  { p with serializers := p.serializers ++ [(contributor, { s with isolated := true })] }

end Plugins

/-- What registration works on. -/
structure Draft where
  registry : Registry
  policy : Policy
  /-- In the order of the events. -/
  log : List LogEvent

/-- A step of registration, which keeps what it has done when it fails. -/
abbrev Drafting := ExceptT SerializationError (StateM Draft)

namespace Draft

def lift {α : Type} : Except SerializationError α → Drafting α
  | .ok a => return a
  | .error e => throw e

def note (e : LogEvent) : Drafting Unit := modify fun d => { d with log := d.log ++ [e] }

/-- Registers a serializer and makes a note in the log if another one gives way. -/
def register (replace : Bool) (s : Serializer) : Drafting Registration := do
  let (registry, outcome) ← lift ((← get).registry.add replace s)
  modify fun d => { d with registry := registry }
  if let .replaced previous := outcome then
    note ⟨.info, "serializer replaced", [("previous", previous), ("replacement", s.id)]⟩
  return outcome

def add (replace : Bool) (s : Serializer) : Drafting Unit := discard (register replace s)

/-- Admits the names of each list in turn. -/
def allowAll : List (String × List String) → Drafting Unit
  | [] => return
  | (_, names) :: rest => do
    let (policy, _) ← lift ((← get).policy.allowMissing names)
    modify fun d => { d with policy := policy }
    allowAll rest

/-- Registers a contributed serializer, or notes in the log why it cannot be. -/
def contribute (contributor : String) (s : Serializer) : Drafting Unit := do
  try add true s
  catch e => note ⟨.warn, "skipping plugin serializer", [("source", contributor), ("error", e.message)]⟩

end Draft

/-- Registration with these contributions and this serializer for public keys. -/
def Plugins.apply (p : Plugins) (publicKey : Serializer) : Drafting Unit := do
  Builtin.standard.forM (Draft.add false)
  Draft.add false publicKey
  Builtin.security.forM (Draft.add false)
  Draft.allowAll p.whitelists
  p.serializers.forM fun (contributor, s) => Draft.contribute contributor s

end DurableFlow
