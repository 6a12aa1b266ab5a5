import DurableFlow.Environment.Scheme

/-!
# Environments

An environment is a list of schemes and a context for each use case. Writing takes the first scheme with
the magic of the context, reading the first one that accepts the magic of the bytes for the use case.
-/

namespace DurableFlow.Call

/-- A later context of one use case takes the place of an earlier one. -/
def newEnvironment (schemes : List Nat) (contexts : List Context) : Call Nat := do
  let e := (← get).environments.length
  let contexts := contexts.foldl (fun m c => m.set c.useCase c) .empty
  modify fun s => { s with environments := s.environments ++ [⟨schemes, contexts, .empty⟩] }
  return e

/-- The place of the first scheme that accepts a magic for a use case. -/
def firstAccepting (s : Store) (schemes : List Nat) (magic : Magic) (useCase : UseCase) : Option Nat :=
  schemes.findIdx? fun k => (s.scheme k).kind.accepts magic useCase

/-- The scheme that reads a magic for a use case. The choice is kept. -/
def schemeFor (e : Nat) (magic : Magic) (useCase : UseCase) : Call Nat := do
  let s ← get
  let x := s.environment e
  let place ← match x.chosen.get? (magic, useCase) with
    | some i => pure i
    | none =>
      match firstAccepting s x.schemes magic useCase with
      | none => fail (.noSchemeFor magic useCase)
      | some i => do
        set (s.setEnvironment e { x with chosen := x.chosen.set (magic, useCase) i })
        pure i
  match x.schemes[place]? with
  | some k => return k
  | none => fail (.noSchemeFor magic useCase)

def serialize (e : Nat) (c : Context) (t : Ty) (v : Value) : Call Bytes := do
  let s ← get
  match (s.environment e).schemes.find? fun k => (s.scheme k).kind.magic = c.magic with
  | some k => serializeBy k c t v
  | none => fail (.noSchemeFor c.magic c.useCase)

def deserialize (e : Nat) (c : Context) (t : Ty) (bs : Bytes) : Call Value := do
  match Magic.ofPrefix? bs with
  | none => fail (.unknownMagic (Magic.describeFront bs))
  | some magic => do
    let k ← schemeFor e magic c.useCase
    deserializeBy k c t bs

/-- The context of an environment for a use case, if it has one. -/
def context? (e : Nat) (useCase : UseCase) : Call (Option Context) := do
  return ((← get).environment e).contexts.get? useCase

/-- The context for checkpoints, which an environment may lack. -/
def checkpointContextOf (e : Nat) : Call Context := do
  match ← context? e .checkpoint with
  | some c => return c
  | none => fail (.unsupportedOperation "no checkpoint context configured")

def checkpointSerialize (e : Nat) (t : Ty) (v : Value) : Call Bytes := do
  serialize e (← checkpointContextOf e) t v

def checkpointDeserialize (e : Nat) (t : Ty) (bs : Bytes) : Call Value := do
  deserialize e (← checkpointContextOf e) t bs

end DurableFlow.Call
