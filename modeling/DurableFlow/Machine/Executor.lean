import DurableFlow.Machine.Fault
import DurableFlow.Machine.State
import DurableFlow.Machine.Verifier

/-!
# Carrying out transitions

The innermost executor has the host perform the actions of a transition and turns the first failure into an
error of the flow. Around it there may be layers that write transitions into the log, keep the history of
each flow, or hand newly frozen flows to a verifier. A layer never changes what the executor inside
returns.
-/

namespace DurableFlow

/-- The store together with the verifiers that read from it. -/
structure Deployment where
  store : Store
  verifiers : List Verifier

namespace Deployment

def log (d : Deployment) (e : LogEvent) : Deployment :=
  { d with store := { d.store with log := d.store.log ++ [e] } }

def verifier (d : Deployment) (v : Nat) : Verifier := d.verifiers.getD v .new

def newVerifier (d : Deployment) : Nat × Deployment :=
  (d.verifiers.length, { d with verifiers := d.verifiers ++ [.new] })

/-- Starts a verifier on an environment with a context, unless it was started before. -/
def startVerifier (d : Deployment) (v e : Nat) (c : Context) : Except MachineError Deployment :=
  match (d.verifier v).start? e c d.store with
  | some (x, store) => .ok ⟨store, d.verifiers.set v x⟩
  | none => .error .doubleStart

/-- Stops a verifier and tells whether some flow could not be restored. -/
def stopVerifier (d : Deployment) (v : Nat) : Bool × Deployment :=
  let (found, x, store) := (d.verifier v).stop d.store
  (found, ⟨store, d.verifiers.set v x⟩)

/-- Hands a frozen flow to a verifier. -/
def submit (d : Deployment) (v : Nat) (frozen : Bytes) : Deployment :=
  let (x, store) := (d.verifier v).submit frozen d.store
  ⟨store, d.verifiers.set v x⟩

end Deployment

/-- A transition as it was carried out. -/
structure TransitionRecord where
  event : String
  actions : List String
  continuation : Continuation
  /-- How many errors the flow had afterwards. -/
  errors : Nat
  deriving DecidableEq

namespace TransitionRecord

def describe (r : TransitionRecord) : String :=
  s!"{r.event} {Text.quotedList r.actions} -> {r.continuation.describe}"

/-- Adds a record to those kept, of which there may be `limit`; the oldest ones go. -/
def push (limit : Nat) (rs : List TransitionRecord) (r : TransitionRecord) : List TransitionRecord :=
  (if rs.length = limit then rs.tail else rs) ++ [r]

end TransitionRecord

/-- The records of each flow. -/
abbrev Histories := Bindings FlowId (List TransitionRecord)

inductive Executor where
  /-- Has the host perform the actions. -/
  | terminal
  /-- Takes transitions over without performing actions, and keeps the flows that were removed by force. -/
  | bypass (removed : List FlowId)
  | tracing (inner : Executor)
  /-- Keeps `limit` records for each flow. -/
  | history (limit : Nat) (histories : Histories) (inner : Executor)
  | verifying (verifier : Nat) (inner : Executor)

/-- A call to carry out a transition. -/
structure Execution where
  fiber : Fiber
  previous : MachineState
  event : Event
  transition : Transition

/-- How the host performs an action, with a state of its own. -/
abbrev Performer (σ : Type) := Fiber → Action → σ → Except HostError Unit × σ

/-- What carrying out a transition comes to. -/
structure Result (σ : Type) where
  continuation : Continuation
  state : MachineState
  executor : Executor
  host : σ
  deployment : Deployment

namespace Executor

variable {σ : Type}

/-- Performs actions in order up to the first that fails. -/
def performAll (perform : Performer σ) (fiber : Fiber) :
    List Action → σ → Option (Action × HostError) × σ
  | [], h => (none, h)
  | a :: rest, h =>
    match perform fiber a h with
    | (.ok (), h) => performAll perform fiber rest h
    | (.error e, h) => (some (a, e), h)

def executeTerminal (perform : Performer σ) (x : Execution) (h : σ) (d : Deployment) : Result σ :=
  match performAll perform x.fiber x.transition.actions h with
  | (none, h) => ⟨x.transition.continuation, x.transition.newState, .terminal, h, d⟩
  | (some (a, e), h) =>
    let count := d.store.errors + 1
    let d := d.log ⟨.warn, "action failed, recording flow error", [("flow", x.fiber.id.text),
      ("event", x.event.name), ("action", a.name), ("error", e.line)]⟩
    { continuation := .processEvents
      state := x.previous.withError ⟨.counted count, e.capture⟩
      executor := .terminal
      host := h
      deployment := { d with store := { d.store with errors := count } } }

def traced (x : Execution) (continuation : Continuation) (next : MachineState) : LogEvent :=
  ⟨.debug, "transition", [("flow", x.fiber.id.text), ("flow_class", x.fiber.flowClass),
    ("event", x.event.name), ("actions", toString x.transition.actions.length),
    ("continuation", continuation.describe), ("suspends", toString next.checkpoint.suspends)]⟩

/-- The records of a flow in one line. -/
def dump (rs : List TransitionRecord) : String :=
  "; ".intercalate (rs.zipIdx.map fun (r, i) => s!"#{i} {r.describe}")

def errored (x : Execution) (errors : Nat) (rs : List TransitionRecord) : LogEvent :=
  ⟨.warn, "flow errored", [("flow", x.fiber.id.text), ("flow_class", x.fiber.flowClass),
    ("errors", toString errors), ("history", dump rs)]⟩

/-- The history of the flow after a transition, which may end it. -/
def recordIn (limit : Nat) (histories : Histories) (x : Execution) (continuation : Continuation)
    (next : MachineState) : Histories × Option LogEvent :=
  if next.isRemoved then (histories.erase x.fiber.id, none)
  else
    let errors := next.checkpoint.errors.length
    let rs := TransitionRecord.push limit ((histories.get? x.fiber.id).getD [])
      ⟨x.event.name, x.transition.actions.map Action.name, continuation, errors⟩
    (histories.set x.fiber.id rs,
      if x.previous.checkpoint.errors.length < errors then some (errored x errors rs) else none)

/-- The snapshot frozen by a transition, if the flow had no such snapshot before. -/
def newlyFrozen? (previous next : MachineState) : Option Bytes :=
  match next.frozen? with
  | some frozen => if previous.frozen? = some frozen then none else some frozen
  | none => none

/-- Carries out a transition. -/
def execute (perform : Performer σ) (x : Execution) : Executor → σ → Deployment → Result σ
  | terminal, h, d => executeTerminal perform x h d
  | bypass removed, h, d => ⟨x.transition.continuation, x.transition.newState, .bypass removed, h, d⟩
  | tracing inner, h, d =>
    let r := execute perform x inner h d
    { r with
      executor := .tracing r.executor
      deployment := r.deployment.log (traced x r.continuation r.state) }
  | history limit histories inner, h, d =>
    let r := execute perform x inner h d
    let (histories, event) := recordIn limit histories x r.continuation r.state
    { r with
      executor := .history limit histories r.executor
      deployment := event.elim r.deployment r.deployment.log }
  | verifying v inner, h, d =>
    let r := execute perform x inner h d
    { r with
      executor := .verifying v r.executor
      deployment := (newlyFrozen? x.previous r.state).elim r.deployment (r.deployment.submit v) }

/-- Drops everything held for a flow that is removed by force. -/
def forceRemove (flow : FlowId) : Executor → Deployment → Executor × Deployment
  | terminal, d => (.terminal, d.log ⟨.debug, "force removing flow", [("flow", flow.text)]⟩)
  | bypass removed, d => (.bypass (removed ++ [flow]), d)
  | tracing inner, d =>
    let (inner, d) := forceRemove flow inner (d.log ⟨.debug, "force remove", [("flow", flow.text)]⟩)
    (.tracing inner, d)
  | history limit histories inner, d =>
    let (inner, d) := forceRemove flow inner d
    (.history limit (histories.erase flow) inner, d)
  | verifying v inner, d =>
    let (inner, d) := forceRemove flow inner d
    (.verifying v inner, d)

/-- A layer that keeps a history of at least one record. -/
def withHistory (limit : Nat) (inner : Executor) : Executor := .history (max limit 1) .empty inner

/-- The histories kept, innermost first. -/
def historyLayers : Executor → List Histories
  | terminal | bypass _ => []
  | tracing inner | verifying _ inner => historyLayers inner
  | history _ histories inner => historyLayers inner ++ [histories]

/-- The flows that the innermost executor keeps as removed by force. -/
def removed : Executor → List FlowId
  | terminal => []
  | bypass removed => removed
  | tracing inner | history _ _ inner | verifying _ inner => removed inner

end Executor

/-- Which layers are put around the innermost executor. -/
structure MachineOptions where
  devMode : Bool
  verifyCheckpoints : Bool
  traceTransitions : Bool
  historyLimit : Nat
  deriving DecidableEq

namespace Executor

/-- The executor for these options, with checkpoints verified if there is a verifier. -/
def build (o : MachineOptions) (verifier : Option Nat) : Executor :=
  let x := if o.devMode then withHistory o.historyLimit terminal else terminal
  let x := if o.traceTransitions then tracing x else x
  match verifier with
  | some v => if o.verifyCheckpoints then verifying v x else x
  | none => x

/-- The names of the layers, innermost first. -/
def layerNames : Executor → List String
  | terminal | bypass _ => ["terminal"]
  | tracing inner => layerNames inner ++ ["tracing"]
  | history _ _ inner => layerNames inner ++ ["history"]
  | verifying _ inner => layerNames inner ++ ["checkpoint-verification"]

def built (x : Executor) : LogEvent :=
  ⟨.debug, "executor chain built", [("layers", Text.quotedList x.layerNames)]⟩

end Executor

/-- The executor for these options, which are told to the log. -/
def Deployment.buildExecutor (d : Deployment) (o : MachineOptions) (verifier : Option Nat) :
    Executor × Deployment :=
  let x := Executor.build o verifier
  (x, d.log x.built)

end DurableFlow
