import DurableFlow.Failure.Throwable
import DurableFlow.Types.Value

/-!
# States of flows, events and transitions
-/

namespace DurableFlow

abbrev SessionId := UInt64

def SessionId.text (s : SessionId) : String := s!"session-{s}"

/-- What a suspended flow waits for. -/
inductive FlowIo where
  | send (messages : List (SessionId × Bytes))
  | receive (sessions : List SessionId)
  | waitForLedgerCommit (transaction : SecureHash)
  | sleep (wake : Instant)
  /-- Only for its checkpoint to be kept. -/
  | forceCheckpoint
  deriving DecidableEq

inductive FlowState where
  | unstarted (flowClass : String)
  /-- Suspended at least once, with the frozen snapshot of the flow. -/
  | started (waitsFor : FlowIo) (frozen : Bytes)
  deriving DecidableEq

/-- Errors are numbered by the host or, when an action fails, by the executor. -/
inductive ErrorId where
  | given (n : UInt64)
  | counted (n : Nat)
  deriving DecidableEq

structure FlowError where
  id : ErrorId
  exception : Throwable
  deriving DecidableEq

/-- The part of a flow's state that is kept in storage. -/
structure Checkpoint where
  flowState : FlowState
  /-- In the order in which they were raised. -/
  errors : List FlowError
  suspends : UInt32
  deriving DecidableEq

structure MachineState where
  checkpoint : Checkpoint
  isResumed : Bool
  isRemoved : Bool
  deriving DecidableEq

namespace MachineState

/-- The frozen snapshot, if the flow has started. -/
def frozen? (s : MachineState) : Option Bytes :=
  match s.checkpoint.flowState with
  | .started _ frozen => some frozen
  | .unstarted _ => none

/-- The state with an error added and the flow no longer running. -/
def withError (s : MachineState) (e : FlowError) : MachineState :=
  { s with
    checkpoint := { s.checkpoint with errors := s.checkpoint.errors ++ [e] }
    isResumed := false }

end MachineState

inductive Event where
  | doRemainingWork
  | suspend (waitsFor : FlowIo) (frozen : Bytes)
  | deliverSessionMessage (session : SessionId) (payload : Bytes)
  | error (exception : Throwable)
  | flowFinish (result : Bytes)
  | softShutdown
  deriving DecidableEq

def Event.name : Event → String
  | doRemainingWork => "DoRemainingWork"
  | suspend _ _ => "Suspend"
  | deliverSessionMessage _ _ => "DeliverSessionMessage"
  | error _ => "Error"
  | flowFinish _ => "FlowFinish"
  | softShutdown => "SoftShutdown"

/-- What becomes of the running computation. -/
inductive Continuation where
  | resume (value : Option Bytes)
  | throw (exception : Throwable)
  | processEvents
  | abort
  deriving DecidableEq

/-- The form used in the log. -/
def Continuation.describe : Continuation → String
  | resume none => "Resume(None)"
  | resume (some value) => s!"Resume(Some({describeBytes value}))"
  | throw exception => s!"Throw({exception.describe})"
  | processEvents => "ProcessEvents"
  | abort => "Abort"

/-- What a transition asks the host to do. -/
inductive Action where
  | persistCheckpoint (flow : FlowId) (checkpoint : Checkpoint)
  | removeCheckpoint (flow : FlowId)
  | sendMessage (session : SessionId) (payload : Bytes)
  | scheduleEvent (event : Event)
  | removeFlow (flow : FlowId)
  deriving DecidableEq

def Action.name : Action → String
  | persistCheckpoint _ _ => "PersistCheckpoint"
  | removeCheckpoint _ => "RemoveCheckpoint"
  | sendMessage _ _ => "SendMessage"
  | scheduleEvent _ => "ScheduleEvent"
  | removeFlow _ => "RemoveFlow"

/-- A transition of a flow, computed and not yet carried out. -/
structure Transition where
  newState : MachineState
  actions : List Action
  continuation : Continuation
  deriving DecidableEq

/-- The running computation of a flow. -/
structure Fiber where
  id : FlowId
  flowClass : String
  deriving DecidableEq

end DurableFlow
