import DurableFlow.Machine.Snapshot

/-!
# Verification of checkpoints

A verifier reads every frozen flow that it is given, in order, to see whether it can be restored. It checks
only between its start and its stop; what it is given before its start is checked at the start, and what it
is given after its stop is never checked. A flow that breaks the reader off ends all checking.
-/

namespace DurableFlow

/-- What a verifier is doing. -/
inductive VerifierPhase where
  | idle
  | running (environment : Nat) (context : Context)
  /-- A check has broken off, and no other one is made. -/
  | broken
  | stopped

structure Verifier where
  phase : VerifierPhase
  /-- What was given before the start. -/
  waiting : List Bytes
  checks : Nat
  unrestorable : Bool

namespace Verifier

def new : Verifier := ⟨.idle, [], 0, false⟩

def isRunning (v : Verifier) : Bool :=
  match v.phase with
  | .running _ _ | .broken => true
  | .idle | .stopped => false

def restorable (flow : FlowId) (size : Nat) : LogEvent :=
  ⟨.debug, "checkpoint restorable", [("flow", flow.text), ("bytes", toString size)]⟩

def unrestorableEvent (frozen : Bytes) (e : SerializationError) : LogEvent :=
  let causes := match e.causes with
    | [] => "none"
    | cs => ": ".intercalate cs
  ⟨.error, "encountered unrestorable checkpoint",
    [("checkpoint", (SecureHash.of frozen).text), ("error", e.message), ("causes", causes)]⟩

/-- What a check adds to the log. -/
def outcomeEvents (frozen : Bytes) : Except Abort Snapshot → List LogEvent
  | .ok s => [restorable s.flowId frozen.length]
  | .error (.error e) => [unrestorableEvent frozen e]
  | .error .panic => []

/-- Takes the outcome of a check into account. -/
def record (v : Verifier) : Except Abort Snapshot → Verifier
  | .ok _ => { v with checks := v.checks + 1 }
  | .error (.error _) => { v with checks := v.checks + 1, unrestorable := true }
  | .error .panic => { v with phase := .broken }

/-- Checks one frozen flow. What this writes into the log stands apart from what the callers write. -/
def check (v : Verifier) (frozen : Bytes) (s : Store) : Verifier × Store :=
  match v.phase with
  | .running e c =>
    let (outcome, s') := ((Call.thawWith e c frozen).run.run { s with log := [] } :
      Except Abort Snapshot × Store)
    (v.record outcome, { s' with
      log := s.log
      checkLog := s.checkLog ++ s'.log ++ outcomeEvents frozen outcome })
  | _ => (v, s)

def checkAll : List Bytes → Verifier → Store → Verifier × Store
  | [], v, s => (v, s)
  | frozen :: rest, v, s =>
    let (v, s) := v.check frozen s
    checkAll rest v s

/-- Hands a frozen flow over. -/
def submit (v : Verifier) (frozen : Bytes) (s : Store) : Verifier × Store :=
  match v.phase with
  | .idle => ({ v with waiting := v.waiting ++ [frozen] }, s)
  | _ => v.check frozen s

/-- Starts a verifier, which is possible once and not after a stop. -/
def start? (v : Verifier) (e : Nat) (c : Context) (s : Store) : Option (Verifier × Store) :=
  match v.phase with
  | .idle =>
    let s := { s with log := s.log ++ [⟨.info, "checkpoint verifier started", []⟩] }
    some (checkAll v.waiting { v with phase := .running e c, waiting := [] } s)
  | _ => none

/-- Stops a verifier and tells whether some flow could not be restored. -/
def stop (v : Verifier) (s : Store) : Bool × Verifier × Store :=
  let halt (v : Verifier) (events : List LogEvent) : Bool × Verifier × Store :=
    let summary : LogEvent := ⟨.info, "checkpoint verifier stopped",
      [("checks", toString v.checks), ("unrestorable", toString v.unrestorable)]⟩
    (v.unrestorable, { v with phase := .stopped }, { s with log := s.log ++ events ++ [summary] })
  match v.phase with
  | .idle => (v.unrestorable, { v with phase := .stopped }, s)
  | .stopped => (v.unrestorable, v, s)
  | .running _ _ => halt v []
  | .broken =>
    halt { v with unrestorable := true } [⟨.error, "checkpoint verifier thread panicked", []⟩]

end Verifier

end DurableFlow
