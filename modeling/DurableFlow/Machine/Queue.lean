import DurableFlow.Machine.Verifier

/-!
# The queue of a verifier

The checks of a verifier are made by a worker, which takes its jobs off a queue one after the other. Callers put
jobs at the end of the queue and do not wait for the worker. Only a stop does: it waits until the worker has come to
the job that finishes it, or has broken off. Jobs that are queued behind that one are never taken.
-/

namespace DurableFlow

inductive VerifierJob where
  | check (frozen : Bytes)
  | finish

/-- What has been asked of a queued verifier. -/
inductive QueuePhase where
  | idle
  | running
  /-- A stop waits for the worker. -/
  | joining
  | stopped

structure QueuedVerifier where
  phase : QueuePhase
  jobs : List VerifierJob
  /-- What the worker has come to. It is idle until it is started. -/
  worker : Verifier
  /-- Has the worker come to the job that finishes it? -/
  finished : Bool

namespace QueuedVerifier

def new : QueuedVerifier := ⟨.idle, [], .new, false⟩

/-- Starts the worker, which is possible once and not after a stop. -/
def start? (q : QueuedVerifier) (e : Nat) (c : Context) (s : Store) : Option (QueuedVerifier × Store) :=
  match q.phase with
  | .idle => some ({ q with phase := .running, worker := { q.worker with phase := .running e c } },
      { s with log := s.log ++ [⟨.info, "checkpoint verifier started", []⟩] })
  | _ => none

def submit (q : QueuedVerifier) (frozen : Bytes) : QueuedVerifier :=
  { q with jobs := q.jobs ++ [.check frozen] }

/-- What a stop does before it waits. -/
def askToStop (q : QueuedVerifier) : QueuedVerifier :=
  match q.phase with
  | .idle => { q with phase := .stopped }
  | .running => { q with phase := .joining, jobs := q.jobs ++ [.finish] }
  | .joining | .stopped => q

/-- The worker takes the next job, if it runs and there is one. -/
def work? (q : QueuedVerifier) (s : Store) : Option (QueuedVerifier × Store) :=
  match q.worker.phase, q.finished, q.jobs with
  | .running _ _, false, .check frozen :: jobs =>
    let (w, s) := q.worker.check frozen s
    some ({ q with jobs := jobs, worker := w }, s)
  | .running _ _, false, .finish :: jobs => some ({ q with jobs := jobs, finished := true }, s)
  | _, _, _ => none

/-- A stop goes on once the worker has finished or broken off. -/
def join? (q : QueuedVerifier) (s : Store) : Option (QueuedVerifier × Store) :=
  match q.phase, q.worker.phase, q.finished with
  | .joining, .broken, _ | .joining, _, true =>
    let (_, w, s) := q.worker.stop s
    some ({ q with phase := .stopped, worker := w }, s)
  | _, _, _ => none

/-- Has some flow been found that could not be restored? This is what a stop reports in the end. -/
def unrestorable (q : QueuedVerifier) : Bool := q.worker.unrestorable

def checks (q : QueuedVerifier) : Nat := q.worker.checks

end QueuedVerifier

end DurableFlow
