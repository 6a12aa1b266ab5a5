import DurableFlow.Proofs.Machine.Verification
import Mathlib.Data.List.Forall2

/-!
# Layers that do not show

Whatever layers there are around the executor that performs actions, and whatever they have kept of earlier
calls, a transition comes to what it comes to without them, and the host is handed the same actions. Only
the numbers of errors depend on what else has happened.
-/

namespace DurableFlow

/-- What is returned for a transition, with the actions that the host has been handed for it. -/
structure Answer where
  continuation : Continuation
  state : MachineState
  handed : List (Fiber × Action)

/-- Two answers are the same but for the number of an error that the executor itself has recorded. -/
inductive Answer.Agree : Answer → Answer → Prop
  | same (a : Answer) : Agree a a
  | failed (previous : MachineState) (exception : Throwable) (handed : List (Fiber × Action))
    (n n' : Nat) : Agree ⟨.processEvents, previous.withError ⟨.counted n, exception⟩, handed⟩
      ⟨.processEvents, previous.withError ⟨.counted n', exception⟩, handed⟩

namespace Executor

variable {σ : Type} {x : Executor}

def noting (perform : Performer σ) : Performer (σ × List (Fiber × Action)) :=
  fun fiber action (h, handed) =>
    let (outcome, h) := perform fiber action h
    (outcome, h, handed ++ [(fiber, action)])

/-- The innermost executor has the host perform the actions. -/
def Performs : Executor → Prop
  | terminal => True
  | bypass _ => False
  | tracing inner | history _ _ inner | verifying _ inner => Performs inner

theorem performs_build (o : MachineOptions) (verifier : Option Nat) : (build o verifier).Performs := by
  rw [build.eq_def]
  rcases verifier with _ | v
  · cases o.devMode <;> cases o.traceTransitions <;> exact trivial
  · cases o.devMode <;> cases o.traceTransitions <;> cases o.verifyCheckpoints <;> exact trivial

/-- A layer hands the call on as it is, and what comes back as well. -/
theorem execute_performs (hx : x.Performs) (perform : Performer σ) (call : Execution) (h : σ)
    (d : Deployment) :
    (execute perform call x h d).continuation = (executeTerminal perform call h d).continuation ∧
      (execute perform call x h d).state = (executeTerminal perform call h d).state ∧
      (execute perform call x h d).host = (executeTerminal perform call h d).host ∧
      (execute perform call x h d).executor.Performs := by
  induction x with
  | terminal =>
    obtain ⟨hexecutor, -⟩ := executeTerminal_like perform call h d
    refine ⟨rfl, rfl, rfl, ?_⟩
    rw [execute, hexecutor]
    exact trivial
  | bypass removed => exact hx.elim
  | tracing inner ih => exact ih hx
  | history limit histories inner ih => exact ih hx
  | verifying v inner ih => exact ih hx

theorem forceRemove_performs (hx : x.Performs) (flow : FlowId) (d : Deployment) :
    (forceRemove flow x d).1.Performs := by
  induction x generalizing d with
  | terminal => exact trivial
  | bypass removed => exact hx.elim
  | tracing inner ih => exact ih hx _
  | history limit histories inner ih => exact ih hx d
  | verifying v inner ih => exact ih hx d

/-- The deployment that the innermost executor finds shows in the number of an error and in nothing
else. -/
theorem agree_executeTerminal (perform : Performer σ) (call : Execution) (h : σ) (d d' : Deployment) :
    (executeTerminal perform call h d).host = (executeTerminal perform call h d').host ∧
      ∀ handed, Answer.Agree
        ⟨(executeTerminal perform call h d).continuation, (executeTerminal perform call h d).state, handed⟩
        ⟨(executeTerminal perform call h d').continuation, (executeTerminal perform call h d').state,
          handed⟩ := by
  rw [executeTerminal, executeTerminal]
  rcases performAll perform call.fiber call.transition.actions h with ⟨_ | ⟨action, e⟩, h'⟩
  · exact ⟨rfl, fun handed => .same _⟩
  · exact ⟨rfl, fun handed => .failed call.previous e.capture handed _ _⟩

end Executor

/-- What is done to an executor: a transition is carried out by a host, or a flow is removed by force. In
between, anything may happen to the deployment. -/
inductive MachineCall (σ : Type) where
  | execute (perform : Performer σ) (call : Execution)
  | forceRemove (flow : FlowId)
  | elsewhere (change : Deployment → Deployment)

/-- An executor with the host that it has perform actions. -/
structure Machine (σ : Type) where
  executor : Executor
  host : σ
  deployment : Deployment

namespace Machine

variable {σ : Type} {m m' : Machine σ}

def carryOut (m : Machine σ) (perform : Performer σ) (call : Execution) : Answer × Machine σ :=
  let r := Executor.execute (Executor.noting perform) call m.executor (m.host, []) m.deployment
  (⟨r.continuation, r.state, r.host.2⟩, ⟨r.executor, r.host.1, r.deployment⟩)

def after (m : Machine σ) : MachineCall σ → Machine σ
  | .execute perform call => (m.carryOut perform call).2
  | .forceRemove flow =>
    let (executor, deployment) := Executor.forceRemove flow m.executor m.deployment
    ⟨executor, m.host, deployment⟩
  | .elsewhere change => { m with deployment := change m.deployment }

def afterAll (m : Machine σ) (calls : List (MachineCall σ)) : Machine σ := calls.foldl after m

def answers (m : Machine σ) : List (MachineCall σ) → List Answer
  | [] => []
  | .execute perform call :: calls =>
    (m.carryOut perform call).1 :: answers (m.after (.execute perform call)) calls
  | .forceRemove flow :: calls => answers (m.after (.forceRemove flow)) calls
  | .elsewhere change :: calls => answers (m.after (.elsewhere change)) calls

/-- An executor with layers around it, and the executor alone, with the same host. -/
structure Mirrors (m m' : Machine σ) : Prop where
  performs : m.executor.Performs
  bare : m'.executor = .terminal
  host : m'.host = m.host

theorem Mirrors.carryOut (h : Mirrors m m') (perform : Performer σ) (call : Execution) :
    (m.carryOut perform call).1.Agree (m'.carryOut perform call).1 ∧
      Mirrors (m.carryOut perform call).2 (m'.carryOut perform call).2 := by
  obtain ⟨executor', host', d'⟩ := m'
  obtain ⟨hperforms, hbare, hhost⟩ := h
  obtain rfl : executor' = .terminal := hbare
  obtain rfl : host' = m.host := hhost
  obtain ⟨hcontinuation, hstate, houter, hlayers⟩ := Executor.execute_performs hperforms
    (Executor.noting perform) call (m.host, []) m.deployment
  obtain ⟨hinner, hagree⟩ := Executor.agree_executeTerminal (Executor.noting perform) call
    (m.host, []) m.deployment d'
  obtain ⟨hterminal, -⟩ := Executor.executeTerminal_like (Executor.noting perform) call (m.host, []) d'
  refine ⟨?_, hlayers, hterminal, congrArg Prod.fst (hinner.symm.trans houter.symm)⟩
  -- the layers return what the innermost executor returns, which is the same on both deployments
  have hanswer : (m.carryOut perform call).1 = ⟨(Executor.executeTerminal (Executor.noting perform) call
      (m.host, []) m.deployment).continuation, (Executor.executeTerminal (Executor.noting perform) call
      (m.host, []) m.deployment).state, (Executor.executeTerminal (Executor.noting perform) call
      (m.host, []) m.deployment).host.2⟩ := by
    rw [Machine.carryOut, hcontinuation, hstate, houter]
  rw [hanswer, hinner]
  exact hagree _

theorem Mirrors.after (h : Mirrors m m') (call : MachineCall σ) :
    Mirrors (m.after call) (m'.after call) := by
  cases call with
  | execute perform call => exact (h.carryOut perform call).2
  | forceRemove flow =>
    refine ⟨Executor.forceRemove_performs h.performs flow m.deployment, ?_, h.host⟩
    rw [Machine.after, h.bare]
    rfl
  | elsewhere change => exact ⟨h.performs, h.bare, h.host⟩

theorem Mirrors.answers (h : Mirrors m m') (calls : List (MachineCall σ)) :
    List.Forall₂ Answer.Agree (m.answers calls) (m'.answers calls) ∧
      Mirrors (m.afterAll calls) (m'.afterAll calls) := by
  induction calls generalizing m m' with
  | nil => exact ⟨.nil, h⟩
  | cons call calls ih =>
    obtain ⟨hanswers, hlast⟩ := ih (h.after call)
    refine ⟨?_, hlast⟩
    cases call with
    | execute perform call => exact .cons (h.carryOut perform call).1 hanswers
    | forceRemove flow => exact hanswers
    | elsewhere change => exact hanswers

def build (d : Deployment) (o : MachineOptions) (verifier : Option Nat) (h : σ) : Machine σ :=
  let (x, d) := d.buildExecutor o verifier
  ⟨x, h, d⟩

theorem performs_afterAll (hm : m.executor.Performs) (calls : List (MachineCall σ)) :
    (m.afterAll calls).executor.Performs := by
  have hbare : Mirrors m ⟨.terminal, m.host, m.deployment⟩ := ⟨hm, rfl, rfl⟩
  exact (hbare.answers calls).2.performs

/-- An executor with layers around it, whichever these are and whatever it has been used for, answers
transitions as the executor inside does alone, which has the host perform the same actions. -/
theorem answers_of_build (o : MachineOptions) (verifier : Option Nat) (d d' : Deployment) (h : σ)
    (earlier calls : List (MachineCall σ)) :
    let m := (build d o verifier h).afterAll earlier
    let bare : Machine σ := ⟨.terminal, m.host, d'⟩
    List.Forall₂ Answer.Agree (m.answers calls) (bare.answers calls) ∧
      (m.afterAll calls).host = (bare.afterAll calls).host := by
  intro m bare
  have hbuild : (build d o verifier h).executor.Performs := Executor.performs_build o verifier
  have hmirrors : Mirrors m bare := ⟨performs_afterAll hbuild earlier, rfl, rfl⟩
  obtain ⟨hanswers, hlast⟩ := hmirrors.answers calls
  exact ⟨hanswers, hlast.host.symm⟩

end Machine

end DurableFlow
