import DurableFlow.Proofs.Failure.Capture
import DurableFlow.Proofs.Machine.Transparency

/-!
# Actions up to the first failure

The innermost executor has the host perform the actions of a transition one by one until one fails. The
transition then counts as a whole or, but for an error that is added to the flow, not at all.
-/

namespace DurableFlow

variable {σ : Type} {perform : Performer σ} {fiber : Fiber} {actions : List Action} {h h₁ h' : σ}
  {a : Action} {e : HostError}

namespace Performer

/-- The host performs these actions one after the other, which takes it from one of its states to another,
and none of them fails. -/
inductive Completes (perform : Performer σ) (fiber : Fiber) : List Action → σ → σ → Prop
  | nil (h : σ) : Completes perform fiber [] h h
  | cons {a : Action} {rest : List Action} {h h₁ h' : σ} (first : perform fiber a h = (.ok (), h₁))
    (later : Completes perform fiber rest h₁ h') : Completes perform fiber (a :: rest) h h'

theorem completes_or_fails (perform : Performer σ) (fiber : Fiber) (actions : List Action) (h : σ) :
    (∃ h', perform.Completes fiber actions h h') ∨
      ∃ before a after e h₁ h', actions = before ++ a :: after ∧ perform.Completes fiber before h h₁ ∧
        perform fiber a h₁ = (.error e, h') := by
  induction actions generalizing h with
  | nil => exact .inl ⟨h, .nil h⟩
  | cons b rest ih =>
    cases hb : perform fiber b h with
    | mk outcome h₀ =>
      cases outcome with
      | error e => exact .inr ⟨[], b, rest, e, h, h₀, rfl, .nil h, hb⟩
      | ok =>
        rcases ih h₀ with ⟨h', hrest⟩ | ⟨before, a, after, e, h₁, h', rfl, hbefore, ha⟩
        · exact .inl ⟨h', .cons hb hrest⟩
        · exact .inr ⟨b :: before, a, after, e, h₁, h', rfl, .cons hb hbefore, ha⟩

end Performer

namespace Executor

theorem noting_apply {outcome : Except HostError Unit} (ha : perform fiber a h = (outcome, h'))
    (handed : List (Fiber × Action)) :
    noting perform fiber a (h, handed) = (outcome, h', handed ++ [(fiber, a)]) := by
  rw [noting, ha]

/-- A host that takes down what it is handed performs the same actions, and has them all on its list. -/
theorem completes_noting (hall : perform.Completes fiber actions h h')
    (handed : List (Fiber × Action)) :
    (noting perform).Completes fiber actions (h, handed) (h', handed ++ actions.map (fiber, ·)) := by
  induction hall generalizing handed with
  | nil h =>
    rw [List.map_nil, List.append_nil]
    exact .nil _
  | cons first later ih =>
    rw [List.map_cons, List.append_cons]
    exact .cons (noting_apply first handed) (ih _)

theorem performAll_cons (first : perform fiber a h = (.ok (), h₁)) (rest : List Action) :
    performAll perform fiber (a :: rest) h = performAll perform fiber rest h₁ := by
  rw [performAll, first]

theorem performAll_of_completes (hall : perform.Completes fiber actions h h') :
    performAll perform fiber actions h = (none, h') := by
  induction hall with
  | nil h => rfl
  | cons first later ih => rw [performAll_cons first, ih]

theorem performAll_of_fails (after : List Action) {before : List Action}
    (hbefore : perform.Completes fiber before h h₁) (ha : perform fiber a h₁ = (.error e, h')) :
    performAll perform fiber (before ++ a :: after) h = (some (a, e), h') := by
  induction hbefore with
  | nil h => rw [List.nil_append, performAll, ha]
  | cons first later ih => rw [List.cons_append, performAll_cons first, ih ha]

end Executor

/-- What is captured of an error has all its messages, outermost first. -/
theorem HostError.messages_capture (e : HostError) :
    e.capture.chain.map ThrowableLink.message = e.links.map fun text => some text.shown := by
  rw [capture, chain_captureAs, links, List.map_cons, List.map_cons, List.map_map]
  rfl

/-- The innermost executor has the host perform actions in order and each of them once, up to the first
that fails. Without a failure it returns what the transition asks for. After a failure it returns the
previous state with this one error behind the earlier ones and with the flow no longer running. -/
theorem Machine.carryOut_terminal (perform : Performer σ) (x : Execution) (h : σ) (d : Deployment) :
    let (answer, m) := Machine.carryOut ⟨.terminal, h, d⟩ perform x
    (∃ h', perform.Completes x.fiber x.transition.actions h h' ∧
      answer = ⟨x.transition.continuation, x.transition.newState,
        x.transition.actions.map (x.fiber, ·)⟩ ∧
      m = ⟨.terminal, h', d⟩) ∨
    ∃ before a after e h₁ h', x.transition.actions = before ++ a :: after ∧
      perform.Completes x.fiber before h h₁ ∧ perform x.fiber a h₁ = (.error e, h') ∧
      m.executor = .terminal ∧ m.host = h' ∧
      answer.handed = (before ++ [a]).map (x.fiber, ·) ∧
      answer.continuation = .processEvents ∧
      ∃ error : FlowError, error.exception = e.capture ∧
        error.exception.chain.map ThrowableLink.message = e.links.map (fun text => some text.shown) ∧
        answer.state =
          { x.previous with
            checkpoint := { x.previous.checkpoint with errors := x.previous.checkpoint.errors ++ [error] }
            isResumed := false } := by
  rw [Machine.carryOut, Executor.execute, Executor.executeTerminal]
  rcases perform.completes_or_fails x.fiber x.transition.actions h with
    ⟨h', hall⟩ | ⟨before, a, after, e, h₁, h', hactions, hbefore, ha⟩
  · rw [Executor.performAll_of_completes (Executor.completes_noting hall [])]
    exact .inl ⟨h', hall, rfl, rfl⟩
  · have hfailed := Executor.performAll_of_fails after (Executor.completes_noting hbefore [])
      (Executor.noting_apply ha _)
    rw [← hactions, List.nil_append, ← List.map_singleton, ← List.map_append] at hfailed
    rw [hfailed]
    exact .inr ⟨before, a, after, e, h₁, h', hactions, hbefore, ha, rfl, rfl, rfl, rfl, _, rfl,
      e.messages_capture, rfl⟩

end DurableFlow
