import DurableFlow.Machine.Executor
import DurableFlow.Proofs.Environment.Factories
import DurableFlow.Proofs.Environment.Oblivious
import Mathlib.Data.List.TakeWhile

/-!
# What a verifier is given and what it finds

The verifying layer hands over the fibers that the transitions of a run have newly frozen, each once and in
order, whatever the other layers write into the log. The verifier thaws them one after the other. It counts
the checks that come to an end, and it has found an unrestorable fiber if one of them does not thaw.
-/

namespace DurableFlow

/-- What thawing frozen flows one after the other comes to. -/
def Call.thawEach (e : Nat) (c : Context) : List Bytes → Store → List (Except Abort Snapshot)
  | [], _ => []
  | frozen :: rest, s =>
    (runOn (thawWith e c frozen) s).1 :: thawEach e c rest (runOn (thawWith e c frozen) s).2

theorem Call.length_thawEach (e : Nat) (c : Context) (bs : List Bytes) (s : Store) :
    (thawEach e c bs s).length = bs.length := by
  induction bs generalizing s with
  | nil => rfl
  | cons b bs ih => rw [thawEach, List.length_cons, List.length_cons, ih]

namespace Verifier

variable {v : Verifier} {e : Nat} {c : Context} {s s' : Store}

def finishes : Except Abort Snapshot → Bool
  | .error .panic => false
  | _ => true

/-- Takes the outcome of a check into account if checks are made. -/
def see (v : Verifier) (outcome : Except Abort Snapshot) : Verifier :=
  match v.phase with
  | .running _ _ => v.record outcome
  | _ => v

theorem check_running (hv : v.phase = .running e c) (frozen : Bytes) (hs : s.Like s') :
    (v.check frozen s').1 = v.record (runOn (Call.thawWith e c frozen) s).1 ∧
      (runOn (Call.thawWith e c frozen) s).2.Like (v.check frozen s').2 := by
  have hclear : s.Like { s' with log := [] } := by
    obtain ⟨errors, log, checkLog, rfl⟩ := hs
    exact ⟨errors, [], checkLog, rfl⟩
  obtain ⟨hout, hlike⟩ := Call.oblivious_thawWith e c frozen s _ hclear
  have hcheck : v.check frozen s' =
      (v.record (runOn (Call.thawWith e c frozen) { s' with log := [] }).1,
        { (runOn (Call.thawWith e c frozen) { s' with log := [] }).2 with
          log := s'.log
          checkLog := s'.checkLog ++ (runOn (Call.thawWith e c frozen) { s' with log := [] }).2.log ++
            outcomeEvents frozen (runOn (Call.thawWith e c frozen) { s' with log := [] }).1 }) := by
    rw [check, hv]
    rfl
  rw [hcheck, hout]
  exact ⟨rfl, hlike.trans ⟨_, _, _, rfl⟩⟩

theorem check_of_not_running (hv : ∀ e c, v.phase ≠ .running e c) (frozen : Bytes) (s : Store) :
    v.check frozen s = (v, s) := by
  rw [check]
  split
  case h_1 e c h => exact absurd h (hv e c)
  case h_2 => rfl

theorem record_phase (hv : v.phase = .running e c) (outcome : Except Abort Snapshot) :
    (v.record outcome).phase = if finishes outcome then .running e c else .broken := by
  rcases outcome with (_ | _) | _
  · exact hv
  · rfl
  · exact hv

theorem record_not_running (hv : v.phase = .running e c) {outcome : Except Abort Snapshot}
    (h : finishes outcome = false) (e' : Nat) (c' : Context) :
    (v.record outcome).phase ≠ .running e' c' := by
  rw [record_phase hv, h]
  intro hphase
  cases hphase

theorem checkAll_of_not_running (hv : ∀ e c, v.phase ≠ .running e c) (bs : List Bytes) (s : Store) :
    checkAll bs v s = (v, s) := by
  induction bs with
  | nil => rfl
  | cons b bs ih =>
    rw [checkAll, check_of_not_running hv]
    exact ih

theorem foldl_see_of_not_running (hv : ∀ e c, v.phase ≠ .running e c)
    (outcomes : List (Except Abort Snapshot)) : outcomes.foldl see v = v := by
  have hsee : ∀ outcome, v.see outcome = v := by
    intro outcome
    rw [see]
    split
    case h_1 e c h => exact absurd h (hv e c)
    case h_2 => rfl
  induction outcomes with
  | nil => rfl
  | cons outcome outcomes ih =>
    rw [List.foldl_cons, hsee]
    exact ih

/-- The verifier thaws what it is given one after the other, up to the first check that breaks off. -/
theorem checkAll_eq_foldl (hv : v.phase = .running e c) (bs : List Bytes) (hs : s.Like s') :
    (checkAll bs v s').1 = (Call.thawEach e c bs s).foldl see v := by
  -- the store of the verifier differs from that of the plain thawing in the logs, and stays so
  induction bs generalizing v s s' with
  | nil => rfl
  | cons b bs ih =>
    obtain ⟨hrecord, hlike⟩ := check_running hv b hs
    have hsee : v.see (runOn (Call.thawWith e c b) s).1 = v.record (runOn (Call.thawWith e c b) s).1 := by
      rw [see, hv]
    have hphase := record_phase hv (runOn (Call.thawWith e c b) s).1
    rw [checkAll, Call.thawEach, List.foldl_cons, hsee]
    change (checkAll bs (v.check b s').1 (v.check b s').2).1 = _
    rw [hrecord]
    cases hfinishes : finishes (runOn (Call.thawWith e c b) s).1 with
    | true =>
      rw [hfinishes, if_pos rfl] at hphase
      exact ih hphase hlike
    | false =>
      have hbroken := record_not_running hv hfinishes
      rw [checkAll_of_not_running hbroken, foldl_see_of_not_running hbroken]

/-- The checks up to the first that breaks off are counted, and one that does not end well is reported. -/
theorem stop_foldl_see (hv : v.phase = .running e c) (outcomes : List (Except Abort Snapshot))
    (s : Store) :
    ((outcomes.foldl see v).stop s).2.1.checks = v.checks + (outcomes.takeWhile finishes).length ∧
      (((outcomes.foldl see v).stop s).1 = true ↔
        v.unrestorable = true ∨ ∃ outcome ∈ outcomes, outcome.isOk = false) := by
  induction outcomes generalizing v with
  | nil =>
    rw [List.foldl_nil, stop, hv]
    simp
  | cons outcome outcomes ih =>
    have hsee : v.see outcome = v.record outcome := by
      rw [see, hv]
    rw [List.foldl_cons, hsee]
    rcases outcome with (fault | _) | snapshot
    · -- the flow cannot be restored
      obtain ⟨hchecks, hfound⟩ := ih (v := v.record (.error (.error fault))) hv
      have hone : (v.record (.error (.error fault))).checks = v.checks + 1 := rfl
      refine ⟨?_, ?_⟩
      · rw [hchecks, hone, List.takeWhile_cons_of_pos rfl, List.length_cons]
        omega
      · rw [hfound]
        simp [record, Except.isOk, Except.toBool]
    · -- the check breaks off, and no other one is made
      have hbroken : ∀ e c, (v.record (.error .panic)).phase ≠ .running e c := fun _ _ h => nomatch h
      rw [foldl_see_of_not_running hbroken]
      refine ⟨?_, ?_⟩
      · rw [List.takeWhile_cons_of_neg Bool.false_ne_true]
        rfl
      · simp [stop, record, Except.isOk, Except.toBool]
    · -- the flow can be restored
      obtain ⟨hchecks, hfound⟩ := ih (v := v.record (.ok snapshot)) hv
      have hone : (v.record (.ok snapshot)).checks = v.checks + 1 := rfl
      refine ⟨?_, ?_⟩
      · rw [hchecks, hone, List.takeWhile_cons_of_pos rfl, List.length_cons]
        omega
      · rw [hfound]
        simp [record, Except.isOk, Except.toBool]

theorem takeWhile_finishes {outcomes : List (Except Abort Snapshot)}
    (h : ∀ outcome ∈ outcomes, outcome ≠ .error .panic) : outcomes.takeWhile finishes = outcomes := by
  refine List.takeWhile_eq_self_iff.2 fun outcome hmem => ?_
  rcases outcome with (_ | _) | _
  · rfl
  · exact absurd rfl (h _ hmem)
  · rfl

/-- The verifier at its start, before what has waited is checked. -/
def started (v : Verifier) (e : Nat) (c : Context) : Verifier :=
  { v with phase := .running e c, waiting := [] }

theorem stop_checkAll (hs : s.Like s') (bs : List Bytes) (t : Store) :
    ((checkAll bs (new.started e c) s').1.stop t).2.1.checks =
        ((Call.thawEach e c bs s).takeWhile finishes).length ∧
      (((checkAll bs (new.started e c) s').1.stop t).1 = true ↔
        ∃ outcome ∈ Call.thawEach e c bs s, outcome.isOk = false) := by
  obtain ⟨hchecks, hfound⟩ := stop_foldl_see (v := new.started e c) rfl (Call.thawEach e c bs s) t
  rw [checkAll_eq_foldl rfl bs hs, hchecks, hfound]
  exact ⟨Nat.zero_add _, or_iff_right Bool.false_ne_true⟩

def submitAll : List Bytes → Verifier → Store → Verifier × Store
  | [], v, s => (v, s)
  | frozen :: rest, v, s => submitAll rest (v.submit frozen s).1 (v.submit frozen s).2

theorem submitAll_append (bs bs' : List Bytes) (v : Verifier) (s : Store) :
    submitAll (bs ++ bs') v s = submitAll bs' (submitAll bs v s).1 (submitAll bs v s).2 := by
  induction bs generalizing v s with
  | nil => rfl
  | cons b bs ih => exact ih _ _

theorem submit_idle (hv : v.phase = .idle) (frozen : Bytes) (s : Store) :
    v.submit frozen s = ({ v with waiting := v.waiting ++ [frozen] }, s) := by
  rw [submit, hv]

theorem submit_started (hv : v.phase ≠ .idle) (frozen : Bytes) (s : Store) :
    v.submit frozen s = v.check frozen s := by
  rw [submit]
  split
  case h_1 h => exact absurd h hv
  case h_2 => rfl

theorem check_started (hv : v.phase ≠ .idle) (frozen : Bytes) (s : Store) :
    (v.check frozen s).1.phase ≠ .idle := by
  by_cases hrunning : ∃ e c, v.phase = .running e c
  · obtain ⟨e, c, hrunning⟩ := hrunning
    obtain ⟨hrecord, -⟩ := check_running hrunning frozen (.refl s)
    rw [hrecord, record_phase hrunning]
    split_ifs <;> exact fun h => nomatch h
  · rw [check_of_not_running fun e c h => hrunning ⟨e, c, h⟩]
    exact hv

theorem submitAll_idle (hv : v.phase = .idle) (bs : List Bytes) (s : Store) :
    submitAll bs v s = ({ v with waiting := v.waiting ++ bs }, s) := by
  induction bs generalizing v with
  | nil => rw [List.append_nil, submitAll]
  | cons b bs ih =>
    rw [submitAll, submit_idle hv, ih (v := { v with waiting := v.waiting ++ [b] }) hv, List.append_assoc]
    rfl

theorem submitAll_started (hv : v.phase ≠ .idle) (bs : List Bytes) (s : Store) :
    submitAll bs v s = checkAll bs v s := by
  induction bs generalizing v s with
  | nil => rfl
  | cons b bs ih =>
    rw [submitAll, submit_started hv, ih (check_started hv b s)]
    rfl

theorem checkAll_started (hv : v.phase ≠ .idle) (bs : List Bytes) (s : Store) :
    (checkAll bs v s).1.phase ≠ .idle := by
  induction bs generalizing v s with
  | nil => exact hv
  | cons b bs ih => exact ih (check_started hv b s) _

theorem checkAll_append (bs bs' : List Bytes) (v : Verifier) (s : Store) :
    checkAll (bs ++ bs') v s = checkAll bs' (checkAll bs v s).1 (checkAll bs v s).2 := by
  induction bs generalizing v s with
  | nil => rfl
  | cons b bs ih => exact ih _ _

theorem submitAll_started_append (e : Nat) (c : Context) (v : Verifier) (bs : List Bytes) (s : Store) :
    submitAll bs (checkAll v.waiting (v.started e c) s).1 (checkAll v.waiting (v.started e c) s).2 =
      checkAll (v.waiting ++ bs) (v.started e c) s := by
  have hphase : (v.started e c).phase ≠ .idle := fun h => nomatch h
  rw [checkAll_append, submitAll_started (checkAll_started hphase _ _)]

theorem submit_like (v : Verifier) (frozen : Bytes) (hs : s.Like s') :
    (v.submit frozen s).1 = (v.submit frozen s').1 ∧
      (v.submit frozen s).2.Like (v.submit frozen s').2 := by
  by_cases hidle : v.phase = .idle
  · rw [submit_idle hidle, submit_idle hidle]
    exact ⟨rfl, hs⟩
  rw [submit_started hidle, submit_started hidle]
  by_cases hrunning : ∃ e c, v.phase = .running e c
  · obtain ⟨e, c, hrunning⟩ := hrunning
    obtain ⟨hrecord, hlike⟩ := check_running hrunning frozen (.refl s)
    obtain ⟨hrecord', hlike'⟩ := check_running hrunning frozen hs
    exact ⟨hrecord.trans hrecord'.symm, hlike.symm.trans hlike'⟩
  · have hnot : ∀ e c, v.phase ≠ .running e c := fun e c h => hrunning ⟨e, c, h⟩
    rw [check_of_not_running hnot, check_of_not_running hnot]
    exact ⟨rfl, hs⟩

end Verifier

namespace Deployment

variable {d d' : Deployment} {v : Nat} {w : Verifier} {s : Store}

/-- Nothing differs but the logs and the number of errors. -/
def Like (d d' : Deployment) : Prop := d'.verifiers = d.verifiers ∧ d.store.Like d'.store

theorem Like.refl (d : Deployment) : d.Like d := ⟨rfl, .refl _⟩

theorem Like.log (h : d.Like d') (event : LogEvent) : d.Like (d'.log event) :=
  ⟨h.1, h.2.trans ⟨_, _, _, rfl⟩⟩

/-- One verifier and the store, up to the logs and the number of errors. -/
structure Tracks (d : Deployment) (v : Nat) (w : Verifier) (s : Store) : Prop where
  bound : v < d.verifiers.length
  verifier : d.verifier v = w
  store : s.Like d.store

theorem Tracks.of_like (h : d.Tracks v w s) (hd : d.Like d') : d'.Tracks v w s where
  bound := by
    rw [hd.1]
    exact h.bound
  verifier := by
    rw [Deployment.verifier, hd.1]
    exact h.verifier
  store := h.store.trans hd.2

theorem verifier_set (hv : v < d.verifiers.length) (w : Verifier) (s : Store) :
    (⟨s, d.verifiers.set v w⟩ : Deployment).verifier v = w :=
  (Store.getD_set hv _ _ _).trans (if_pos rfl)

theorem Tracks.submit (h : d.Tracks v w s) (frozen : Bytes) :
    (d.submit v frozen).Tracks v (w.submit frozen s).1 (w.submit frozen s).2 := by
  obtain ⟨hbound, rfl, hstore⟩ := h
  obtain ⟨hsame, hlike⟩ := (d.verifier v).submit_like frozen hstore
  refine ⟨?_, ?_, hlike⟩
  · rw [Deployment.submit, List.length_set]
    exact hbound
  · rw [hsame]
    exact verifier_set hbound _ _

end Deployment

namespace Executor

variable {σ : Type} {x x' : Executor} {d d' : Deployment} {v : Nat} {w : Verifier} {s : Store}

/-- No layer hands fibers over. -/
def Quiet : Executor → Prop
  | terminal | bypass _ => True
  | tracing inner | history _ _ inner => Quiet inner
  | verifying _ _ => False

theorem executeTerminal_like (perform : Performer σ) (call : Execution) (h : σ) (d : Deployment) :
    (executeTerminal perform call h d).executor = .terminal ∧
      d.Like (executeTerminal perform call h d).deployment := by
  rw [executeTerminal]
  split
  · exact ⟨rfl, .refl d⟩
  · exact ⟨rfl, rfl, _, _, _, rfl⟩

theorem execute_quiet (hx : x.Quiet) (perform : Performer σ) (call : Execution) (h : σ)
    (d : Deployment) :
    (execute perform call x h d).executor.Quiet ∧ d.Like (execute perform call x h d).deployment := by
  induction x with
  | terminal =>
    obtain ⟨hexecutor, hlike⟩ := executeTerminal_like perform call h d
    rw [execute, hexecutor]
    exact ⟨trivial, hlike⟩
  | bypass removed => exact ⟨trivial, .refl d⟩
  | tracing inner ih =>
    obtain ⟨hquiet, hlike⟩ := ih hx
    exact ⟨hquiet, hlike.log _⟩
  | history limit histories inner ih =>
    obtain ⟨hquiet, hlike⟩ := ih hx
    refine ⟨hquiet, ?_⟩
    rw [execute]
    rcases recordIn limit histories call (execute perform call inner h d).continuation
      (execute perform call inner h d).state with ⟨histories', event⟩
    cases event with
    | none => exact hlike
    | some event => exact hlike.log event
  | verifying v inner ih => exact hx.elim

theorem build_quiet (o : MachineOptions) (ho : o.verifyCheckpoints = true) (v : Nat) :
    ∃ inner, build o (some v) = .verifying v inner ∧ inner.Quiet := by
  rw [build]
  simp only [ho, if_true]
  refine ⟨_, rfl, ?_⟩
  cases o.devMode <;> cases o.traceTransitions <;> exact trivial

/-- Transitions carried out one after the other, each by a host of its own. The list has the previous state
of each and the state that was returned. -/
inductive Runs : Executor → Deployment → List (MachineState × MachineState) → Executor → Deployment →
    Prop
  | nil (x : Executor) (d : Deployment) : Runs x d [] x d
  | cons {σ : Type} (perform : Performer σ) (h : σ) (call : Execution) {x x' : Executor}
      {d d' : Deployment} {calls : List (MachineState × MachineState)}
      (rest : Runs (execute perform call x h d).executor (execute perform call x h d).deployment calls
        x' d') :
      Runs x d ((call.previous, (execute perform call x h d).state) :: calls) x' d'

def newlyFrozen (calls : List (MachineState × MachineState)) : List Bytes :=
  calls.filterMap fun r => newlyFrozen? r.1 r.2

theorem execute_verifying (hx : x.Quiet) (hd : d.Tracks v w s) (perform : Performer σ)
    (call : Execution) (h : σ) :
    (∃ y, (execute perform call (.verifying v x) h d).executor = .verifying v y ∧ y.Quiet) ∧
      (execute perform call (.verifying v x) h d).deployment.Tracks v
        (Verifier.submitAll (newlyFrozen? call.previous
          (execute perform call (.verifying v x) h d).state).toList w s).1
        (Verifier.submitAll (newlyFrozen? call.previous
          (execute perform call (.verifying v x) h d).state).toList w s).2 := by
  obtain ⟨hquiet, hlike⟩ := execute_quiet hx perform call h d
  refine ⟨⟨_, rfl, hquiet⟩, ?_⟩
  have hinner := hd.of_like hlike
  rw [execute]
  change Deployment.Tracks ((newlyFrozen? call.previous (execute perform call x h d).state).elim _ _) v _ _
  cases newlyFrozen? call.previous (execute perform call x h d).state with
  | none => exact hinner
  | some frozen => exact hinner.submit frozen

theorem Runs.tracks {calls : List (MachineState × MachineState)}
    (hr : Runs (.verifying v x) d calls x' d') (hx : x.Quiet) (hd : d.Tracks v w s) :
    (∃ y, x' = .verifying v y ∧ y.Quiet) ∧
      d'.Tracks v (Verifier.submitAll (newlyFrozen calls) w s).1
        (Verifier.submitAll (newlyFrozen calls) w s).2 := by
  generalize hv : Executor.verifying v x = y at hr
  -- on the run: the layers inside hand nothing over, so the verifier gets what the outermost one gives it
  induction hr generalizing x w s with
  | nil => exact ⟨⟨x, hv.symm, hx⟩, hd⟩
  | @cons σ perform h call y x' d d' calls _ ih =>
    obtain rfl := hv
    obtain ⟨⟨z, hz, hquiet⟩, htracks⟩ := execute_verifying hx hd perform call h
    obtain ⟨hlast, hrest⟩ := ih hquiet htracks hz.symm
    refine ⟨hlast, ?_⟩
    have hsplit : newlyFrozen ((call.previous, (execute perform call (.verifying v x) h d).state) :: calls) =
        (newlyFrozen? call.previous (execute perform call (.verifying v x) h d).state).toList ++
          newlyFrozen calls := by
      rw [newlyFrozen, List.filterMap_cons]
      cases newlyFrozen? call.previous (execute perform call (.verifying v x) h d).state <;> rfl
    rw [hsplit, Verifier.submitAll_append]
    exact hrest

end Executor

end DurableFlow
