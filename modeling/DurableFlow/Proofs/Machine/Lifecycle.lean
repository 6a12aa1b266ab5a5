import DurableFlow.Proofs.Machine.Verification
import DurableFlow.Sample.Serializers

/-!
# The life of a verifier

A verifier is started once, before it is stopped. At its stop it has checked the fibers that it was given
before, whether before or after its start, up to the first on which the check breaks off. From then on
nothing changes.
-/

namespace DurableFlow

/-- What thawing a frozen flow has come to, and what this has written into the log. -/
structure Trial where
  frozen : Bytes
  outcome : Except Abort Snapshot
  log : List LogEvent

namespace Trial

/-- What a check with this outcome adds to the log of checks. -/
def events (t : Trial) : List LogEvent := t.log ++ Verifier.outcomeEvents t.frozen t.outcome

def finishes (t : Trial) : Bool := Verifier.finishes t.outcome

end Trial

namespace Call

variable {e : Nat} {c : Context} {s s' : Store}

def trial (e : Nat) (c : Context) (frozen : Bytes) (s : Store) : Trial :=
  let r := runOn (thawWith e c frozen) { s with log := [] }
  ⟨frozen, r.1, r.2.log⟩

/-- The store after a trial. Its log is the one of the trial. -/
def afterTrial (e : Nat) (c : Context) (frozen : Bytes) (s : Store) : Store :=
  { (runOn (thawWith e c frozen) { s with log := [] }).2 with
    checkLog := s.checkLog ++ (trial e c frozen s).events }

/-- The trials of frozen flows, one after the other, that go on whatever they come to. -/
def trials (e : Nat) (c : Context) : List Bytes → Store → List Trial
  | [], _ => []
  | frozen :: rest, s => trial e c frozen s :: trials e c rest (afterTrial e c frozen s)

theorem trials_log (bs : List Bytes) (log : List LogEvent) :
    trials e c bs { s with log := log } = trials e c bs s := by
  cases bs with
  | nil => rfl
  | cons b bs => rfl

theorem frozen_trials (bs : List Bytes) (s : Store) : (trials e c bs s).map Trial.frozen = bs := by
  induction bs generalizing s with
  | nil => rfl
  | cons b bs ih =>
    rw [trials, List.map_cons, ih]
    rfl

theorem outcome_trials (bs : List Bytes) (hs : s.Like s') :
    (trials e c bs s').map Trial.outcome = thawEach e c bs s := by
  induction bs generalizing s s' with
  | nil => rfl
  | cons b bs ih =>
    have hclear : s.Like { s' with log := [] } := hs.trans ⟨s'.errors, [], s'.checkLog, rfl⟩
    obtain ⟨hout, hlike⟩ := oblivious_thawWith e c b s _ hclear
    have hafter : (runOn (thawWith e c b) s).2.Like (afterTrial e c b s') := hlike.trans ⟨_, _, _, rfl⟩
    rw [trials, List.map_cons, thawEach, ih hafter, hout]
    rfl

end Call

namespace Verifier

variable {v : Verifier} {e : Nat} {c : Context} {s : Store}

theorem check_eq_trial (hv : v.phase = .running e c) (frozen : Bytes) (s : Store) :
    v.check frozen s = (v.record (Call.trial e c frozen s).outcome,
      { Call.afterTrial e c frozen s with log := s.log }) := by
  rw [check, hv, Call.afterTrial, Trial.events, ← List.append_assoc]
  rfl

/-- The log of checks has what the trials write, up to the first that breaks off. -/
theorem checkLog_checkAll (hv : v.phase = .running e c) (bs : List Bytes) (s : Store) :
    (checkAll bs v s).2.checkLog = s.checkLog ++
      ((Call.trials e c bs s).take (((Call.trials e c bs s).takeWhile Trial.finishes).length + 1)).flatMap
        Trial.events := by
  induction bs generalizing v s with
  | nil => exact (List.append_nil _).symm
  | cons b bs ih =>
    have hphase : (v.record (Call.trial e c b s).outcome).phase =
        if (Call.trial e c b s).finishes then .running e c else .broken := record_phase hv _
    rw [checkAll, check_eq_trial hv, Call.trials]
    change (checkAll bs (v.record (Call.trial e c b s).outcome)
      { Call.afterTrial e c b s with log := s.log }).2.checkLog = _
    cases hfinishes : (Call.trial e c b s).finishes with
    | true =>
      rw [hfinishes, if_pos rfl] at hphase
      rw [ih hphase, Call.trials_log, List.takeWhile_cons_of_pos hfinishes, List.length_cons,
        List.take_succ_cons, List.flatMap_cons, ← List.append_assoc]
      rfl
    | false =>
      have hno : ¬ (Call.trial e c b s).finishes = true := by
        rw [hfinishes]
        exact Bool.false_ne_true
      have hbroken := record_not_running hv hfinishes
      rw [checkAll_of_not_running hbroken, List.takeWhile_cons_of_neg hno]
      simp [Call.afterTrial]

end Verifier

inductive VerifierCall where
  | start (e : Nat) (c : Context)
  | submit (frozen : Bytes)
  | stop

namespace VerifierCall

def isSubmit : VerifierCall → Bool
  | submit _ => true
  | start _ _ | stop => false

def isStop : VerifierCall → Bool
  | stop => true
  | start _ _ | submit _ => false

def submitted? : VerifierCall → Option Bytes
  | submit frozen => some frozen
  | start _ _ | stop => none

end VerifierCall

/-- The fibers that are handed over, in order. -/
def submitted (calls : List VerifierCall) : List Bytes := calls.filterMap VerifierCall.submitted?

namespace Verifier

variable {v : Verifier} {e : Nat} {c : Context} {s : Store}

/-- What a call makes of a verifier and the store. A start that is refused makes nothing of them. -/
def call (p : Verifier × Store) : VerifierCall → Verifier × Store
  | .start e c => (p.1.start? e c p.2).getD p
  | .submit frozen => p.1.submit frozen p.2
  | .stop => (p.1.stop p.2).2

def callAll (p : Verifier × Store) (calls : List VerifierCall) : Verifier × Store := calls.foldl call p

theorem callAll_append (p : Verifier × Store) (calls calls' : List VerifierCall) :
    callAll p (calls ++ calls') = callAll (callAll p calls) calls' :=
  List.foldl_append

theorem start?_idle (hv : v.phase = .idle) (e : Nat) (c : Context) (s : Store) :
    v.start? e c s = some (checkAll v.waiting (v.started e c)
      { s with log := s.log ++ [⟨.info, "checkpoint verifier started", []⟩] }) := by
  rw [start?, hv]
  rfl

theorem start?_started (hv : v.phase ≠ .idle) (e : Nat) (c : Context) (s : Store) :
    v.start? e c s = none := by
  rw [start?]
  split
  case h_1 h => exact absurd h hv
  case h_2 => rfl

theorem stop_phase (v : Verifier) (s : Store) : (v.stop s).2.1.phase = .stopped := by
  rw [stop]
  split
  case h_2 h => exact h
  all_goals rfl

theorem stop_unrestorable (v : Verifier) (s : Store) : (v.stop s).2.1.unrestorable = (v.stop s).1 := by
  rw [stop]
  split <;> rfl

theorem checkLog_stop (v : Verifier) (s : Store) : (v.stop s).2.2.checkLog = s.checkLog := by
  rw [stop]
  split <;> rfl

theorem stop_stopped (hv : v.phase = .stopped) (s : Store) : v.stop s = (v.unrestorable, v, s) := by
  rw [stop, hv]

theorem call_started {p : Verifier × Store} (hp : p.1.phase ≠ .idle) (x : VerifierCall) :
    (call p x).1.phase ≠ .idle := by
  cases x with
  | start e c =>
    rw [call, start?_started hp]
    exact hp
  | submit frozen =>
    rw [call, submit_started hp]
    exact check_started hp frozen p.2
  | stop =>
    rw [call, stop_phase]
    exact fun h => nomatch h

theorem callAll_started {p : Verifier × Store} (hp : p.1.phase ≠ .idle) (calls : List VerifierCall) :
    (callAll p calls).1.phase ≠ .idle := by
  induction calls generalizing p with
  | nil => exact hp
  | cons x calls ih => exact ih (call_started hp x)

theorem callAll_submit (hv : v.phase = .idle) (frozen : Bytes) (calls : List VerifierCall) (s : Store) :
    callAll (v, s) (.submit frozen :: calls) =
      callAll ({ v with waiting := v.waiting ++ [frozen] }, s) calls := by
  rw [callAll, List.foldl_cons, call, submit_idle hv]
  rfl

theorem callAll_idle (hv : v.phase = .idle) {calls : List VerifierCall}
    (hcalls : ∀ x ∈ calls, x.isSubmit = true) (s : Store) :
    callAll (v, s) calls = ({ v with waiting := v.waiting ++ submitted calls }, s) := by
  induction calls generalizing v with
  | nil => rw [submitted, List.filterMap_nil, List.append_nil, callAll, List.foldl_nil]
  | cons x calls ih =>
    obtain ⟨hx, hrest⟩ := List.forall_mem_cons.1 hcalls
    cases x with
    | start e c => cases hx
    | stop => cases hx
    | submit frozen =>
      rw [callAll_submit hv, ih (v := { v with waiting := v.waiting ++ [frozen] }) hv hrest, List.append_assoc]
      rfl

/-- A verifier still waits exactly if there have been submissions only. -/
theorem callAll_idle_iff (hv : v.phase = .idle) (calls : List VerifierCall) (s : Store) :
    (callAll (v, s) calls).1.phase = .idle ↔ ∀ x ∈ calls, x.isSubmit = true := by
  induction calls generalizing v s with
  | nil => exact iff_of_true hv fun x hx => nomatch hx
  | cons x calls ih =>
    rw [List.forall_mem_cons]
    cases x with
    | submit frozen =>
      rw [callAll_submit hv, ih (v := { v with waiting := v.waiting ++ [frozen] }) hv]
      exact (and_iff_right rfl).symm
    | start e c =>
      have hstarted : (call (v, s) (.start e c)).1.phase ≠ .idle := by
        have hrunning : (v.started e c).phase ≠ .idle := fun h => nomatch h
        rw [call, start?_idle hv]
        exact checkAll_started hrunning _ _
      exact iff_of_false (callAll_started hstarted calls) fun h => Bool.false_ne_true h.1
    | stop =>
      have hstopped : (call (v, s) .stop).1.phase ≠ .idle := by
        rw [call, stop_phase]
        exact fun h => nomatch h
      exact iff_of_false (callAll_started hstopped calls) fun h => Bool.false_ne_true h.1

/-- Between the start and the stop, what is handed over is checked, and a further start does nothing. -/
theorem callAll_running (hv : v.phase ≠ .idle) {calls : List VerifierCall}
    (hcalls : ∀ x ∈ calls, x.isStop = false) (s : Store) :
    callAll (v, s) calls = checkAll (submitted calls) v s := by
  induction calls generalizing v s with
  | nil => rfl
  | cons x calls ih =>
    obtain ⟨hx, hrest⟩ := List.forall_mem_cons.1 hcalls
    cases x with
    | stop => cases hx
    | start e c =>
      have hsame : call (v, s) (.start e c) = (v, s) := by
        rw [call, start?_started hv]
        rfl
      rw [callAll, List.foldl_cons, hsame]
      exact ih hv hrest s
    | submit frozen =>
      have hcheck : call (v, s) (.submit frozen) = v.check frozen s := by
        rw [call, submit_started hv]
      rw [callAll, List.foldl_cons, hcheck]
      exact ih (check_started hv frozen s) hrest _

theorem callAll_stopped (hv : v.phase = .stopped) (calls : List VerifierCall) (s : Store) :
    callAll (v, s) calls = (v, s) := by
  have hidle : v.phase ≠ .idle := by
    rw [hv]
    exact fun h => nomatch h
  have hrunning : ∀ e c, v.phase ≠ .running e c := by
    intro e c
    rw [hv]
    exact fun h => nomatch h
  induction calls with
  | nil => rfl
  | cons x calls ih =>
    have hsame : call (v, s) x = (v, s) := by
      cases x with
      | start e c =>
        rw [call, start?_started hidle]
        rfl
      | submit frozen => rw [call, submit_started hidle, check_of_not_running hrunning]
      | stop => rw [call, stop_stopped hv]
    rw [callAll, List.foldl_cons, hsame]
    exact ih

/-- Up to its first stop, a verifier that has been started checks what it is given before and after. -/
theorem callAll_start (e : Nat) (c : Context) {before between : List VerifierCall}
    (hbefore : ∀ x ∈ before, x.isSubmit = true) (hbetween : ∀ x ∈ between, x.isStop = false) (s : Store) :
    ∃ log, callAll (new, s) (before ++ .start e c :: between) =
      checkAll (submitted (before ++ between)) (new.started e c) { s with log := log } := by
  refine ⟨s.log ++ [⟨.info, "checkpoint verifier started", []⟩], ?_⟩
  obtain ⟨started, hstarted⟩ : ∃ started : Store, started = { s with
    log := s.log ++ [⟨.info, "checkpoint verifier started", []⟩] } := ⟨_, rfl⟩
  have hstart : call ({ new with waiting := submitted before }, s) (.start e c) =
      checkAll (submitted before) (new.started e c) started := by
    rw [call, start?_idle rfl, hstarted]
    rfl
  have hrunning : (new.started e c).phase ≠ .idle := fun h => nomatch h
  have hphase := checkAll_started hrunning (submitted before) started
  rw [callAll_append, callAll_idle rfl hbefore]
  change callAll (call ({ new with waiting := submitted before }, s) (.start e c)) between = _
  rw [hstart, callAll_running hphase hbetween, ← checkAll_append, ← hstarted, submitted, submitted,
    submitted, List.filterMap_append]

theorem callAll_stop (p : Verifier × Store) (calls later : List VerifierCall) :
    callAll p (calls ++ .stop :: later) = ((callAll p calls).1.stop (callAll p calls).2).2 := by
  rw [callAll_append]
  exact callAll_stopped (stop_phase _ _) later _

theorem stop_of_checkAll (bs : List Bytes) (s t : Store) (log : List LogEvent) :
    let p := checkAll bs (new.started e c) { s with log := log }
    let trials := Call.trials e c bs s
    let n := (trials.takeWhile Trial.finishes).length
    trials.map Trial.frozen = bs ∧ trials.map Trial.outcome = Call.thawEach e c bs s ∧
      ((p.1.stop t).1 = true ↔ ∃ trial ∈ trials, trial.outcome.isOk = false) ∧
      (p.1.stop t).2.1.checks = n ∧
      p.2.checkLog = s.checkLog ++ (trials.take (n + 1)).flatMap Trial.events ∧
      ((∀ trial ∈ trials, trial.outcome ≠ .error .panic) → n = bs.length) := by
  intro p trials n
  have hthaw : trials.map Trial.outcome = Call.thawEach e c bs s := Call.outcome_trials bs (.refl s)
  have htake : n = ((Call.thawEach e c bs s).takeWhile finishes).length := by
    rw [← hthaw, List.takeWhile_map, List.length_map]
    rfl
  have hlike : s.Like { s with log := log } := ⟨s.errors, log, s.checkLog, rfl⟩
  obtain ⟨hchecks, hfound⟩ := stop_checkAll (e := e) (c := c) hlike bs t
  refine ⟨Call.frozen_trials bs s, hthaw, ?_, ?_, ?_, fun hpanic => ?_⟩
  · rw [hfound, ← hthaw]
    simp only [List.mem_map, exists_exists_and_eq_and]
  · rw [htake]
    exact hchecks
  · have hlog := checkLog_checkAll (v := new.started e c) rfl bs { s with log := log }
    rw [Call.trials_log] at hlog
    exact hlog
  · have hends : ∀ outcome ∈ Call.thawEach e c bs s, outcome ≠ .error .panic := by
      rw [← hthaw]
      exact List.forall_mem_map.2 hpanic
    rw [htake, takeWhile_finishes hends, Call.length_thawEach]

end Verifier

namespace Deployment

variable {d : Deployment} {v : Nat}

def verifierCall (v : Nat) (d : Deployment) : VerifierCall → Deployment
  | .start e c => (d.startVerifier v e c).toOption.getD d
  | .submit frozen => d.submit v frozen
  | .stop => (d.stopVerifier v).2

def verifierCalls (d : Deployment) (v : Nat) (calls : List VerifierCall) : Deployment :=
  calls.foldl (verifierCall v) d

theorem verifierCall_eq (d : Deployment) (v : Nat) (x : VerifierCall) :
    d.verifierCall v x = ⟨(Verifier.call (d.verifier v, d.store) x).2,
      d.verifiers.set v (Verifier.call (d.verifier v, d.store) x).1⟩ := by
  cases x with
  | start e c =>
    rw [verifierCall, startVerifier, Verifier.call]
    rcases (d.verifier v).start? e c d.store with _ | ⟨w, s⟩
    · exact congrArg (Deployment.mk d.store) (Store.set_getD d.verifiers v .new).symm
    · rfl
  | submit frozen => rfl
  | stop => rfl

/-- Calls of one verifier change nothing but this and the store. -/
theorem verifierCalls_eq (hv : v < d.verifiers.length) (calls : List VerifierCall) :
    d.verifierCalls v calls = ⟨(Verifier.callAll (d.verifier v, d.store) calls).2,
      d.verifiers.set v (Verifier.callAll (d.verifier v, d.store) calls).1⟩ := by
  induction calls generalizing d with
  | nil => exact congrArg (Deployment.mk d.store) (Store.set_getD d.verifiers v .new).symm
  | cons x calls ih =>
    have hstep := d.verifierCall_eq v x
    have hlength : v < (d.verifierCall v x).verifiers.length := by
      rw [hstep, List.length_set]
      exact hv
    have hverifier : (d.verifierCall v x).verifier v = (Verifier.call (d.verifier v, d.store) x).1 := by
      rw [hstep]
      exact verifier_set hv _ _
    have hstore : (d.verifierCall v x).store = (Verifier.call (d.verifier v, d.store) x).2 := by
      rw [hstep]
    have hrest := ih hlength
    rw [hverifier, hstore] at hrest
    rw [verifierCalls, List.foldl_cons]
    change (d.verifierCall v x).verifierCalls v calls = _
    rw [hrest, hstep, List.set_set]
    rfl

theorem verifier_verifierCalls (hv : v < d.verifiers.length) (calls : List VerifierCall) :
    (d.verifierCalls v calls).verifier v = (Verifier.callAll (d.verifier v, d.store) calls).1 := by
  rw [verifierCalls_eq hv]
  exact verifier_set hv _ _

theorem store_verifierCalls (hv : v < d.verifiers.length) (calls : List VerifierCall) :
    (d.verifierCalls v calls).store = (Verifier.callAll (d.verifier v, d.store) calls).2 := by
  rw [verifierCalls_eq hv]

theorem isOk_startVerifier_iff (v e : Nat) (c : Context) :
    (d.startVerifier v e c).isOk = true ↔ (d.verifier v).phase = .idle := by
  by_cases hidle : (d.verifier v).phase = .idle
  · rw [startVerifier, Verifier.start?_idle hidle]
    exact iff_of_true rfl hidle
  · rw [startVerifier, Verifier.start?_started hidle]
    exact iff_of_false Bool.false_ne_true hidle

theorem startVerifier_of_not_ok {e : Nat} {c : Context} (h : (d.startVerifier v e c).isOk = false) :
    d.startVerifier v e c = .error .doubleStart ∧ d.verifierCalls v [.start e c] = d := by
  have hrefused : d.startVerifier v e c = .error .doubleStart := by
    rw [startVerifier] at h ⊢
    cases hstart : (d.verifier v).start? e c d.store with
    | none => rfl
    | some p =>
      rw [hstart] at h
      cases h
  refine ⟨hrefused, ?_⟩
  rw [verifierCalls, List.foldl_cons, verifierCall, hrefused]
  rfl

theorem stopVerifier_verifierCalls (hv : v < d.verifiers.length) (calls : List VerifierCall) :
    ((d.verifierCalls v calls).stopVerifier v).1 =
      ((Verifier.callAll (d.verifier v, d.store) calls).1.stop
        (Verifier.callAll (d.verifier v, d.store) calls).2).1 := by
  rw [← verifier_verifierCalls hv, ← store_verifierCalls hv]
  rfl

theorem verifierCalls_stop (hv : v < d.verifiers.length) (calls later : List VerifierCall) :
    d.verifierCalls v (calls ++ .stop :: later) = d.verifierCalls v (calls ++ [.stop]) ∧
      ((d.verifierCalls v (calls ++ .stop :: later)).stopVerifier v).1 =
        ((d.verifierCalls v calls).stopVerifier v).1 := by
  constructor
  · rw [verifierCalls_eq hv, verifierCalls_eq hv, Verifier.callAll_stop, Verifier.callAll_stop]
  · rw [stopVerifier_verifierCalls hv, stopVerifier_verifierCalls hv, Verifier.callAll_stop,
      Verifier.stop_stopped (Verifier.stop_phase _ _), Verifier.stop_unrestorable]

theorem stop_of_start (hv : v < d.verifiers.length) (hnew : d.verifier v = .new) (e : Nat) (c : Context)
    {before between : List VerifierCall} (hbefore : ∀ x ∈ before, x.isSubmit = true)
    (hbetween : ∀ x ∈ between, x.isStop = false) :
    let calls := before ++ .start e c :: between
    let fibers := submitted (before ++ between)
    let trials := Call.trials e c fibers d.store
    let n := (trials.takeWhile Trial.finishes).length
    trials.map Trial.frozen = fibers ∧ trials.map Trial.outcome = Call.thawEach e c fibers d.store ∧
      (((d.verifierCalls v calls).stopVerifier v).1 = true ↔
        ∃ trial ∈ trials, trial.outcome.isOk = false) ∧
      ((d.verifierCalls v (calls ++ [.stop])).verifier v).checks = n ∧
      (d.verifierCalls v (calls ++ [.stop])).store.checkLog =
        d.store.checkLog ++ (trials.take (n + 1)).flatMap Trial.events ∧
      ((∀ trial ∈ trials, trial.outcome ≠ .error .panic) → n = fibers.length) := by
  intro calls fibers trials n
  obtain ⟨log, hcalls⟩ := Verifier.callAll_start e c hbefore hbetween d.store
  obtain ⟨hfrozen, hthaw, hfound, hchecks, hlog, hall⟩ := Verifier.stop_of_checkAll (e := e) (c := c)
    fibers d.store (Verifier.callAll (.new, d.store) calls).2 log
  rw [stopVerifier_verifierCalls hv, verifier_verifierCalls hv, store_verifierCalls hv, hnew,
    Verifier.callAll_stop, Verifier.checkLog_stop]
  rw [← hcalls] at hfound hchecks hlog
  exact ⟨hfrozen, hthaw, hfound, hchecks, hlog, hall⟩

theorem newVerifier_lt (d : Deployment) : d.newVerifier.1 < d.newVerifier.2.verifiers.length := by
  change d.verifiers.length < (d.verifiers ++ [Verifier.new]).length
  rw [List.length_append]
  exact Nat.lt_succ_self _

theorem verifier_newVerifier (d : Deployment) : d.newVerifier.2.verifier d.newVerifier.1 = .new :=
  Store.getD_concat_length _ _ _

/-- The calls of a new verifier. A start is accepted if there have been submissions only, and else changes
nothing. The first stop after it reports a fiber that does not thaw if there is one among those that were
handed over before. By then they have been checked in order, up to the first on which the check breaks off:
those before it are counted, and the log has what each check writes once. After a stop nothing changes, and
a further stop reports the same. -/
theorem verifier_lifecycle (d : Deployment) :
    let v := d.newVerifier.1
    let after := d.newVerifier.2.verifierCalls v
    (∀ calls e c,
      (((after calls).startVerifier v e c).isOk = true ↔ ∀ x ∈ calls, x.isSubmit = true) ∧
      (((after calls).startVerifier v e c).isOk = false →
        (after calls).startVerifier v e c = .error .doubleStart ∧
          after (calls ++ [.start e c]) = after calls)) ∧
    (∀ before e c between, (∀ x ∈ before, x.isSubmit = true) → (∀ x ∈ between, x.isStop = false) →
      let calls := before ++ .start e c :: between
      let fibers := submitted (before ++ between)
      let trials := Call.trials e c fibers d.store
      let n := (trials.takeWhile Trial.finishes).length
      trials.map Trial.frozen = fibers ∧ trials.map Trial.outcome = Call.thawEach e c fibers d.store ∧
      (((after calls).stopVerifier v).1 = true ↔ ∃ trial ∈ trials, trial.outcome.isOk = false) ∧
      ((after (calls ++ [.stop])).verifier v).checks = n ∧
      (after (calls ++ [.stop])).store.checkLog =
        d.store.checkLog ++ (trials.take (n + 1)).flatMap Trial.events ∧
      ((∀ trial ∈ trials, trial.outcome ≠ .error .panic) → n = fibers.length)) ∧
    ∀ calls later,
      after (calls ++ .stop :: later) = after (calls ++ [.stop]) ∧
      ((after (calls ++ .stop :: later)).stopVerifier v).1 = ((after calls).stopVerifier v).1 := by
  intro v after
  have hv := d.newVerifier_lt
  have hnew := d.verifier_newVerifier
  refine ⟨fun calls e c => ⟨?_, fun hrefused => ?_⟩,
    fun before e c between hbefore hbetween => stop_of_start hv hnew e c hbefore hbetween,
    verifierCalls_stop hv⟩
  · rw [isOk_startVerifier_iff, verifier_verifierCalls hv, hnew]
    exact Verifier.callAll_idle_iff rfl calls _
  · obtain ⟨hdouble, hsame⟩ := startVerifier_of_not_ok hrefused
    have hsplit : after (calls ++ [.start e c]) = (after calls).verifierCalls v [.start e c] :=
      List.foldl_append
    exact ⟨hdouble, hsplit.trans hsame⟩

section Samples

variable (key : Serializer)

def checkpoints : Context := ⟨SchemeKind.checkpoint.magic, 1, 1, .checkpoint, []⟩

/-- An environment for checkpoints with a serializer for keys. -/
def keyed : Deployment where
  store := { Store.empty [] with
    policies := [.new 1 true]
    scopes := [Snapshot.objectTypes.foldl Scope.load (.new 1 "sample")]
    plugins := [.new]
    schemes := [⟨.checkpoint, 0, key, .empty⟩]
    environments := [⟨[0], Bindings.empty.set .checkpoint checkpoints, .empty⟩] }
  verifiers := []

theorem size_unsigned : (List.replicate 16 (7 : UInt8)).length = 16 := rfl

def unsigned : Snapshot := .new ⟨List.replicate 16 7, size_unsigned⟩ "app.Pay" ⟨"sign", 1⟩

def signed : Snapshot :=
  unsigned.withLocal "payee" (.builtin .publicKey) (.atom (.publicKey ⟨.ed25519, [1, 2]⟩))

def frozen (s : Snapshot) : Bytes := (runOn (Call.freeze 0 s) (keyed key).store).1.toOption.getD []

end Samples

/-- Before its start the verifier is given a fiber that cannot be restored, after it another one, and it is
started once more. -/
def restartedCalls : List VerifierCall :=
  [.submit [1, 2, 3]] ++ .start 0 checkpoints ::
    [.start 0 checkpoints, .submit (frozen (Builtin.serializer .publicKey) signed)]

theorem verifier_lifecycle_restarted :
    let d := keyed (Builtin.serializer .publicKey)
    let after := d.newVerifier.2.verifierCalls d.newVerifier.1
    ((after [.submit [1, 2, 3]]).startVerifier d.newVerifier.1 0 checkpoints).isOk = true ∧
      (after restartedCalls).startVerifier d.newVerifier.1 0 checkpoints = .error .doubleStart ∧
      ((after restartedCalls).stopVerifier d.newVerifier.1).1 = true ∧
      ((after (restartedCalls ++ [.stop])).verifier d.newVerifier.1).checks = 2 ∧
      ((after (restartedCalls ++ [.stop, .submit [], .stop])).stopVerifier d.newVerifier.1).1 = true := by
  intro d after
  obtain ⟨hstart, hstop, hlast⟩ := verifier_lifecycle d
  have hrefused : ¬ ∀ x ∈ restartedCalls, x.isSubmit = true := fun h =>
    Bool.false_ne_true (h (.start 0 checkpoints) (.tail _ (.head _)))
  have hdouble : ((after restartedCalls).startVerifier d.newVerifier.1 0 checkpoints).isOk = false :=
    Bool.eq_false_iff.2 fun h => hrefused ((hstart restartedCalls 0 checkpoints).1.1 h)
  obtain ⟨-, -, hfound, hchecks, -, -⟩ := hstop [.submit [1, 2, 3]] 0 checkpoints
    [.start 0 checkpoints, .submit (frozen (Builtin.serializer .publicKey) signed)]
    (List.forall_mem_singleton.2 rfl) (List.forall_mem_cons.2 ⟨rfl, List.forall_mem_singleton.2 rfl⟩)
  obtain ⟨trials, htrials⟩ : ∃ trials, Call.trials 0 checkpoints (submitted ([.submit [1, 2, 3]] ++
      [.start 0 checkpoints, .submit (frozen (Builtin.serializer .publicKey) signed)])) d.store =
        trials := ⟨_, rfl⟩
  have hrun : trials.any (fun trial => trial.outcome.isOk = false) = true ∧
      (trials.takeWhile Trial.finishes).length = 2 := by
    rw [← htrials]
    decide +kernel
  rw [htrials] at hfound hchecks
  obtain ⟨trial, hmem, htrial⟩ := List.any_eq_true.1 hrun.1
  have hreport := hfound.2 ⟨trial, hmem, of_decide_eq_true htrial⟩
  refine ⟨(hstart _ _ _).1.2 (List.forall_mem_singleton.2 rfl),
    ((hstart restartedCalls 0 checkpoints).2 hdouble).1, hreport, hchecks.trans hrun.2, ?_⟩
  exact (hlast restartedCalls [.submit [], .stop]).2.trans hreport

/-- Of two fibers the check of the first breaks off, and the second is never checked. -/
theorem unchecked_of_panic :
    let d := keyed Sample.panickey
    let after := d.newVerifier.2.verifierCalls d.newVerifier.1
    let calls : List VerifierCall := [.start 0 checkpoints, .submit (frozen Sample.panickey signed),
      .submit (frozen Sample.panickey unsigned)]
    (d.newVerifier.2.startVerifier d.newVerifier.1 0 checkpoints).isOk = true ∧
      (Call.trial 0 checkpoints (frozen Sample.panickey signed) d.store).finishes = false ∧
      (Call.trial 0 checkpoints (frozen Sample.panickey unsigned) d.store).outcome.isOk = true ∧
      ((after (calls ++ [.stop])).verifier d.newVerifier.1).checks = 0 ∧
      (after (calls ++ [.stop])).store.checkLog = [] := by
  intro d after calls
  have hrun : (Call.trial 0 checkpoints (frozen Sample.panickey signed) d.store).finishes = false ∧
      (Call.trial 0 checkpoints (frozen Sample.panickey unsigned) d.store).outcome.isOk = true ∧
      ((after (calls ++ [.stop])).verifier d.newVerifier.1).checks = 0 ∧
      (after (calls ++ [.stop])).store.checkLog.isEmpty = true := by decide +kernel
  obtain ⟨hpanic, hplain, hchecks, hlog⟩ := hrun
  exact ⟨rfl, hpanic, hplain, hchecks, List.isEmpty_iff.1 hlog⟩

end Deployment

end DurableFlow
