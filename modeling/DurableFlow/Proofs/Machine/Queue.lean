import DurableFlow.Machine.Queue
import DurableFlow.Proofs.Machine.Lifecycle

/-!
# Whenever the worker works, it comes to the same

The worker of a verifier may take its jobs at any time between the calls. Once a stop has been answered, it has come
to what a verifier comes to that makes each check at once, and it has left the same store. The invariant is that this
is what it will come to if it goes on with what is queued.
-/

namespace DurableFlow

namespace QueuedVerifier

variable {q q' : QueuedVerifier} {s s' : Store} {p p' : QueuedVerifier × Store} {r : Verifier × Store}
  {calls : List VerifierCall}

/-- What a call does at once. -/
def call (p : QueuedVerifier × Store) : VerifierCall → QueuedVerifier × Store
  | .start e c => (p.1.start? e c p.2).getD p
  | .submit frozen => (p.1.submit frozen, p.2)
  | .stop => (p.1.askToStop, p.2)

/-- What calls in this order can come to. In between the worker takes jobs, and stops are answered. -/
inductive Runs : QueuedVerifier × Store → List VerifierCall → QueuedVerifier × Store → Prop
  | done (p : QueuedVerifier × Store) : Runs p [] p
  | call {p p' : QueuedVerifier × Store} (x : VerifierCall) {calls : List VerifierCall} :
    Runs (call p x) calls p' → Runs p (x :: calls) p'
  | work {q : QueuedVerifier} {s : Store} {p p' : QueuedVerifier × Store} {calls : List VerifierCall} :
    q.work? s = some p → Runs p calls p' → Runs (q, s) calls p'
  | join {q : QueuedVerifier} {s : Store} {p p' : QueuedVerifier × Store} {calls : List VerifierCall} :
    q.join? s = some p → Runs p calls p' → Runs (q, s) calls p'

theorem work_cases (h : q.work? s = some p) :
    ∃ e c, q.worker.phase = .running e c ∧ q.finished = false ∧
      ((∃ frozen jobs, q.jobs = .check frozen :: jobs ∧
        p = ({ q with jobs := jobs, worker := (q.worker.check frozen s).1 }, (q.worker.check frozen s).2)) ∨
      ∃ jobs, q.jobs = .finish :: jobs ∧ p = ({ q with jobs := jobs, finished := true }, s)) := by
  rw [work?] at h
  split at h
  case h_1 e c frozen jobs hphase hfinished hjobs =>
    cases h
    exact ⟨e, c, hphase, hfinished, .inl ⟨frozen, jobs, hjobs, rfl⟩⟩
  case h_2 e c jobs hphase hfinished hjobs =>
    cases h
    exact ⟨e, c, hphase, hfinished, .inr ⟨jobs, hjobs, rfl⟩⟩
  case h_3 => cases h

theorem join_cases (h : q.join? s = some p) :
    q.phase = .joining ∧ (q.worker.phase = .broken ∨ q.finished = true) ∧
      p = ({ q with phase := .stopped, worker := (q.worker.stop s).2.1 }, (q.worker.stop s).2.2) := by
  rw [join?] at h
  split at h
  case h_1 hphase hbroken =>
    cases h
    exact ⟨hphase, .inl hbroken, rfl⟩
  case h_2 hphase hfinished _ =>
    cases h
    exact ⟨hphase, .inr hfinished, rfl⟩
  case h_3 => cases h

/-- What a queued verifier comes to if nothing else is asked of it and its worker goes on with what is queued. -/
inductive Settles : QueuedVerifier × Store → Verifier × Store → Prop
  | idle {v : Verifier} (s : Store) : v.phase = .idle →
    Settles (⟨.idle, v.waiting.map .check, { v with waiting := [] }, false⟩, s) (v, s)
  | running {w : Verifier} (bs : List Bytes) (s : Store) : w.isRunning = true →
    Settles (⟨.running, bs.map .check, w, false⟩, s) (Verifier.checkAll bs w s)
  | joining {w : Verifier} (bs : List Bytes) (later : List VerifierJob) (s : Store) : w.isRunning = true →
    Settles (⟨.joining, bs.map .check ++ .finish :: later, w, false⟩, s)
      ((Verifier.checkAll bs w s).1.stop (Verifier.checkAll bs w s).2).2
  | finished {w : Verifier} (jobs : List VerifierJob) (s : Store) :
    Settles (⟨.joining, jobs, w, true⟩, s) (w.stop s).2
  | stopped {w v : Verifier} (jobs : List VerifierJob) (finished : Bool) (s : Store) :
    (∀ e c, w.phase ≠ .running e c) → v.phase = .stopped → w.checks = v.checks →
    w.unrestorable = v.unrestorable → Settles (⟨.stopped, jobs, w, finished⟩, s) (v, s)

theorem isRunning_started {w : Verifier} (hw : w.isRunning = true) : w.phase ≠ .idle := by
  intro hidle
  rw [Verifier.isRunning, hidle] at hw
  cases hw

theorem isRunning_cases {w : Verifier} (hw : w.isRunning = true) :
    (∃ e c, w.phase = .running e c) ∨ w.phase = .broken := by
  rw [Verifier.isRunning] at hw
  split at hw
  case h_1 e c hphase => exact .inl ⟨e, c, hphase⟩
  case h_2 hphase => exact .inr hphase
  all_goals cases hw

theorem not_running_of_broken {w : Verifier} (hw : w.phase = .broken) (e : Nat) (c : Context) :
    w.phase ≠ .running e c := by
  intro hrunning
  cases hw.symm.trans hrunning

theorem isRunning_check {w : Verifier} (hw : w.isRunning = true) (frozen : Bytes) (s : Store) :
    (w.check frozen s).1.isRunning = true := by
  obtain ⟨e, c, hphase⟩ | hbroken := isRunning_cases hw
  · obtain ⟨hrecord, -⟩ := Verifier.check_running hphase frozen (.refl s)
    rw [hrecord, Verifier.isRunning, Verifier.record_phase hphase]
    split_ifs <;> rfl
  · rw [Verifier.check_of_not_running (not_running_of_broken hbroken)]
    exact hw

theorem Settles.new (s : Store) : Settles (.new, s) (.new, s) := .idle (v := .new) s rfl

theorem call_stopped {r : Verifier × Store} (hr : r.1.phase = .stopped) (x : VerifierCall) :
    Verifier.call r x = r :=
  Verifier.callAll_stopped hr [x] r.2

theorem map_check_concat (bs : List Bytes) (frozen : Bytes) :
    bs.map VerifierJob.check ++ [.check frozen] = (bs ++ [frozen]).map .check := by
  rw [List.map_append, List.map_singleton]

theorem Settles.start (h : Settles p r) (e : Nat) (c : Context) :
    Settles (call p (.start e c)) (Verifier.call r (.start e c)) := by
  cases h with
  | @idle v s hphase =>
    have hstart : Verifier.call (v, s) (.start e c) = Verifier.checkAll v.waiting (v.started e c)
        { s with log := s.log ++ [⟨.info, "checkpoint verifier started", []⟩] } := by
      rw [Verifier.call, Verifier.start?_idle hphase]
      rfl
    rw [hstart]
    exact .running v.waiting _ rfl
  | running bs s hrunning =>
    rw [Verifier.call, Verifier.start?_started (Verifier.checkAll_started (isRunning_started hrunning) bs s)]
    exact .running bs s hrunning
  | joining bs later s hrunning =>
    rw [call_stopped (Verifier.stop_phase _ _)]
    exact .joining bs later s hrunning
  | finished jobs s =>
    rw [call_stopped (Verifier.stop_phase _ _)]
    exact .finished jobs s
  | stopped jobs finished s hworker hphase hchecks hfound =>
    rw [call_stopped hphase]
    exact .stopped jobs finished s hworker hphase hchecks hfound

theorem Settles.submit (h : Settles p r) (frozen : Bytes) :
    Settles (call p (.submit frozen)) (Verifier.call r (.submit frozen)) := by
  cases h with
  | @idle v s hphase =>
    rw [call, QueuedVerifier.submit, map_check_concat, Verifier.call, Verifier.submit_idle hphase]
    exact .idle (v := { v with waiting := v.waiting ++ [frozen] }) s hphase
  | @running w bs s hrunning =>
    have hstarted := Verifier.checkAll_started (isRunning_started hrunning) bs s
    have hcheck : Verifier.call (Verifier.checkAll bs w s) (.submit frozen) =
        Verifier.checkAll (bs ++ [frozen]) w s := by
      rw [Verifier.call, Verifier.submit_started hstarted, Verifier.checkAll_append]
      rfl
    rw [call, QueuedVerifier.submit, map_check_concat, hcheck]
    exact .running (bs ++ [frozen]) s hrunning
  | joining bs later s hrunning =>
    rw [call_stopped (Verifier.stop_phase _ _), call, QueuedVerifier.submit, List.append_assoc]
    exact .joining bs (later ++ [.check frozen]) s hrunning
  | finished jobs s =>
    rw [call_stopped (Verifier.stop_phase _ _)]
    exact .finished (jobs ++ [.check frozen]) s
  | stopped jobs finished s hworker hphase hchecks hfound =>
    rw [call_stopped hphase]
    exact .stopped (jobs ++ [.check frozen]) finished s hworker hphase hchecks hfound

theorem Settles.stop (h : Settles p r) : Settles (call p .stop) (Verifier.call r .stop) := by
  cases h with
  | @idle v s hphase =>
    have hstop : Verifier.call (v, s) .stop = ({ v with phase := .stopped }, s) := by
      rw [Verifier.call, Verifier.stop, hphase]
    have hidle : ∀ e c, v.phase ≠ .running e c := by
      intro e c hrunning
      cases hphase.symm.trans hrunning
    rw [hstop]
    exact .stopped _ _ s hidle rfl rfl rfl
  | running bs s hrunning => exact .joining bs [] s hrunning
  | joining bs later s hrunning =>
    rw [call_stopped (Verifier.stop_phase _ _)]
    exact .joining bs later s hrunning
  | finished jobs s =>
    rw [call_stopped (Verifier.stop_phase _ _)]
    exact .finished jobs s
  | stopped jobs finished s hworker hphase hchecks hfound =>
    rw [call_stopped hphase]
    exact .stopped jobs finished s hworker hphase hchecks hfound

/-- A call comes to the same whether the jobs before it are done by then or not. -/
theorem Settles.call (h : Settles p r) (x : VerifierCall) : Settles (call p x) (Verifier.call r x) := by
  cases x with
  | start e c => exact h.start e c
  | submit frozen => exact h.submit frozen
  | stop => exact h.stop

theorem Settles.work (h : Settles (q, s) r) (hwork : q.work? s = some p) : Settles p r := by
  obtain ⟨e, c, hphase, hfinished, hjob⟩ := work_cases hwork
  cases h with
  | idle s hidle => cases hidle.symm.trans hphase
  | running bs s hrunning =>
    cases bs with
    | nil => obtain ⟨_, _, h, -⟩ | ⟨_, h, -⟩ := hjob <;> cases h
    | cons b bs =>
      obtain ⟨_, _, h, rfl⟩ | ⟨_, h, -⟩ := hjob <;> cases h
      exact .running bs _ (isRunning_check hrunning b s)
  | joining bs later s hrunning =>
    cases bs with
    | nil =>
      obtain ⟨_, _, h, -⟩ | ⟨_, h, rfl⟩ := hjob <;> cases h
      exact .finished later s
    | cons b bs =>
      obtain ⟨_, _, h, rfl⟩ | ⟨_, h, -⟩ := hjob <;> cases h
      exact .joining bs later _ (isRunning_check hrunning b s)
  | finished jobs s => cases hfinished
  | stopped jobs finished s hworker => exact absurd hphase (hworker e c)

theorem Settles.join (h : Settles (q, s) r) (hjoin : q.join? s = some p) : Settles p r := by
  obtain ⟨hjoining, hready, rfl⟩ := join_cases hjoin
  have hstopped : ∀ w : Verifier, ∀ jobs finished,
      Settles (⟨.stopped, jobs, (w.stop s).2.1, finished⟩, (w.stop s).2.2) (w.stop s).2 := by
    intro w jobs finished
    refine .stopped jobs finished _ (fun e c h => ?_) (Verifier.stop_phase w s) rfl rfl
    cases h.symm.trans (Verifier.stop_phase w s)
  cases h with
  | idle => cases hjoining
  | running => cases hjoining
  | joining bs later s hrunning =>
    -- the worker has broken off, and what is queued is never checked
    have hbroken := hready.resolve_right Bool.false_ne_true
    rw [Verifier.checkAll_of_not_running (not_running_of_broken hbroken)]
    exact hstopped _ _ _
  | finished jobs s => exact hstopped _ _ _
  | stopped => cases hjoining

theorem Runs.settles (h : Runs p calls p') : ∀ {r}, Settles p r → Settles p' (Verifier.callAll r calls) := by
  induction h with
  | done p => exact id
  | call x _ ih => exact fun hp => ih (hp.call x)
  | work hwork _ ih => exact fun hp => ih (hp.work hwork)
  | join hjoin _ ih => exact fun hp => ih (hp.join hjoin)

/-- What a stop finds does not depend on when the worker has made which check. -/
theorem stopped_of_runs (h : Runs (new, s) calls (q, s')) (hq : q.phase = .stopped) :
    q.checks = (Verifier.callAll (.new, s) calls).1.checks ∧
      q.unrestorable = (Verifier.callAll (.new, s) calls).1.unrestorable ∧
      s' = (Verifier.callAll (.new, s) calls).2 := by
  have hsettles := h.settles (.new s)
  generalize Verifier.callAll (.new, s) calls = r at hsettles
  cases hsettles with
  | stopped jobs finished s hworker hphase hchecks hfound => exact ⟨hchecks, hfound, rfl⟩
  | idle => cases hq
  | running => cases hq
  | joining => cases hq
  | finished => cases hq

theorem runs_stopped_of_ready (hq : q.phase = .joining) (hready : q.worker.phase = .broken ∨ q.finished = true)
    (s : Store) : ∃ p', Runs (q, s) [] p' ∧ p'.1.phase = .stopped := by
  have hjoin : q.join? s =
      some ({ q with phase := .stopped, worker := (q.worker.stop s).2.1 }, (q.worker.stop s).2.2) := by
    rw [join?, hq]
    obtain hbroken | hfinished := hready
    · rw [hbroken]
    · rw [hfinished]
      split
      case h_1 => rfl
      case h_2 => rfl
      case h_3 hno => exact (hno rfl rfl).elim
  exact ⟨_, .join hjoin (.done _), rfl⟩

theorem exists_runs_joining {w : Verifier} (hw : w.isRunning = true) (bs : List Bytes) (later : List VerifierJob)
    (s : Store) : ∃ p', Runs (⟨.joining, bs.map .check ++ .finish :: later, w, false⟩, s) [] p' ∧
      p'.1.phase = .stopped := by
  -- the worker takes what is queued, until it breaks off or comes to the job that finishes it
  induction bs generalizing w s with
  | nil =>
    obtain ⟨e, c, hphase⟩ | hbroken := isRunning_cases hw
    · obtain ⟨p', hruns, hstopped⟩ :=
        runs_stopped_of_ready (q := ⟨.joining, later, w, true⟩) rfl (.inr rfl) s
      refine ⟨p', .work ?_ hruns, hstopped⟩
      rw [work?, hphase]
      rfl
    · exact runs_stopped_of_ready rfl (.inl hbroken) s
  | cons b bs ih =>
    obtain ⟨e, c, hphase⟩ | hbroken := isRunning_cases hw
    · obtain ⟨p', hruns, hstopped⟩ := ih (isRunning_check hw b s) (w.check b s).2
      refine ⟨p', .work ?_ hruns, hstopped⟩
      rw [work?, hphase]
      rfl
    · exact runs_stopped_of_ready rfl (.inl hbroken) s

theorem exists_runs_settles (h : Settles p r) (hp : p.1.phase = .joining) :
    ∃ p', Runs p [] p' ∧ p'.1.phase = .stopped := by
  cases h with
  | idle => cases hp
  | running => cases hp
  | stopped => cases hp
  | joining bs later s hrunning => exact exists_runs_joining hrunning bs later s
  | finished jobs s => exact runs_stopped_of_ready rfl (.inr rfl) s

/-- A stop that waits is answered in the end. -/
theorem exists_runs_stopped (h : Runs (new, s) calls p) (hp : p.1.phase = .joining) :
    ∃ p', Runs p [] p' ∧ p'.1.phase = .stopped :=
  exists_runs_settles (h.settles (.new s)) hp

end QueuedVerifier

namespace Deployment

/-- A verifier of a deployment is a queued one whose worker keeps up with the calls. -/
theorem verifierCalls_of_runs (d : Deployment) {calls : List VerifierCall} {q : QueuedVerifier} {s : Store}
    (h : QueuedVerifier.Runs (.new, d.store) calls (q, s)) (hq : q.phase = .stopped) :
    let d' := d.newVerifier.2.verifierCalls d.newVerifier.1 calls
    q.checks = (d'.verifier d.newVerifier.1).checks ∧
      q.unrestorable = (d'.verifier d.newVerifier.1).unrestorable ∧ s = d'.store := by
  intro d'
  rw [verifier_verifierCalls d.newVerifier_lt, store_verifierCalls d.newVerifier_lt, verifier_newVerifier]
  exact QueuedVerifier.stopped_of_runs h hq

end Deployment

end DurableFlow
