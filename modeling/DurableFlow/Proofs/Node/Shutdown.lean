import DurableFlow.Node.Basic
import DurableFlow.Proofs.Machine.Verification
import DurableFlow.Sample.Host
import DurableFlow.Sample.Serializers

/-!
# What a node reports when it stops

A node that verifies checkpoints hands every newly frozen fiber to its verifier. What it reports when it
stops is what thawing these fibers one after the other comes to, up to the first that breaks off.
-/

namespace DurableFlow

namespace Node

variable {p : NodePlan} {n : Node} {d d' : Deployment} {v : Nat} {w : Verifier} {s : Store}

/-- A node that verifies checkpoints has a new verifier, and only the outermost layer of its executor hands
fibers over. -/
theorem of_build (hp : p.options.verifiesCheckpoints = true) (h : build p d = (.ok n, d')) :
    n.verifier = some d.verifiers.length ∧ d'.verifiers = d.verifiers ++ [.new] ∧
      ∃ inner, n.executor = .verifying d.verifiers.length inner ∧ inner.Quiet := by
  have hrun : (plan p).run.run d.store = runOn (plan p) d.store := rfl
  rw [build, hrun] at h
  generalize runOn (plan p) d.store = r at h
  rcases r with ⟨e | environment, store⟩
  · exact nomatch (Prod.mk.inj h).1
  · simp only [hp, if_true, Option.isSome_some] at h
    obtain ⟨hn, rfl⟩ := Prod.mk.inj h
    obtain rfl := Except.ok.inj hn
    exact ⟨rfl, rfl, Executor.build_quiet p.options.machine hp _⟩

theorem of_start (hn : n.verifier = some v) (hd : d.Tracks v w s) (h : n.start d = .ok d') :
    ∃ c s', (d.store.environment n.environment).contexts.get? .checkpoint = some c ∧ d.store.Like s' ∧
      d'.Tracks v (Verifier.checkAll w.waiting (w.started n.environment c) s').1
        (Verifier.checkAll w.waiting (w.started n.environment c) s').2 := by
  obtain ⟨hbound, rfl, -⟩ := hd
  rw [start, hn] at h
  cases hc : (d.store.environment n.environment).contexts.get? .checkpoint with
  | none => simp only [hc] at h; cases h
  | some c =>
    simp only [hc, Deployment.startVerifier, Verifier.start?] at h
    split at h
    case h_2 => cases h
    case h_1 x store hx =>
      split at hx
      case h_2 => cases hx
      case h_1 =>
        obtain rfl := Except.ok.inj h
        obtain ⟨rfl, rfl⟩ := Prod.mk.inj (Option.some.inj hx)
        refine ⟨c, _, rfl, ⟨_, _, _, rfl⟩, ?_, Deployment.verifier_set hbound _ _, .refl _⟩
        rw [List.length_set]
        exact hbound

theorem stop_eq (hn : n.verifier = some v) (hd : d.Tracks v w s) :
    (n.stop d).1 = ⟨(w.stop d.store).1, (w.stop d.store).2.1.checks⟩ := by
  obtain ⟨hbound, rfl, -⟩ := hd
  have hverifier : (d.stopVerifier v).2.verifier v = ((d.verifier v).stop d.store).2.1 :=
    Deployment.verifier_set hbound _ _
  have hstop : (n.stop d).1 = ⟨(d.stopVerifier v).1, ((d.stopVerifier v).2.verifier v).checks⟩ := by
    rw [stop, hn]
  rw [hstop, hverifier]
  rfl

section Run

variable {d₀ d₁ d₂ d₃ d₄ d₅ : Deployment} {x x' : Executor}
  {before after : List (MachineState × MachineState)}

theorem tracks_of_runs (hp : p.options.verifiesCheckpoints = true) (hbuild : build p d₀ = (.ok n, d₁))
    (hsame : d₂.verifiers = d₁.verifiers) (hbefore : Executor.Runs n.executor d₂ before x d₃)
    (hstart : n.start d₃ = .ok d₄) (hafter : Executor.Runs x d₄ after x' d₅) :
    ∃ c s', (d₃.store.environment n.environment).contexts.get? .checkpoint = some c ∧ d₃.store.Like s' ∧
      d₅.Tracks d₀.verifiers.length
        (Verifier.checkAll (Executor.newlyFrozen before ++ Executor.newlyFrozen after)
          (Verifier.new.started n.environment c) s').1
        (Verifier.checkAll (Executor.newlyFrozen before ++ Executor.newlyFrozen after)
          (Verifier.new.started n.environment c) s').2 := by
  obtain ⟨hn, hverifiers, inner, hexecutor, hquiet⟩ := of_build hp hbuild
  have hnew : d₂.Tracks d₀.verifiers.length .new d₂.store := by
    refine ⟨?_, ?_, .refl _⟩
    · rw [hsame, hverifiers, List.length_append]
      exact Nat.lt_succ_self _
    · rw [Deployment.verifier, hsame, hverifiers]
      exact Store.getD_concat_length _ _ _
  -- up to the start the fibers wait, then they are checked ahead of those that come later
  rw [hexecutor] at hbefore
  obtain ⟨⟨y, rfl, hy⟩, hwaiting⟩ := hbefore.tracks hquiet hnew
  rw [Verifier.submitAll_idle rfl] at hwaiting
  obtain ⟨c, s', hc, hlike, hstarted⟩ := of_start hn hwaiting hstart
  obtain ⟨-, hchecked⟩ := hafter.tracks hy hstarted
  rw [Verifier.submitAll_started_append] at hchecked
  exact ⟨c, s', hc, hlike, hchecked⟩

/-- A node that verifies checkpoints is built, carries out transitions, is started, carries out more
transitions and stops. Its report counts the checks of newly frozen fibers up to the first that breaks off,
which are all if none does, and says that there is an unrestorable fiber exactly if one of them does not
thaw. -/
theorem stop_of_runs (hp : p.options.verifiesCheckpoints = true) (hbuild : build p d₀ = (.ok n, d₁))
    (hsame : d₂.verifiers = d₁.verifiers) (hbefore : Executor.Runs n.executor d₂ before x d₃)
    (hstart : n.start d₃ = .ok d₄) (hafter : Executor.Runs x d₄ after x' d₅) :
    ∃ c, (d₃.store.environment n.environment).contexts.get? .checkpoint = some c ∧
      let outcomes := Call.thawEach n.environment c (Executor.newlyFrozen (before ++ after)) d₃.store
      (n.stop d₅).1.checks = (outcomes.takeWhile Verifier.finishes).length ∧
        ((n.stop d₅).1.unrestorable = true ↔ ∃ outcome ∈ outcomes, outcome.isOk = false) ∧
        ((∀ outcome ∈ outcomes, outcome ≠ .error .panic) →
          (n.stop d₅).1.checks =
            (before ++ after).countP fun r => (Executor.newlyFrozen? r.1 r.2).isSome) := by
  obtain ⟨hn, -⟩ := of_build hp hbuild
  obtain ⟨c, s', hc, hlike, hchecked⟩ := tracks_of_runs hp hbuild hsame hbefore hstart hafter
  have hcalls : Executor.newlyFrozen (before ++ after) =
      Executor.newlyFrozen before ++ Executor.newlyFrozen after := List.filterMap_append
  refine ⟨c, hc, ?_⟩
  intro outcomes
  have hlength : outcomes.length =
      (before ++ after).countP fun r => (Executor.newlyFrozen? r.1 r.2).isSome := by
    rw [Call.length_thawEach, Executor.newlyFrozen, List.length_filterMap_eq_countP]
  obtain ⟨hchecks, hunrestorable⟩ := Verifier.stop_checkAll (e := n.environment) (c := c) hlike
    (Executor.newlyFrozen (before ++ after)) d₅.store
  rw [stop_eq hn hchecked, ← hcalls]
  refine ⟨hchecks, hunrestorable, fun hpanic => ?_⟩
  rw [← hlength, ← Verifier.takeWhile_finishes hpanic]
  exact hchecks

end Run

section Samples

variable (key : Option Serializer)

def samplePlan : NodePlan := ⟨.development, .new, [], key⟩

def sampleNode : Node :=
  ⟨.development, 0, some 0, Executor.build NodeOptions.development.machine (some 0)⟩

def sampleBuilt : Deployment := (build (samplePlan key) ⟨Store.empty [], []⟩).2

def startedOr (d : Deployment) : Deployment := (sampleNode.start d).toOption.getD d

theorem size_sampleFlow : (List.replicate 16 (7 : UInt8)).length = 16 := rfl

def sampleFlow : FlowId := ⟨List.replicate 16 7, size_sampleFlow⟩

def sampleFrozen : Bytes :=
  let snapshot : Snapshot := ⟨sampleFlow, "app.Pay", ⟨"sign", 1⟩,
    [("payee", Value.erase (.builtin .publicKey) (.atom (.publicKey ⟨.ed25519, [1, 2]⟩)))]⟩
  (runOn (Call.freeze 0 snapshot) (sampleBuilt key).store).1.toOption.getD []

def unstarted : MachineState := ⟨⟨.unstarted "app.Pay", [], 0⟩, false, false⟩

def suspended (frozen : Bytes) : MachineState :=
  ⟨⟨.started .forceCheckpoint frozen, [], 1⟩, false, false⟩

def suspension (previous : MachineState) (frozen : Bytes) : Execution where
  fiber := ⟨sampleFlow, "app.Pay"⟩
  previous := previous
  event := .suspend .forceCheckpoint frozen
  transition :=
    ⟨suspended frozen, [.persistCheckpoint sampleFlow (suspended frozen).checkpoint], .processEvents⟩

def suspend (previous : MachineState) (frozen : Bytes) (failure : Option (Nat × HostError))
    (x : Executor) (d : Deployment) : Result (List String) :=
  x.execute (Sample.performer failure) (suspension previous frozen) [] d

end Samples

/-- Before the start a flow is suspended with a fiber that cannot be restored. -/
def garbled : Result (List String) :=
  suspend unstarted [1, 2, 3] none sampleNode.executor (sampleBuilt none)

/-- After the start it is suspended with the same fiber, then with another one, where an action fails, and
with this one again, where none fails. -/
def unchanged : Result (List String) :=
  suspend (suspended [1, 2, 3]) [1, 2, 3] none garbled.executor (startedOr garbled.deployment)

def failed : Result (List String) :=
  suspend (suspended [1, 2, 3]) (sampleFrozen none) (some (0, .ofMessage "disk full"))
    unchanged.executor unchanged.deployment

def succeeded : Result (List String) :=
  suspend (suspended [1, 2, 3]) (sampleFrozen none) none failed.executor failed.deployment

def garbledCalls : List (MachineState × MachineState) :=
  [(unstarted, garbled.state), (suspended [1, 2, 3], unchanged.state), (suspended [1, 2, 3], failed.state),
    (suspended [1, 2, 3], succeeded.state)]

theorem stop_of_runs_garbled :
    (sampleNode.stop succeeded.deployment).1 = ⟨true, 2⟩ ∧
      ∃ c, (garbled.deployment.store.environment 0).contexts.get? .checkpoint = some c ∧
        let outcomes := Call.thawEach 0 c (Executor.newlyFrozen garbledCalls) garbled.deployment.store
        (sampleNode.stop succeeded.deployment).1.checks = (outcomes.takeWhile Verifier.finishes).length ∧
          ((sampleNode.stop succeeded.deployment).1.unrestorable = true ↔
            ∃ outcome ∈ outcomes, outcome.isOk = false) ∧
          ((∀ outcome ∈ outcomes, outcome ≠ .error .panic) →
            (sampleNode.stop succeeded.deployment).1.checks =
              garbledCalls.countP fun r => (Executor.newlyFrozen? r.1 r.2).isSome) := by
  have hbuild : build (samplePlan none) ⟨Store.empty [], []⟩ = (.ok sampleNode, sampleBuilt none) := rfl
  have hbefore : Executor.Runs sampleNode.executor (sampleBuilt none) [(unstarted, garbled.state)]
      garbled.executor garbled.deployment :=
    .cons (Sample.performer none) [] (suspension unstarted [1, 2, 3]) (.nil _ _)
  have hafter : Executor.Runs garbled.executor (startedOr garbled.deployment)
      [(suspended [1, 2, 3], unchanged.state), (suspended [1, 2, 3], failed.state),
        (suspended [1, 2, 3], succeeded.state)] succeeded.executor succeeded.deployment :=
    .cons (Sample.performer none) [] (suspension (suspended [1, 2, 3]) [1, 2, 3])
      (.cons (Sample.performer (some (0, .ofMessage "disk full"))) []
        (suspension (suspended [1, 2, 3]) (sampleFrozen none))
        (.cons (Sample.performer none) [] (suspension (suspended [1, 2, 3]) (sampleFrozen none)) (.nil _ _)))
  refine ⟨by decide +kernel, ?_⟩
  exact stop_of_runs (p := samplePlan none) rfl hbuild rfl hbefore rfl hafter

def panicked : Result (List String) :=
  suspend unstarted (sampleFrozen (some Sample.panickey)) none sampleNode.executor
    (startedOr (sampleBuilt (some Sample.panickey)))

/-- A check that breaks off is not counted. -/
theorem not_counted_of_panic :
    build (samplePlan (some Sample.panickey)) ⟨Store.empty [], []⟩ =
        (.ok sampleNode, sampleBuilt (some Sample.panickey)) ∧
      sampleNode.start (sampleBuilt (some Sample.panickey)) =
        .ok (startedOr (sampleBuilt (some Sample.panickey))) ∧
      Executor.Runs sampleNode.executor (startedOr (sampleBuilt (some Sample.panickey)))
        [(unstarted, panicked.state)] panicked.executor panicked.deployment ∧
      [(unstarted, panicked.state)].countP (fun r => (Executor.newlyFrozen? r.1 r.2).isSome) = 1 ∧
      (sampleNode.stop panicked.deployment).1 = ⟨true, 0⟩ := by
  refine ⟨rfl, rfl, ?_, rfl, by decide +kernel⟩
  exact .cons (Sample.performer none) [] (suspension unstarted (sampleFrozen (some Sample.panickey)))
    (.nil _ _)

end Node

end DurableFlow
