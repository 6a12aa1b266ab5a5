import DurableFlow.Node.Basic
import DurableFlow.Proofs.Environment.Routing

/-!
# Checkpoints of nodes

A node to which no serializer is contributed starts with an environment for checkpoints, and still has one
whatever it has frozen and thawed.
-/

namespace DurableFlow

namespace Call

variable {st st' : Store}

theorem policies_of_allowMissing {policy n : Nat} {batch : List String}
    (h : runOn (allowMissing policy batch) st = (.ok n, st')) : ∃ ps, st' = { st with policies := ps } := by
  rw [allowMissing, runOn_get_bind, runOn_bind_eq_ok_iff] at h
  obtain ⟨⟨p, added⟩, t, hlift, h⟩ := h
  rw [runOn_liftError] at hlift
  obtain ⟨-, rfl⟩ := Prod.mk.inj hlift
  obtain ⟨-, rfl⟩ := Prod.mk.inj h
  exact ⟨_, rfl⟩

theorem policies_of_foldlM {policy n m : Nat} {ws : List (String × List String)}
    (h : runOn (ws.foldlM (fun added w => do return added + (← allowMissing policy w.2)) n) st =
      (.ok m, st')) : ∃ ps, st' = { st with policies := ps } := by
  induction ws generalizing n st with
  | nil =>
    obtain ⟨-, rfl⟩ := Prod.mk.inj h
    exact ⟨_, rfl⟩
  | cons w ws ih =>
    rw [List.foldlM_cons, runOn_bind_eq_ok_iff] at h
    obtain ⟨added, t, hw, h⟩ := h
    rw [runOn_bind_eq_ok_iff] at hw
    obtain ⟨n', t', hw, hpure⟩ := hw
    obtain ⟨-, rfl⟩ := Prod.mk.inj hpure
    obtain ⟨ps, rfl⟩ := policies_of_allowMissing hw
    obtain ⟨ps', rfl⟩ := ih h
    exact ⟨ps', rfl⟩

theorem policies_of_defaultPolicy {p : Plugins} {id : Nat}
    (h : runOn (defaultPolicy p) st = (.ok id, st')) : ∃ ps, st' = { st with policies := ps } := by
  rw [defaultPolicy, runOn_bind_eq_ok_iff] at h
  obtain ⟨id', t, hnew, h⟩ := h
  obtain ⟨-, rfl⟩ := Prod.mk.inj hnew
  rw [runOn_bind_eq_ok_iff] at h
  obtain ⟨n, t', hallow, h⟩ := h
  obtain ⟨-, rfl⟩ := Prod.mk.inj h
  obtain ⟨ps, rfl⟩ := policies_of_foldlM hallow
  exact ⟨ps, rfl⟩

end Call

namespace Node

variable {st st' : Store} {p : NodePlan} {e : Nat}

/-- The contexts of a node by use case. -/
def contexts (policy scope checkpoints : Nat) : Bindings UseCase Context :=
  let base (u : UseCase) : Context := ⟨SchemeKind.server.magic, policy, scope, u, []⟩
  [base .storage, base .rpcServer, base .rpcClient, base .p2p,
    ⟨SchemeKind.checkpoint.magic, checkpoints, scope, .checkpoint, []⟩].foldl
      (fun m c => m.set c.useCase c) .empty

def scheme (st : Store) (p : NodePlan) (kind : SchemeKind) : Scheme :=
  ⟨kind, st.plugins.length, p.publicKey.getD (Builtin.serializer .publicKey), .empty⟩

def loaded (st : Store) (p : NodePlan) : Scope :=
  (Snapshot.objectTypes ++ p.types).foldl Scope.load (.new (st.scopes.length + 1) "node")

/-- What a plan makes of the store, apart from policies. -/
def planned (st : Store) (p : NodePlan) (policies : List Policy) (policy checkpoints : Nat) : Store :=
  let schemes := st.schemes ++ [scheme st p .server]
  { st with
    policies := policies
    scopes := st.scopes ++ [loaded st p]
    plugins := st.plugins ++ [p.plugins]
    schemes := schemes ++ [scheme st p .checkpoint]
    environments := st.environments ++ [⟨[st.schemes.length, schemes.length],
      contexts policy (st.scopes.length + 1) checkpoints, .empty⟩] }

theorem of_runOn_plan (h : runOn (plan p) st = (.ok e, st')) :
    ∃ policies policy checkpoints, e = st.environments.length ∧
      st' = planned st p policies policy checkpoints := by
  rw [plan, runOn_bind_eq_ok_iff] at h
  obtain ⟨scope, t, hscope, h⟩ := h
  obtain ⟨he, rfl⟩ := Prod.mk.inj hscope
  obtain rfl := Except.ok.inj he
  rw [runOn_bind_eq_ok_iff] at h
  obtain ⟨plugins, t, hplugins, h⟩ := h
  obtain ⟨he, rfl⟩ := Prod.mk.inj hplugins
  obtain rfl := Except.ok.inj he
  rw [runOn_bind_eq_ok_iff] at h
  obtain ⟨policy, t, hpolicy, h⟩ := h
  obtain ⟨ps, rfl⟩ := Call.policies_of_defaultPolicy hpolicy
  obtain ⟨he, rfl⟩ := Prod.mk.inj h
  exact ⟨ps ++ [.new (ps.length + 1) true], policy, ps.length + 1, (Except.ok.inj he).symm, rfl⟩

section

variable {policies : List Policy} {policy checkpoints : Nat}

theorem environment_planned :
    (planned st p policies policy checkpoints).environment st.environments.length =
      ⟨[st.schemes.length, (st.schemes ++ [scheme st p .server]).length],
        contexts policy (st.scopes.length + 1) checkpoints, .empty⟩ :=
  Store.getD_concat_length _ _ _

theorem scope_planned :
    (planned st p policies policy checkpoints).scope (st.scopes.length + 1) = loaded st p :=
  Store.getD_concat_length _ _ _

theorem server_planned :
    (planned st p policies policy checkpoints).scheme st.schemes.length = scheme st p .server := by
  refine (Store.getD_append_left ?_ _ _).trans (Store.getD_concat_length _ _ _)
  rw [List.length_append]
  exact Nat.lt_succ_self _

theorem checkpoint_planned :
    (planned st p policies policy checkpoints).scheme (st.schemes ++ [scheme st p .server]).length =
      scheme st p .checkpoint :=
  Store.getD_concat_length _ _ _

theorem plainScheme_planned (hkey : p.publicKey = none) (hp : p.plugins.serializers = []) :
    (planned st p policies policy checkpoints).PlainScheme
      (st.schemes ++ [scheme st p .server]).length := by
  refine ⟨?_, ?_, ?_, fun key f hf => ?_⟩
  · have hlength : (planned st p policies policy checkpoints).schemes.length =
        (st.schemes ++ [scheme st p .server]).length + 1 := List.length_append
    omega
  · rw [checkpoint_planned, scheme, hkey]
    rfl
  · rw [checkpoint_planned]
    have hplugins : (planned st p policies policy checkpoints).pluginsOf st.plugins.length = p.plugins :=
      Store.getD_concat_length _ _ _
    rw [scheme, hplugins, hp]
  · rw [checkpoint_planned] at hf
    cases hf

end

/-- A planned node has an environment for checkpoints. -/
theorem keepsCheckpoints_of_plan (hkey : p.publicKey = none) (hp : p.plugins.serializers = [])
    (ho : Scope.Apart (Snapshot.objectTypes ++ p.types)) (h : runOn (plan p) st = (.ok e, st')) :
    ∃ c, st'.KeepsCheckpoints e c ∧ st'.scope c.scope = loaded st p ∧ st'.natives = st.natives := by
  obtain ⟨policies, policy, checkpoints, rfl, rfl⟩ := of_runOn_plan h
  refine ⟨⟨SchemeKind.checkpoint.magic, checkpoints, st.scopes.length + 1, .checkpoint, []⟩, ?_,
    scope_planned, rfl⟩
  refine ⟨?_, rfl, fun k hk hkind => ?_, fun m i hi => ?_, ?_, ?_⟩
  · rw [environment_planned]
    exact Bindings.get?_set_self _ _ _
  · rw [environment_planned] at hk
    rcases List.mem_pair.1 hk with rfl | rfl
    · rw [server_planned] at hkind
      cases hkind
    · exact plainScheme_planned hkey hp
  · rw [environment_planned] at hi
    cases hi
  · rw [scope_planned]
    exact ho.distinct _ _
  · rw [scope_planned]
    exact fun o hmem o' ho' => ho.eq_of_objectType? (List.mem_append_left _ hmem) ho'

theorem keepsCheckpoints_of_uses {st'' : Store} (hkey : p.publicKey = none)
    (hp : p.plugins.serializers = []) (ho : Scope.Apart (Snapshot.objectTypes ++ p.types))
    (h : runOn (plan p) st = (.ok e, st')) (hu : Call.Uses e st' st'') :
    ∃ c, st''.KeepsCheckpoints e c := by
  obtain ⟨c, he, -⟩ := keepsCheckpoints_of_plan hkey hp ho h
  exact ⟨c, hu.keepsCheckpoints he⟩

end Node

end DurableFlow
