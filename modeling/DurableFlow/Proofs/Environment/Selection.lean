import DurableFlow.Proofs.Environment.Checkpoint
import DurableFlow.Proofs.Environment.Requests

/-!
# The scheme that is chosen

Reading goes to the first scheme of an environment that accepts the magic for the use case, whatever has
been chosen before. Writing goes to the first scheme with the magic, which may refuse the use case. If it
writes all the same, reading goes to it.
-/

namespace DurableFlow

theorem SchemeKind.accepts_iff {k : SchemeKind} {m : Magic} {u : UseCase} :
    k.accepts m u = true ↔ k.magic = m ∧ k.refusal? u = none := by
  cases k <;> cases u <;> simp [accepts, refusal?, eq_comm]

namespace Store

variable {st₀ st st' : Store} {e e' i k : Nat} {schemes : List Nat} {m : Magic} {u : UseCase}

theorem find?_accepts (hk : (schemes.find? fun k => (st.scheme k).kind.magic = m) = some k)
    (hu : (st.scheme k).kind.refusal? u = none) :
    (schemes.find? fun k => (st.scheme k).kind.accepts m u) = some k := by
  obtain ⟨hmagic, before, after, hschemes, hbefore⟩ := List.find?_eq_some_iff_append.1 hk
  have hmagic : (st.scheme k).kind.magic = m := of_decide_eq_true hmagic
  refine List.find?_eq_some_iff_append.2
    ⟨SchemeKind.accepts_iff.2 ⟨hmagic, hu⟩, before, after, hschemes, fun k' hk' => ?_⟩
  have hother : ¬ (st.scheme k').kind.magic = m := by
    simpa using hbefore k' hk'
  have hrefused : ¬ (st.scheme k').kind.accepts m u = true := by
    rw [SchemeKind.accepts_iff]
    exact fun h => hother h.1
  rw [Bool.not_eq_true] at hrefused
  rw [hrefused]
  rfl

/-- An environment whose schemes are these and of these kinds, where a place that was chosen before is the
one that would be chosen. -/
structure Routed (st₀ : Store) (e : Nat) (schemes : List Nat) (st : Store) : Prop where
  listed : (st.environment e).schemes = schemes
  kind : ∀ k, (st.scheme k).kind = (st₀.scheme k).kind
  chosen : ∀ m u i, (st.environment e).chosen.get? (m, u) = some i →
    Call.firstAccepting st₀ schemes m u = some i

namespace Routed

theorem firstAccepting (h : st₀.Routed e schemes st) (m : Magic) (u : UseCase) :
    Call.firstAccepting st (st.environment e).schemes m u = Call.firstAccepting st₀ schemes m u := by
  simp only [Call.firstAccepting, h.listed, h.kind]

theorem place? (h : st₀.Routed e schemes st) (m : Magic) (u : UseCase) :
    st.place? e m u = Call.firstAccepting st₀ schemes m u := by
  rw [Store.place?, h.firstAccepting]
  cases hchosen : (st.environment e).chosen.get? (m, u) with
  | none => rfl
  | some i =>
    rw [h.chosen m u i hchosen]
    rfl

theorem of_alike (h : st₀.Routed e schemes st) (halike : st.Alike st') :
    st₀.Routed e schemes st' := by
  refine ⟨?_, fun k => (halike.kind_eq k).trans (h.kind k), ?_⟩
  · rw [halike.environment_eq, h.listed]
  · rw [halike.environment_eq]
    exact h.chosen

theorem keeping (h : st₀.Routed e schemes st)
    (hi : Call.firstAccepting st (st.environment e').schemes m u = some i) :
    st₀.Routed e schemes (st.keeping e' m u i) := by
  by_cases hlt : e' < st.environments.length
  · have henv : (st.keeping e' m u i).environment e = if e' = e then _ else st.environment e :=
      getD_set hlt _ _ _
    by_cases he : e' = e
    · subst he
      rw [if_pos rfl] at henv
      rw [h.firstAccepting] at hi
      refine ⟨?_, h.kind, fun m' u' j hj => ?_⟩
      · rw [henv]
        exact h.listed
      · rw [henv, Bindings.get?_set] at hj
        by_cases hkey : (m, u) = (m', u')
        · rw [if_pos hkey] at hj
          obtain ⟨rfl, rfl⟩ := Prod.mk.inj hkey
          rw [hi, Option.some.inj hj]
        · rw [if_neg hkey] at hj
          exact h.chosen m' u' j hj
    · rw [if_neg he] at henv
      refine ⟨?_, h.kind, ?_⟩
      · rw [henv, h.listed]
      · rw [henv]
        exact h.chosen
  · have hsame : st.keeping e' m u i = st := congrArg (fun es => { st with environments := es })
      (List.set_eq_of_length_le (Nat.le_of_not_lt hlt))
    rw [hsame]
    exact h

end Routed

end Store

namespace Call

variable {st₀ st st' : Store} {e e' k : Nat} {schemes : List Nat} {c : Context} {t : Ty} {v : Value}
  {b : Bytes}

/-- Whatever was chosen before, the answer is the first scheme that accepts. -/
theorem runOn_schemeFor_of_routed (h : st₀.Routed e schemes st) (m : Magic) (u : UseCase) :
    (runOn (schemeFor e m u) st).1 =
      match schemes.find? fun k => (st₀.scheme k).kind.accepts m u with
      | some k => .ok k
      | none => .error (.error (.noSchemeFor m u)) := by
  obtain ⟨st', hrun, -⟩ := runOn_schemeFor_place e m u st
  rw [h.place?, h.listed, firstAccepting, ← List.find?_eq_bind_findIdx?_getElem?] at hrun
  exact congrArg Prod.fst hrun

theorem routed_schemeFor (h : st₀.Routed e schemes st) (e' : Nat) (m : Magic) (u : UseCase) :
    st₀.Routed e schemes (runOn (schemeFor e' m u) st).2 := by
  obtain ⟨st', hrun, rfl | ⟨i, hi, rfl⟩⟩ := runOn_schemeFor_place e' m u st
  · rw [hrun]
    exact h
  · rw [hrun]
    exact h.keeping hi

theorem runOn_serializeBy {f : Nat} (hf : runOn (factoryFor k c) st = (.ok f, st')) :
    runOn (serializeBy k c t v) st =
      ((st'.setting f).serialize (st'.scheme k).kind.magic t v, st') := by
  rw [serializeBy, runOn_bind_ok hf, runOn_get_bind, runOn_serializeWith]

theorem alike_serializeBy (k : Nat) (c : Context) (t : Ty) (v : Value) (st : Store) :
    st.Alike (runOn (serializeBy k c t v) st).2 := by
  refine alike_factoryFor_bind (fun f st' => ?_) k c st
  rw [runOn_get_bind, runOn_serializeWith]

theorem alike_deserializeBy (k : Nat) (c : Context) (t : Ty) (bs : Bytes) (st : Store) :
    st.Alike (runOn (deserializeBy k c t bs) st).2 := by
  refine alike_factoryFor_bind (fun f st' => ?_) k c st
  rw [runOn_get_bind, runOn_deserializeWith]

theorem routed_serialize (h : st₀.Routed e schemes st) (e' : Nat) (c : Context) (t : Ty) (v : Value) :
    st₀.Routed e schemes (runOn (serialize e' c t v) st).2 := by
  rw [runOn_serialize]
  cases st.writer? e' c.magic with
  | none => exact h
  | some k => exact h.of_alike (alike_serializeBy k c t v st)

theorem routed_deserialize (h : st₀.Routed e schemes st) (e' : Nat) (c : Context) (t : Ty)
    (bs : Bytes) : st₀.Routed e schemes (runOn (deserialize e' c t bs) st).2 := by
  rw [deserialize]
  cases Magic.ofPrefix? bs with
  | none => exact h
  | some m =>
    have hchosen := routed_schemeFor h e' m c.useCase
    change st₀.Routed e schemes (runOn (schemeFor e' m c.useCase >>= fun k => deserializeBy k c t bs) st).2
    rcases hk : runOn (schemeFor e' m c.useCase) st with ⟨err | k, st'⟩
    · rw [hk] at hchosen
      rw [runOn_bind_error hk]
      exact hchosen
    · rw [hk] at hchosen
      rw [runOn_bind_ok hk]
      exact hchosen.of_alike (alike_deserializeBy k c t bs st')

end Call

inductive EnvironmentCall where
  | schemeFor (e : Nat) (magic : Magic) (useCase : UseCase)
  | serialize (e : Nat) (c : Context) (t : Ty) (v : Value)
  | deserialize (e : Nat) (c : Context) (t : Ty) (bs : Bytes)

namespace EnvironmentCall

variable {st₀ st : Store} {e k : Nat} {schemes : List Nat}

def leave (st : Store) : EnvironmentCall → Store
  | schemeFor e m u => (runOn (Call.schemeFor e m u) st).2
  | serialize e c t v => (runOn (Call.serialize e c t v) st).2
  | deserialize e c t bs => (runOn (Call.deserialize e c t bs) st).2

def leaveAll (calls : List EnvironmentCall) (st : Store) : Store := calls.foldl leave st

theorem routed_leave (h : st₀.Routed e schemes st) (call : EnvironmentCall) :
    st₀.Routed e schemes (call.leave st) := by
  cases call with
  | schemeFor e' m u => exact Call.routed_schemeFor h e' m u
  | serialize e' c t v => exact Call.routed_serialize h e' c t v
  | deserialize e' c t bs => exact Call.routed_deserialize h e' c t bs

theorem routed_leaveAll (h : st₀.Routed e schemes st) (calls : List EnvironmentCall) :
    st₀.Routed e schemes (leaveAll calls st) := by
  induction calls generalizing st with
  | nil => exact h
  | cons call calls ih => exact ih (routed_leave h call)

end EnvironmentCall

namespace Call

variable {st st' : Store} {e k : Nat} {c : Context} {t : Ty} {v : Value} {b : Bytes}

/-- What a scheme writes starts with its magic. It writes for no use case that it refuses. -/
theorem of_runOn_serializeBy (h : runOn (serializeBy k c t v) st = (.ok b, st')) :
    (st.scheme k).kind.refusal? c.useCase = none ∧
      ∃ payload, b = (st.scheme k).kind.magic.bytes ++ payload := by
  have halike := alike_factoryFor k c st
  rcases hf : runOn (factoryFor k c) st with ⟨e | f, st₁⟩
  · rw [serializeBy, runOn_bind_error hf] at h
    cases h
  · rw [hf] at halike
    rw [runOn_serializeBy hf, halike.kind_eq] at h
    obtain ⟨env, -, hencode⟩ := Setting.serialize_eq_ok_iff.1 (Prod.mk.inj h).1
    exact ⟨refusal?_eq_none hf, env.payload, (Envelope.encode_eq_ok_iff.1 hencode).2⟩

theorem routed_newEnvironment (schemes : List Nat) (contexts : List Context) (st₀ : Store) :
    st₀.Routed st₀.environments.length schemes (runOn (newEnvironment schemes contexts) st₀).2 := by
  have hnew : (runOn (newEnvironment schemes contexts) st₀).2.environment st₀.environments.length =
      ⟨schemes, contexts.foldl (fun m c => m.set c.useCase c) .empty, .empty⟩ :=
    Store.getD_concat_length _ _ _
  refine ⟨?_, fun k => rfl, fun m u i hi => ?_⟩
  · rw [hnew]
  · rw [hnew] at hi
    cases hi

/-- Whatever calls there have been, the scheme that reads a magic for a use case is the first one of the
list that accepts them. What has been written starts with the magic of its context, and the scheme that
has written it is the one that reads this magic for its use case, whatever calls follow. -/
theorem schemeFor_of_serialize (st₀ : Store) (schemes : List Nat) (contexts : List Context)
    (calls : List EnvironmentCall) :
    let e := st₀.environments.length
    let st := EnvironmentCall.leaveAll calls (runOn (newEnvironment schemes contexts) st₀).2
    (∀ m u, (runOn (schemeFor e m u) st).1 =
      match schemes.find? fun k => (st₀.scheme k).kind.accepts m u with
      | some k => .ok k
      | none => .error (.error (.noSchemeFor m u))) ∧
    ∀ c t v b st', runOn (serialize e c t v) st = (.ok b, st') →
      c.magic.bytes <+: b ∧ Magic.ofPrefix? b = some c.magic ∧
      ∃ k, (schemes.find? fun k => (st₀.scheme k).kind.magic = c.magic) = some k ∧
        runOn (serialize e c t v) st = runOn (serializeBy k c t v) st ∧
        ∀ later, (runOn (schemeFor e c.magic c.useCase) (EnvironmentCall.leaveAll later st')).1 = .ok k := by
  intro e st
  have hst : st₀.Routed e schemes st :=
    EnvironmentCall.routed_leaveAll (routed_newEnvironment schemes contexts st₀) calls
  refine ⟨runOn_schemeFor_of_routed hst, fun c t v b st' h => ?_⟩
  have hafter : st₀.Routed e schemes st' := by
    have hserialize := routed_serialize hst e c t v
    rw [h] at hserialize
    exact hserialize
  rw [runOn_serialize] at h ⊢
  cases hk : st.writer? e c.magic with
  | none =>
    rw [hk] at h
    cases h
  | some k =>
    simp only [hk] at h
    obtain ⟨hu, payload, rfl⟩ := of_runOn_serializeBy h
    have hfirst : (schemes.find? fun k => (st₀.scheme k).kind.magic = c.magic) = some k := by
      rw [Store.writer?, hst.listed] at hk
      simp only [hst.kind] at hk
      exact hk
    have hreads : (schemes.find? fun k => (st₀.scheme k).kind.accepts c.magic c.useCase) = some k := by
      rw [hst.kind] at hu
      exact Store.find?_accepts hfirst hu
    rw [Store.magic_of_writer? hk]
    refine ⟨List.prefix_append _ _, Magic.ofPrefix?_append _ _, k, hfirst, rfl, fun later => ?_⟩
    rw [runOn_schemeFor_of_routed (EnvironmentCall.routed_leaveAll hafter later), hreads]

def mixedStore : Store :=
  { Store.empty [] with
    policies := [.new 1 true], scopes := [.new 1 "mixed"], plugins := [.new],
    schemes := [.server, .checkpoint, .client].map fun kind =>
      ⟨kind, 0, Builtin.serializer .publicKey, .empty⟩ }

def mixedContext (u : UseCase) : Context := ⟨⟨1, 0⟩, 1, 1, u, []⟩

def mixedCalls : List EnvironmentCall := [
  .schemeFor 0 ⟨0, 1⟩ .checkpoint, .serialize 0 (mixedContext .rpcClient) .long (.int 7),
  .deserialize 0 (mixedContext .p2p) .long Magic.mark, .schemeFor 0 ⟨1, 0⟩ .storage]

theorem schemeFor_of_serialize_mixed :
    let st := EnvironmentCall.leaveAll mixedCalls (runOn (newEnvironment [2, 0, 1, 0] []) mixedStore).2
    (runOn (schemeFor 0 ⟨0, 1⟩ .p2p) st).1 = .error (.error (.noSchemeFor ⟨0, 1⟩ .p2p)) ∧
    ∃ b st', runOn (serialize 0 (mixedContext .p2p) .long (.int 7)) st = (.ok b, st') ∧
      Magic.ofPrefix? b = some ⟨1, 0⟩ ∧ (runOn (schemeFor 0 ⟨1, 0⟩ .p2p) st').1 = .ok 2 := by
  intro st
  obtain ⟨hreads, hwrites⟩ := schemeFor_of_serialize mixedStore [2, 0, 1, 0] [] mixedCalls
  have hok : (runOn (serialize 0 (mixedContext .p2p) .long (.int 7)) st).1.isOk = true := by
    decide +kernel
  refine ⟨hreads _ _, ?_⟩
  rcases hrun : runOn (serialize 0 (mixedContext .p2p) .long (.int 7)) st with ⟨_ | b, st'⟩
  · rw [hrun] at hok
    cases hok
  · obtain ⟨-, hmagic, k, hfirst, -, hlater⟩ := hwrites _ _ _ _ _ hrun
    obtain rfl : 2 = k := Option.some.inj hfirst
    exact ⟨b, st', rfl, hmagic, hlater []⟩

end Call

end DurableFlow
