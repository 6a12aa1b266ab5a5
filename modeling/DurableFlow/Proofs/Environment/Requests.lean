import DurableFlow.Proofs.Environment.Factories

/-!
# Requests for factories

A request makes the factory for its policy and its scope unless there is one, and runs registration on it.
Whatever comes of that, nothing changes but factories, policies and the log, and of the factories of a
scheme only the requested one. What registration comes to depends on what is bound before, and not on the
names that are admitted.
-/

namespace DurableFlow

namespace Draft

variable {α β : Type} {x : Drafting α} {f : α → Drafting β}

/-- What the step comes to and what it leaves bound depends on what is bound before and on nothing else. -/
def Blind (x : Drafting α) : Prop :=
  ∀ d d' : Draft, d.registry = d'.registry →
    (runOn x d).1 = (runOn x d').1 ∧ (runOn x d).2.registry = (runOn x d').2.registry

theorem Blind.bind (hx : Blind x) (hf : ∀ a, Blind (f a)) : Blind (x >>= f) := by
  intro d d' hd
  obtain ⟨hout, hregistry⟩ := hx d d' hd
  rw [runOn_bind, runOn_bind]
  rcases hrun : runOn x d with ⟨r, t⟩
  rcases hrun' : runOn x d' with ⟨r', t'⟩
  rw [hrun, hrun'] at hout hregistry
  obtain rfl : r = r' := hout
  cases r with
  | error e => exact ⟨rfl, hregistry⟩
  | ok a => exact hf a t t' hregistry

theorem blind_forM {f : α → Drafting PUnit} (hf : ∀ a, Blind (f a)) (as : List α) :
    Blind (as.forM f) := by
  induction as with
  | nil => exact fun d d' hd => ⟨rfl, hd⟩
  | cons a as ih =>
    rw [List.forM_eq_forM, List.forM_cons]
    exact (hf a).bind fun _ => ih

theorem blind_add (replace : Bool) (s : Serializer) : Blind (add replace s) := by
  intro d d' hd
  rw [runOn_add, runOn_add, hd]
  cases d'.registry.add replace s with
  | error e => exact ⟨rfl, hd⟩
  | ok p => exact ⟨rfl, rfl⟩

/-- Names are refused for what a list says, and not for what is admitted already. -/
theorem blind_allowAll (ws : List (String × List String)) : Blind (allowAll ws) := by
  induction ws with
  | nil => exact fun d d' hd => ⟨rfl, hd⟩
  | cons w ws ih =>
    intro d d' hd
    rw [runOn_allowAll_cons, runOn_allowAll_cons]
    by_cases hw : Policy.repeated w.2 = []
    · rw [if_pos hw, if_pos hw]
      exact ih _ _ hd
    · rw [if_neg hw, if_neg hw]
      exact ⟨rfl, hd⟩

theorem blind_contribute (contributor : String) (s : Serializer) : Blind (contribute contributor s) := by
  intro d d' hd
  obtain ⟨log, hlog⟩ := runOn_contribute contributor s d
  obtain ⟨log', hlog'⟩ := runOn_contribute contributor s d'
  rw [hlog, hlog', hd]
  exact ⟨rfl, rfl⟩

end Draft

theorem Plugins.blind_apply (p : Plugins) (key : Serializer) : Draft.Blind (p.apply key) := by
  rw [apply_eq]
  refine (Draft.blind_forM (Draft.blind_add false) _).bind fun _ => ?_
  refine (Draft.blind_allowAll _).bind fun _ => ?_
  refine Draft.blind_forM ?_ p.serializers
  rintro ⟨contributor, s⟩
  exact Draft.blind_contribute contributor s

/-- What registration comes to and what it leaves bound, given what is bound before. -/
def Plugins.registration (p : Plugins) (key : Serializer) (r : Registry) :
    Except SerializationError Unit × Registry :=
  ((runOn (p.apply key) ⟨r, .new 0 false, []⟩).1, (runOn (p.apply key) ⟨r, .new 0 false, []⟩).2.registry)

theorem Plugins.runOn_apply (p : Plugins) (key : Serializer) (d : Draft) :
    (runOn (p.apply key) d).1 = (p.registration key d.registry).1 ∧
      (runOn (p.apply key) d).2.registry = (p.registration key d.registry).2 :=
  p.blind_apply key d _ rfl

namespace Store

variable {st st' : Store} {k f : Nat} {key : Nat × Nat} {r : Registry}

/-- Every factory that a scheme keeps for a policy and a scope is one of these. -/
structure Keyed (st : Store) (k : Nat) : Prop where
  bound : k < st.schemes.length
  cached : ∀ key f, (st.scheme k).factories.get? key = some f →
    f < st.factories.length ∧ (st.factory f).key = key

/-- What is bound in the factory of a scheme for a policy and a scope, if there is one. -/
def bindings? (st : Store) (k : Nat) (key : Nat × Nat) : Option Registry :=
  ((st.scheme k).factories.get? key).map fun f => (st.factory f).registry

/-- The factory of a scheme for a policy and a scope, with the store in which there is one. -/
def claimed (st : Store) (k : Nat) (key : Nat × Nat) : Nat × Store :=
  match (st.scheme k).factories.get? key with
  | some f => (f, st)
  | none => (st.factories.length, st.withFactory k key)

theorem claimed_of_cached (h : (st.scheme k).factories.get? key = some f) :
    st.claimed k key = (f, st) := by
  rw [claimed, h]

theorem claimed_of_not_cached (h : (st.scheme k).factories.get? key = none) :
    st.claimed k key = (st.factories.length, st.withFactory k key) := by
  rw [claimed, h]

/-- The store with what a registration has made of a factory and its policy. -/
def drafted (st : Store) (f : Nat) (d : Draft) : Store :=
  { (st.setFactory f { st.factory f with registry := d.registry }).setPolicy (st.factory f).policy
      d.policy with log := st.log ++ d.log }

theorem alike_claimed (st : Store) (k : Nat) (key : Nat × Nat) : st.Alike (st.claimed k key).2 := by
  cases hget : (st.scheme k).factories.get? key with
  | some f =>
    rw [claimed_of_cached hget]
    exact .refl st
  | none =>
    rw [claimed_of_not_cached hget]
    by_cases hk : k < st.schemes.length
    · exact alike_withFactory hk key
    · have hset : (st.withFactory k key).schemes = st.schemes :=
        List.set_eq_of_length_le (Nat.le_of_not_lt hk)
      refine ⟨rfl, rfl, rfl, rfl, congrArg List.length hset, fun k' => ⟨(st.scheme k').factories, ?_⟩⟩
      rw [scheme, hset]
      rfl

theorem alike_drafted (st : Store) (f : Nat) (d : Draft) : st.Alike (st.drafted f d) :=
  ⟨rfl, rfl, rfl, rfl, rfl, fun _ => ⟨_, rfl⟩⟩

theorem factory_drafted (hf : f < st.factories.length) (d : Draft) (g : Nat) :
    (st.drafted f d).factory g =
      if f = g then { st.factory f with registry := d.registry } else st.factory g :=
  factory_setFactory hf _ _

/-- What becomes of the factories of a scheme when the one for a policy and a scope is requested: this is
the factory, with these bindings, and the others are left alone. -/
structure Served (st : Store) (k : Nat) (key : Nat × Nat) (f : Nat) (r : Registry) (st' : Store) :
    Prop where
  keyed : st'.Keyed k
  cached : (st'.scheme k).factories.get? key = some f
  bound : (st'.factory f).registry = r
  keeps : ∀ key' g, (st.scheme k).factories.get? key' = some g →
    (st'.scheme k).factories.get? key' = some g
  others : ∀ key', key' ≠ key → st'.bindings? k key' = st.bindings? k key'

theorem Served.bindings? (h : st.Served k key f r st') : st'.bindings? k key = some r := by
  rw [Store.bindings?, h.cached, Option.map_some, h.bound]

theorem Keyed.claimed (hk : st.Keyed k) (key : Nat × Nat) :
    st.Served k key (st.claimed k key).1 ((st.bindings? k key).getD .empty) (st.claimed k key).2 := by
  rw [Store.bindings?]
  cases hget : (st.scheme k).factories.get? key with
  | some f =>
    rw [claimed_of_cached hget]
    exact ⟨hk, hget, rfl, fun _ _ hg => hg, fun _ _ => rfl⟩
  | none =>
    rw [claimed_of_not_cached hget]
    have hscheme := scheme_withFactory hk.bound key k
    rw [if_pos rfl] at hscheme
    have hcache : ∀ key', ((st.withFactory k key).scheme k).factories.get? key' =
        if key = key' then some st.factories.length else (st.scheme k).factories.get? key' := by
      intro key'
      rw [hscheme]
      exact Bindings.get?_set _ _ _ _
    have hnew : (st.withFactory k key).factory st.factories.length = ⟨key.1, key.2, .empty⟩ :=
      getD_concat_length _ _ _
    have hold : ∀ g, g < st.factories.length → (st.withFactory k key).factory g = st.factory g :=
      fun g hg => getD_append_left hg _ _
    have hlonger : ∀ g, g ≤ st.factories.length → g < (st.withFactory k key).factories.length := by
      have hlength := st.length_withFactory k key
      omega
    refine ⟨⟨?_, fun key' g hg => ?_⟩, ?_, ?_, fun key' g hg => ?_, fun key' hne => ?_⟩
    · exact Nat.lt_of_lt_of_eq hk.bound List.length_set.symm
    · rw [hcache] at hg
      by_cases hkey : key = key'
      · rw [if_pos hkey] at hg
        obtain rfl := Option.some.inj hg
        rw [hnew]
        exact ⟨hlonger _ (Nat.le_refl _), hkey⟩
      · rw [if_neg hkey] at hg
        obtain ⟨hlt, hfactory⟩ := hk.cached key' g hg
        rw [hold g hlt]
        exact ⟨hlonger g (Nat.le_of_lt hlt), hfactory⟩
    · rw [hcache, if_pos rfl]
    · rw [hnew]
      rfl
    · rw [hcache]
      by_cases hkey : key = key'
      · rw [← hkey, hget] at hg
        cases hg
      · rw [if_neg hkey, hg]
    · rw [Store.bindings?, Store.bindings?, hcache, if_neg hne.symm]
      cases hg : (st.scheme k).factories.get? key' with
      | none => rfl
      | some g =>
        have hsame := hold g (hk.cached key' g hg).1
        rw [Option.map_some, Option.map_some, hsame]

theorem Served.drafted (h : st.Served k key f r st') (d : Draft) :
    st.Served k key f d.registry (st'.drafted f d) := by
  obtain ⟨hlt, hkey⟩ := h.keyed.cached key f h.cached
  have hfactory := factory_drafted hlt d
  refine ⟨⟨h.keyed.bound, fun key' g hg => ?_⟩, h.cached, ?_, h.keeps, fun key' hne => ?_⟩
  · obtain ⟨hlt', hkey'⟩ := h.keyed.cached key' g hg
    refine ⟨Nat.lt_of_lt_of_eq hlt' List.length_set.symm, ?_⟩
    rw [hfactory]
    by_cases he : f = g
    · rw [if_pos he]
      subst he
      exact hkey'
    · rw [if_neg he]
      exact hkey'
  · rw [hfactory, if_pos rfl]
  · -- a factory that is kept for something else is another one
    rw [← h.others key' hne]
    change (((st'.scheme k).factories.get? key').map fun g => ((st'.drafted f d).factory g).registry) = _
    rw [Store.bindings?]
    cases hg : (st'.scheme k).factories.get? key' with
    | none => rfl
    | some g =>
      have hother : f ≠ g := by
        rintro rfl
        exact hne ((h.keyed.cached key' f hg).2.symm.trans hkey)
      rw [Option.map_some, Option.map_some, hfactory, if_neg hother]

end Store

namespace Call

variable {st st' : Store} {k f : Nat} {c : Context}

theorem runOn_cachedFactory_eq (k : Nat) (key : Nat × Nat) (st : Store) :
    runOn (cachedFactory k key) st = (.ok (st.claimed k key).1, (st.claimed k key).2) := by
  rw [cachedFactory, runOn_get_bind]
  cases hget : (st.scheme k).factories.get? key with
  | some f =>
    rw [Store.claimed_of_cached hget]
    simp only [hget]
    rfl
  | none =>
    rw [Store.claimed_of_not_cached hget]
    simp only [hget]
    rfl

theorem runOn_factoryFor_of_refusal {e : SerializationError}
    (hu : (st.scheme k).kind.refusal? c.useCase = some e) :
    runOn (factoryFor k c) st = (.error (.error e), st) := by
  rw [factoryFor, runOn_get_bind]
  simp only [hu]
  rfl

theorem runOn_factoryFor {x : Except SerializationError Unit} {d : Draft}
    (hu : (st.scheme k).kind.refusal? c.useCase = none) (hf : st.claimed k c.key = (f, st'))
    (happly : runOn ((st'.pluginsOf (st.scheme k).plugins).apply (st.scheme k).publicKey)
      ⟨(st'.factory f).registry, st'.policy (st'.factory f).policy, []⟩ = (x, d)) :
    runOn (factoryFor k c) st = ((x.map fun _ => f).mapError .error, st'.drafted f d) := by
  have hcached : runOn (cachedFactory k c.key) st = (.ok f, st') := by
    rw [runOn_cachedFactory_eq, hf]
  rw [factoryFor_eq hu, runOn_bind_ok hcached, runOn_get_bind, runOn_bind, runOn_draft rfl happly]
  cases x with
  | error e => rfl
  | ok a => rfl

/-- Whatever comes of a request, nothing differs but factories, policies and the log. -/
theorem alike_factoryFor (k : Nat) (c : Context) (st : Store) :
    st.Alike (runOn (factoryFor k c) st).2 := by
  cases hu : (st.scheme k).kind.refusal? c.useCase with
  | some e =>
    rw [runOn_factoryFor_of_refusal hu]
    exact .refl st
  | none =>
    have hclaimed := st.alike_claimed k c.key
    rcases hf : st.claimed k c.key with ⟨f, st'⟩
    rw [hf] at hclaimed
    rcases happly : runOn ((st'.pluginsOf (st.scheme k).plugins).apply (st.scheme k).publicKey)
      ⟨(st'.factory f).registry, st'.policy (st'.factory f).policy, []⟩ with ⟨x, d⟩
    rw [runOn_factoryFor hu hf happly]
    exact hclaimed.trans (st'.alike_drafted f d)

theorem alike_factoryFor_bind {α : Type} {g : Nat → Call α}
    (hg : ∀ f st, (runOn (g f) st).2 = st) (k : Nat) (c : Context) (st : Store) :
    st.Alike (runOn (factoryFor k c >>= g) st).2 := by
  have halike := alike_factoryFor k c st
  rcases hf : runOn (factoryFor k c) st with ⟨e | f, st'⟩
  · rw [hf] at halike
    rw [runOn_bind_error hf]
    exact halike
  · rw [hf] at halike
    rw [runOn_bind_ok hf, hg]
    exact halike

theorem served_factoryFor (hk : st.Keyed k) (hu : (st.scheme k).kind.refusal? c.useCase = none) :
    let made := (st.pluginsOf (st.scheme k).plugins).registration (st.scheme k).publicKey
      ((st.bindings? k c.key).getD .empty)
    ∃ f, (runOn (factoryFor k c) st).1 = (made.1.map fun _ => f).mapError .error ∧
      st.Served k c.key f made.2 (runOn (factoryFor k c) st).2 := by
  intro made
  have hclaimed := hk.claimed c.key
  have hplugins : (st.claimed k c.key).2.pluginsOf (st.scheme k).plugins =
      st.pluginsOf (st.scheme k).plugins := by
    rw [Store.pluginsOf, (st.alike_claimed k c.key).plugins]
    rfl
  rcases hf : st.claimed k c.key with ⟨f, st'⟩
  rw [hf] at hclaimed hplugins
  have hmade := Plugins.runOn_apply (st.pluginsOf (st.scheme k).plugins) (st.scheme k).publicKey
    ⟨(st'.factory f).registry, st'.policy (st'.factory f).policy, []⟩
  rcases happly : runOn ((st'.pluginsOf (st.scheme k).plugins).apply (st.scheme k).publicKey)
    ⟨(st'.factory f).registry, st'.policy (st'.factory f).policy, []⟩ with ⟨x, d⟩
  rw [← hplugins, happly, hclaimed.bound, hplugins] at hmade
  obtain ⟨hx, hd⟩ := hmade
  obtain rfl : x = made.1 := hx
  rw [runOn_factoryFor hu hf happly]
  have hserved := hclaimed.drafted d
  rw [hd] at hserved
  exact ⟨f, rfl, hserved⟩

end Call

end DurableFlow
