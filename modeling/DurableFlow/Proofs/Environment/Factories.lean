import DurableFlow.Environment.Scheme
import DurableFlow.Proofs.Environment.Calls
import DurableFlow.Proofs.Environment.Registration
import DurableFlow.Proofs.Serializer.Standard

/-!
# Factories without contributions

Where no serializer is contributed, the first request for a factory binds the serializers of the library
alone, and a further request gives the same factory and leaves the whole store as it is.
-/

namespace DurableFlow

namespace Registry

/-- All serializers of the library are bound and nothing else, or nothing at all. -/
inductive Pristine : Registry → Prop
  | empty : Pristine .empty
  | standard : Pristine .standard

theorem not_conflicts_standard {s : Serializer} (h : s ∈ library) : standard.conflicts s = false := by
  rw [conflicts, (bound_of_mem h).2]
  simp

end Registry

namespace Draft

variable {d : Draft}

theorem runOn_addAll_of_fresh {ss : List Serializer} (h : d.registry.Fresh ss) :
    runOn (ss.forM (add false)) d =
      (.ok (), { d with registry := ss.foldl Registry.bind d.registry }) := by
  induction ss generalizing d with
  | nil => rfl
  | cons s ss ih =>
    have hs : runOn (add false s) d = (.ok (), { d with registry := d.registry.bind s }) := by
      rw [runOn_add, h.add]
      simp only [notes, List.append_nil]
    rw [runOn_forM_cons, hs]
    exact ih h.tail

theorem runOn_addAll_again {ss : List Serializer}
    (hb : ∀ s ∈ ss, (d.registry.byType.get? s.target).isSome)
    (hc : ∀ s ∈ ss, d.registry.conflicts s = false) : runOn (ss.forM (add false)) d = (.ok (), d) := by
  have hfind : ss.find? d.registry.conflicts = none := by
    rw [List.find?_eq_none]
    intro s hs
    rw [hc s hs]
    exact Bool.false_ne_true
  rw [runOn_addAll_of_bound ss hb, hfind]

theorem runOn_addAll_library (h : d.registry.Pristine) :
    runOn (Registry.library.forM (add false)) d = (.ok (), { d with registry := .standard }) := by
  obtain ⟨r, policy, log⟩ := d
  cases h with
  | empty => exact runOn_addAll_of_fresh Registry.fresh_library
  | standard =>
    exact runOn_addAll_again (fun s hs => Option.isSome_of_eq_some (Registry.bound_of_mem hs).1)
      fun s hs => Registry.not_conflicts_standard hs

end Draft

theorem Plugins.runOn_apply_of_pristine {p : Plugins} {d : Draft} (hp : p.serializers = [])
    (hd : d.registry.Pristine) (hw : ∀ w ∈ p.whitelists, Policy.repeated w.2 = []) :
    runOn (p.apply (Builtin.serializer .publicKey)) d =
      (.ok (), ⟨.standard, d.policy.joinAll p.whitelists, d.log⟩) := by
  have hdefaults : runOn ((defaults (Builtin.serializer .publicKey)).forM (Draft.add false)) d = _ :=
    Draft.runOn_addAll_library hd
  rw [apply_eq, hp, runOn_bind_ok hdefaults, runOn_bind_ok (Draft.runOn_allowAll _ hw _)]
  rfl

namespace Store

variable {st st' st'' : Store} {k f : Nat} {key : Nat × Nat}

theorem set_getD {α : Type} (xs : List α) (i : Nat) (x : α) : xs.set i (xs.getD i x) = xs := by
  by_cases hi : i < xs.length
  · rw [← List.getElem_eq_getD (h := hi) x, List.set_getElem_self]
  · exact List.set_eq_of_length_le (Nat.le_of_not_lt hi)

theorem getD_set {α : Type} {xs : List α} {i : Nat} (hi : i < xs.length) (j : Nat) (a x : α) :
    (xs.set i a).getD j x = if i = j then a else xs.getD j x := by
  rw [List.getD_eq_getElem?_getD, List.getElem?_set, List.getD_eq_getElem?_getD]
  split_ifs <;> rfl

theorem getD_concat_length {α : Type} (xs : List α) (a x : α) : (xs ++ [a]).getD xs.length x = a := by
  rw [List.getD_eq_getElem?_getD, List.getElem?_concat_length, Option.getD_some]

theorem getD_append_left {α : Type} {xs : List α} {i : Nat} (hi : i < xs.length) (ys : List α) (x : α) :
    (xs ++ ys).getD i x = xs.getD i x := by
  rw [List.getD_eq_getElem?_getD, List.getElem?_append_left hi, ← List.getD_eq_getElem?_getD]

theorem setFactory_self (st : Store) (f : Nat) : st.setFactory f (st.factory f) = st := by
  rw [setFactory, factory, set_getD]

theorem factory_setFactory (hf : f < st.factories.length) (x : Factory) (f' : Nat) :
    (st.setFactory f x).factory f' = if f = f' then x else st.factory f' :=
  getD_set hf _ _ _

theorem scheme_setScheme (hk : k < st.schemes.length) (x : Scheme) (k' : Nat) :
    (st.setScheme k x).scheme k' = if k = k' then x else st.scheme k' :=
  getD_set hk _ _ _

theorem setPolicy_joinAll (st : Store) (id : Nat) (ws : List (String × List String)) :
    let st' := st.setPolicy id ((st.policy id).joinAll ws)
    st'.setPolicy id ((st'.policy id).joinAll ws) = st' := by
  intro st'
  by_cases hid : id - 1 < st.policies.length
  · have hpolicy : st'.policy id = (st.policy id).joinAll ws := (getD_set hid _ _ _).trans (if_pos rfl)
    rw [hpolicy, Policy.joinAll_joinAll]
    exact congrArg (fun ps => { st with policies := ps }) (List.set_set _)
  · have hset : ∀ p, st.setPolicy id p = st := fun p =>
      congrArg (fun ps => { st with policies := ps }) (List.set_eq_of_length_le (Nat.le_of_not_lt hid))
    have hst : st' = st := hset _
    rw [hst, hset]

/-- Nothing differs but the factories, the policies and the log. -/
structure Alike (st st' : Store) : Prop where
  natives : st'.natives = st.natives
  scopes : st'.scopes = st.scopes
  plugins : st'.plugins = st.plugins
  environments : st'.environments = st.environments
  count : st'.schemes.length = st.schemes.length
  schemes : ∀ k, ∃ factories, st'.scheme k = { st.scheme k with factories := factories }

theorem Alike.refl (st : Store) : st.Alike st := ⟨rfl, rfl, rfl, rfl, rfl, fun _ => ⟨_, rfl⟩⟩

theorem Alike.trans (h : st.Alike st') (h' : st'.Alike st'') : st.Alike st'' where
  natives := h'.natives.trans h.natives
  scopes := h'.scopes.trans h.scopes
  plugins := h'.plugins.trans h.plugins
  environments := h'.environments.trans h.environments
  count := h'.count.trans h.count
  schemes k := by
    obtain ⟨fs, hfs⟩ := h.schemes k
    obtain ⟨fs', hfs'⟩ := h'.schemes k
    exact ⟨fs', by rw [hfs', hfs]⟩

/-- A factory for a policy and a scope with the serializers of the library alone, if with any. -/
def PristineAt (st : Store) (f : Nat) (key : Nat × Nat) : Prop :=
  f < st.factories.length ∧ ∃ r, r.Pristine ∧ st.factory f = ⟨key.1, key.2, r⟩

theorem PristineAt.setFactory {f' : Nat} {key' : Nat × Nat} (h : st.PristineAt f key)
    (h' : st.PristineAt f' key') :
    (st.setFactory f ⟨key.1, key.2, .standard⟩).PristineAt f' key' := by
  obtain ⟨hf, r, -, hr⟩ := h
  obtain ⟨hf', r', hpristine, hr'⟩ := h'
  refine ⟨by rwa [Store.setFactory, List.length_set], ?_⟩
  rw [factory_setFactory hf]
  split_ifs with he
  · rw [← he, hr] at hr'
    obtain ⟨hpolicy, hscope, -⟩ := Factory.mk.inj hr'
    exact ⟨.standard, .standard, by rw [hpolicy, hscope]⟩
  · exact ⟨r', hpristine, hr'⟩

def withFactory (st : Store) (k : Nat) (key : Nat × Nat) : Store :=
  setScheme { st with factories := st.factories ++ [⟨key.1, key.2, .empty⟩] } k
    { st.scheme k with factories := (st.scheme k).factories.set key st.factories.length }

theorem scheme_withFactory (hk : k < st.schemes.length) (key : Nat × Nat) (k' : Nat) :
    (st.withFactory k key).scheme k' = if k = k' then { st.scheme k with
      factories := (st.scheme k).factories.set key st.factories.length } else st.scheme k' :=
  scheme_setScheme hk _ _

theorem length_withFactory (st : Store) (k : Nat) (key : Nat × Nat) :
    (st.withFactory k key).factories.length = st.factories.length + 1 :=
  List.length_append

theorem factory_withFactory (st : Store) (k : Nat) (key : Nat × Nat) :
    (st.withFactory k key).PristineAt st.factories.length key := by
  have hlength := st.length_withFactory k key
  exact ⟨by omega, .empty, .empty, getD_concat_length _ _ _⟩

theorem PristineAt.withFactory {key' : Nat × Nat} (h : st.PristineAt f key') (k : Nat)
    (key : Nat × Nat) : (st.withFactory k key).PristineAt f key' := by
  obtain ⟨hf, r, hr, hfactory⟩ := h
  have hlength := st.length_withFactory k key
  exact ⟨by omega, r, hr, (getD_append_left hf _ _).trans hfactory⟩

theorem alike_withFactory (hk : k < st.schemes.length) (key : Nat × Nat) :
    st.Alike (st.withFactory k key) := by
  refine ⟨rfl, rfl, rfl, rfl, List.length_set, fun k' => ?_⟩
  rw [scheme_withFactory hk]
  split_ifs with he
  · subst he
    exact ⟨_, rfl⟩
  · exact ⟨_, rfl⟩

/-- The store with the serializers of the library in a factory and contributed names in its policy. -/
def registered (st : Store) (f : Nat) (key : Nat × Nat) (p : Plugins) : Store :=
  (st.setFactory f ⟨key.1, key.2, .standard⟩).setPolicy key.1 ((st.policy key.1).joinAll p.whitelists)

theorem alike_registered (st : Store) (f : Nat) (key : Nat × Nat) (p : Plugins) :
    st.Alike (st.registered f key p) := ⟨rfl, rfl, rfl, rfl, rfl, fun _ => ⟨_, rfl⟩⟩

/-- A scheme to which no serializer is contributed, with nothing else in its factories. -/
structure PlainScheme (st : Store) (k : Nat) : Prop where
  bound : k < st.schemes.length
  publicKey : (st.scheme k).publicKey = Builtin.serializer .publicKey
  contributions : (st.pluginsOf (st.scheme k).plugins).serializers = []
  cached : ∀ key f, (st.scheme k).factories.get? key = some f → st.PristineAt f key

theorem PlainScheme.of_alike (hk : st.PlainScheme k) (h : st.Alike st')
    (hcached : ∀ key f, (st'.scheme k).factories.get? key = some f → st'.PristineAt f key) :
    st'.PlainScheme k := by
  obtain ⟨fs, hscheme⟩ := h.schemes k
  refine ⟨by rw [h.count]; exact hk.bound, by rw [hscheme]; exact hk.publicKey, ?_, hcached⟩
  rw [hscheme, pluginsOf, h.plugins]
  exact hk.contributions

theorem PlainScheme.withFactory {k' : Nat} (hk : st.PlainScheme k) (hk' : st.PlainScheme k')
    (key : Nat × Nat) : (st.withFactory k key).PlainScheme k' := by
  refine hk'.of_alike (alike_withFactory hk.bound key) fun key' f hf => ?_
  rw [scheme_withFactory hk.bound] at hf
  split_ifs at hf with he
  · rw [Bindings.get?_set] at hf
    split_ifs at hf with hkey
    · obtain rfl := Option.some.inj hf
      exact hkey ▸ st.factory_withFactory k key
    · exact (hk.cached key' f hf).withFactory k key
  · exact (hk'.cached key' f hf).withFactory k key

theorem PlainScheme.registered (hk : st.PlainScheme k) (hf : st.PristineAt f key) (p : Plugins) :
    (st.registered f key p).PlainScheme k :=
  hk.of_alike (st.alike_registered f key p) fun key' f' hf' => hf.setFactory (hk.cached key' f' hf')

/-- The factory of a scheme for a policy and a scope is there and needs no further registration. -/
structure Provides (st : Store) (k : Nat) (key : Nat × Nat) (f : Nat) : Prop where
  publicKey : (st.scheme k).publicKey = Builtin.serializer .publicKey
  contributions : (st.pluginsOf (st.scheme k).plugins).serializers = []
  cached : (st.scheme k).factories.get? key = some f
  factory : st.factory f = ⟨key.1, key.2, .standard⟩
  names : ∀ w ∈ (st.pluginsOf (st.scheme k).plugins).whitelists, Policy.repeated w.2 = []
  admitted : st.setPolicy key.1
    ((st.policy key.1).joinAll (st.pluginsOf (st.scheme k).plugins).whitelists) = st

end Store

namespace Call

variable {st st₁ : Store} {k f : Nat} {key : Nat × Nat} {c : Context}

theorem runOn_draft {α : Type} {step : Drafting α} {x : Factory} {r : Except SerializationError α}
    {d : Draft} (hx : st.factory f = x)
    (hstep : runOn step ⟨x.registry, st.policy x.policy, []⟩ = (r, d)) :
    runOn (draft f step) st = (r.mapError .error,
      { (st.setFactory f { x with registry := d.registry }).setPolicy x.policy d.policy with
        log := st.log ++ d.log }) := by
  subst hx
  rw [draft, runOn_get_bind]
  change runOn (match runOn step ⟨(st.factory f).registry, st.policy (st.factory f).policy, []⟩ with
    | (outcome, d) => do
      set { (st.setFactory f { st.factory f with registry := d.registry }).setPolicy
        (st.factory f).policy d.policy with log := st.log ++ d.log }
      liftError outcome) st = _
  rw [hstep, runOn_bind_ok (runOn_set _ _), runOn_liftError]

theorem runOn_draft_of_pristine {p : Plugins} {r : Registry} (hp : p.serializers = [])
    (hx : st.factory f = ⟨key.1, key.2, r⟩) (hr : r.Pristine)
    (hw : ∀ w ∈ p.whitelists, Policy.repeated w.2 = []) :
    runOn (draft f (p.apply (Builtin.serializer .publicKey))) st =
      (.ok (), st.registered f key p) := by
  have happly := Plugins.runOn_apply_of_pristine (d := ⟨r, st.policy key.1, []⟩) hp hr hw
  rw [runOn_draft hx happly]
  simp only [List.append_nil]
  rfl

theorem runOn_cachedFactory (hk : st.PlainScheme k) (key : Nat × Nat) :
    ∃ f st', runOn (cachedFactory k key) st = (.ok f, st') ∧ st.Alike st' ∧
      (st'.scheme k).factories.get? key = some f ∧ st'.PristineAt f key ∧
      ∀ k', st.PlainScheme k' → st'.PlainScheme k' := by
  rw [cachedFactory, runOn_get_bind]
  cases hget : (st.scheme k).factories.get? key with
  | some f =>
    simp only [hget]
    exact ⟨f, st, rfl, .refl st, hget, hk.cached key f hget, fun _ hk' => hk'⟩
  | none =>
    simp only [hget]
    refine ⟨st.factories.length, st.withFactory k key, rfl, Store.alike_withFactory hk.bound key, ?_,
      st.factory_withFactory k key, fun k' hk' => hk.withFactory hk' key⟩
    rw [Store.scheme_withFactory hk.bound, if_pos rfl]
    exact Bindings.get?_set_self _ _ _

theorem factoryFor_eq {k : Nat} {c : Context} (hu : (st.scheme k).kind.refusal? c.useCase = none) :
    runOn (factoryFor k c) st = runOn (do
      let f ← cachedFactory k c.key
      draft f (((← get).pluginsOf (st.scheme k).plugins).apply (st.scheme k).publicKey)
      return f) st := by
  rw [factoryFor, runOn_get_bind]
  simp only [hu]

theorem refusal?_eq_none (h : runOn (factoryFor k c) st = (.ok f, st₁)) :
    (st.scheme k).kind.refusal? c.useCase = none := by
  cases hu : (st.scheme k).kind.refusal? c.useCase with
  | none => rfl
  | some e =>
    rw [factoryFor, runOn_get_bind] at h
    simp only [hu] at h
    cases h

/-- What a request for a factory has done. -/
theorem of_runOn_factoryFor (hk : st.PlainScheme k) (h : runOn (factoryFor k c) st = (.ok f, st₁)) :
    st.Alike st₁ ∧ st₁.Provides k c.key f ∧ ∀ k', st.PlainScheme k' → st₁.PlainScheme k' := by
  obtain ⟨f', st', hcached, halike, hget, hf', hplain⟩ := runOn_cachedFactory hk c.key
  rw [factoryFor_eq (refusal?_eq_none h), runOn_bind_ok hcached, runOn_get_bind, runOn_bind_eq_ok_iff] at h
  obtain ⟨⟨⟩, st'', hdraft, hpure⟩ := h
  obtain ⟨hf, rfl⟩ := Prod.mk.inj hpure
  obtain rfl := Except.ok.inj hf
  obtain ⟨hlt, r, hr, hfactory⟩ := hf'
  have hk' := hplain k hk
  have hshared : (st'.scheme k).plugins = (st.scheme k).plugins := by
    obtain ⟨fs, hscheme⟩ := halike.schemes k
    rw [hscheme]
  rw [← hshared, hk.publicKey] at hdraft
  have hnames : ∀ w ∈ (st'.pluginsOf (st'.scheme k).plugins).whitelists, Policy.repeated w.2 = [] := by
    rcases happly : runOn ((st'.pluginsOf (st'.scheme k).plugins).apply (Builtin.serializer .publicKey))
      ⟨r, st'.policy c.key.1, []⟩ with ⟨e | ⟨⟩, d⟩
    · rw [runOn_draft hfactory happly] at hdraft
      cases (Prod.mk.inj hdraft).1
    · exact (Plugins.of_runOn_apply happly).2.2.1
  rw [runOn_draft_of_pristine hk'.contributions hfactory hr hnames] at hdraft
  obtain ⟨-, rfl⟩ := Prod.mk.inj hdraft
  refine ⟨halike.trans (st'.alike_registered _ _ _), ?_, fun k' hk' =>
    (hplain k' hk').registered ⟨hlt, r, hr, hfactory⟩ _⟩
  exact {
    publicKey := hk'.publicKey
    contributions := hk'.contributions
    cached := hget
    factory := (Store.factory_setFactory hlt _ _).trans (if_pos rfl)
    names := hnames
    admitted := Store.setPolicy_joinAll _ _ _ }

theorem runOn_factoryFor_again (hf : st.Provides k c.key f)
    (hu : (st.scheme k).kind.refusal? c.useCase = none) :
    runOn (factoryFor k c) st = (.ok f, st) := by
  have hcached : runOn (cachedFactory k c.key) st = (.ok f, st) := by
    rw [cachedFactory, runOn_get_bind]
    simp only [hf.cached]
    rfl
  have hdraft := runOn_draft_of_pristine hf.contributions hf.factory .standard hf.names
  rw [Store.registered, ← hf.publicKey, ← hf.factory, Store.setFactory_self, hf.admitted] at hdraft
  rw [factoryFor_eq hu, runOn_bind_ok hcached, runOn_get_bind, runOn_bind_ok hdraft]
  rfl

end Call

end DurableFlow
