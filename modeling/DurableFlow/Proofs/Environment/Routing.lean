import DurableFlow.Environment.Routing
import DurableFlow.Proofs.Environment.Factories
import DurableFlow.Proofs.RoundTrip.Snapshot

/-!
# Environments for checkpoints

An environment to which no serializer is contributed, over a scope where no object type is in the way of
another one, is left such an environment by whatever is frozen and thawed with it.
-/

namespace DurableFlow

namespace SchemeKind

variable {k : SchemeKind}

theorem refusal?_checkpoint : k.refusal? .checkpoint = none ↔ k = .checkpoint := by
  cases k <;> simp [refusal?]

theorem accepts_checkpoint (k : SchemeKind) :
    k.accepts checkpoint.magic .checkpoint = decide (k.magic = checkpoint.magic) := by
  cases k <;> decide

end SchemeKind

namespace Store

variable {st st' : Store} {e k f i : Nat} {c : Context} {m : Magic}

/-- The scheme that writes envelopes with this magic. -/
def writer? (st : Store) (e : Nat) (m : Magic) : Option Nat :=
  (st.environment e).schemes.find? fun k => (st.scheme k).kind.magic = m

theorem magic_of_writer? (h : st.writer? e m = some k) : (st.scheme k).kind.magic = m := by
  simpa using List.find?_some h

/-- The place of the first scheme that reads checkpoints with this magic. -/
def reader? (st : Store) (e : Nat) (m : Magic) : Option Nat :=
  Call.firstAccepting st (st.environment e).schemes m .checkpoint

/-- The store with the choice of this place kept. -/
def remembering (st : Store) (e : Nat) (m : Magic) (i : Nat) : Store :=
  st.setEnvironment e { st.environment e with
    chosen := (st.environment e).chosen.set (m, .checkpoint) i }

theorem remembering_cases (st : Store) (e : Nat) (m : Magic) (i : Nat) :
    (st.remembering e m i).environment e = { st.environment e with
      chosen := (st.environment e).chosen.set (m, .checkpoint) i } ∨ st.remembering e m i = st := by
  by_cases he : e < st.environments.length
  · exact .inl ((getD_set he _ _ _).trans (if_pos rfl))
  · exact .inr (congrArg (fun es => { st with environments := es })
      (List.set_eq_of_length_le (Nat.le_of_not_lt he)))

theorem schemes_remembering (st : Store) (e : Nat) (m : Magic) (i : Nat) :
    ((st.remembering e m i).environment e).schemes = (st.environment e).schemes := by
  rcases st.remembering_cases e m i with h | h
  · rw [h]
  · rw [h]

/-- The place that is chosen for a magic and a use case, or that was chosen before. -/
def place? (st : Store) (e : Nat) (m : Magic) (u : UseCase) : Option Nat :=
  ((st.environment e).chosen.get? (m, u)).or
    (Call.firstAccepting st (st.environment e).schemes m u)

def keeping (st : Store) (e : Nat) (m : Magic) (u : UseCase) (i : Nat) : Store :=
  st.setEnvironment e { st.environment e with
    chosen := (st.environment e).chosen.set (m, u) i }

/-- An environment for checkpoints without contributed serializers, over a scope where no object type is
in the way of another one. A place that has been chosen before is the one that would be chosen. -/
structure KeepsCheckpoints (st : Store) (e : Nat) (c : Context) : Prop where
  context : (st.environment e).contexts.get? .checkpoint = some c
  useCase : c.useCase = .checkpoint
  plain : ∀ k ∈ (st.environment e).schemes, (st.scheme k).kind = .checkpoint → st.PlainScheme k
  chosen : ∀ m i, (st.environment e).chosen.get? (m, .checkpoint) = some i → st.reader? e m = some i
  distinct : (st.scope c.scope).Distinct
  genuine : (st.scope c.scope).Genuine

namespace Alike

theorem environment_eq (h : st.Alike st') (e : Nat) : st'.environment e = st.environment e := by
  rw [environment, h.environments]
  rfl

theorem scope_eq (h : st.Alike st') (id : Nat) : st'.scope id = st.scope id := by
  rw [scope, h.scopes]
  rfl

theorem kind_eq (h : st.Alike st') (k : Nat) : (st'.scheme k).kind = (st.scheme k).kind := by
  obtain ⟨fs, hfs⟩ := h.schemes k
  rw [hfs]

theorem writer?_eq (h : st.Alike st') (e : Nat) (m : Magic) : st'.writer? e m = st.writer? e m := by
  simp only [writer?, h.environment_eq, h.kind_eq]

theorem reader?_eq (h : st.Alike st') (e : Nat) (m : Magic) : st'.reader? e m = st.reader? e m := by
  simp only [reader?, Call.firstAccepting, h.environment_eq, h.kind_eq]

end Alike

namespace KeepsCheckpoints

theorem of_alike (he : st.KeepsCheckpoints e c) (h : st.Alike st')
    (hplain : ∀ k, st.PlainScheme k → st'.PlainScheme k) : st'.KeepsCheckpoints e c where
  context := by rw [h.environment_eq, he.context]
  useCase := he.useCase
  plain k hk hkind := by
    rw [h.environment_eq] at hk
    rw [h.kind_eq] at hkind
    exact hplain k (he.plain k hk hkind)
  chosen m i hi := by
    rw [h.environment_eq] at hi
    rw [h.reader?_eq, he.chosen m i hi]
  distinct := by rw [h.scope_eq]; exact he.distinct
  genuine := by rw [h.scope_eq]; exact he.genuine

theorem remembering (he : st.KeepsCheckpoints e c) (hi : st.reader? e m = some i) :
    (st.remembering e m i).KeepsCheckpoints e c := by
  rcases st.remembering_cases e m i with h | h
  · have hreader : ∀ m', (st.remembering e m i).reader? e m' = st.reader? e m' := by
      intro m'
      rw [reader?, h]
      rfl
    refine ⟨?_, he.useCase, fun k hk hkind => ?_, fun m' j hj => ?_, he.distinct, he.genuine⟩
    · rw [h]
      exact he.context
    · rw [h] at hk
      have hplain := he.plain k hk hkind
      exact ⟨hplain.bound, hplain.publicKey, hplain.contributions, hplain.cached⟩
    · rw [hreader]
      rw [h, Bindings.get?_set] at hj
      split_ifs at hj with hm
      · obtain ⟨rfl, -⟩ := Prod.mk.inj hm
        rw [hi, Option.some.inj hj]
      · exact he.chosen m' j hj
  · rw [h]
    exact he

end KeepsCheckpoints

end Store

namespace Call

variable {st st₁ : Store} {e k f : Nat} {c : Context} {m : Magic} {s : Snapshot} {b : Bytes}

theorem runOn_checkpointContextOf (h : (st.environment e).contexts.get? .checkpoint = some c) :
    runOn (checkpointContextOf e) st = (.ok c, st) := by
  have hcontext : runOn (context? e .checkpoint) st = (.ok (some c), st) := by
    rw [context?, runOn_get_bind, h]
    rfl
  rw [checkpointContextOf, runOn_bind_ok hcontext]
  rfl

theorem runOn_serialize (e : Nat) (c : Context) (t : Ty) (v : Value) (st : Store) :
    runOn (serialize e c t v) st = match st.writer? e c.magic with
      | some k => runOn (serializeBy k c t v) st
      | none => (.error (.error (.noSchemeFor c.magic c.useCase)), st) := by
  rw [serialize, runOn_get_bind]
  change runOn (match st.writer? e c.magic with
    | some k => serializeBy k c t v
    | none => fail (.noSchemeFor c.magic c.useCase)) st = _
  cases st.writer? e c.magic <;> rfl

theorem runOn_schemeFor_place (e : Nat) (m : Magic) (u : UseCase) (st : Store) :
    ∃ st', runOn (schemeFor e m u) st =
        (match (st.place? e m u).bind ((st.environment e).schemes[·]?) with
          | some k => .ok k
          | none => .error (.error (.noSchemeFor m u)), st') ∧
      (st' = st ∨ ∃ i, firstAccepting st (st.environment e).schemes m u = some i ∧
        st' = st.keeping e m u i) := by
  rw [schemeFor, runOn_get_bind, Store.place?]
  cases hchosen : (st.environment e).chosen.get? (m, u) with
  | some i =>
    refine ⟨st, ?_, .inl rfl⟩
    simp only [hchosen, pure_bind, Option.some_or, Option.bind_some]
    cases (st.environment e).schemes[i]? <;> rfl
  | none =>
    cases hfirst : firstAccepting st (st.environment e).schemes m u with
    | none =>
      refine ⟨st, ?_, .inl rfl⟩
      simp only [hchosen, hfirst]
      rfl
    | some i =>
      refine ⟨st.keeping e m u i, ?_, .inr ⟨i, rfl, rfl⟩⟩
      simp only [hchosen, hfirst, pure_bind, Option.none_or, Option.bind_some]
      cases (st.environment e).schemes[i]? <;> rfl

theorem runOn_schemeFor (he : st.KeepsCheckpoints e c) (m : Magic) :
    ∃ st', runOn (schemeFor e m .checkpoint) st =
        (match (st.reader? e m).bind ((st.environment e).schemes[·]?) with
          | some k => .ok k
          | none => .error (.error (.noSchemeFor m .checkpoint)), st') ∧
      (st' = st ∨ ∃ i, st.reader? e m = some i ∧ st' = st.remembering e m i) := by
  have hplace : st.place? e m .checkpoint = st.reader? e m := by
    rw [Store.place?]
    cases hchosen : (st.environment e).chosen.get? (m, .checkpoint) with
    | none => rfl
    | some i =>
      rw [he.chosen m i hchosen]
      rfl
  obtain ⟨st', hrun, hcases⟩ := runOn_schemeFor_place e m .checkpoint st
  rw [hplace] at hrun
  exact ⟨st', hrun, hcases⟩

theorem keepsCheckpoints_of_factoryFor (he : st.KeepsCheckpoints e c)
    (hk : k ∈ (st.environment e).schemes) (h : runOn (factoryFor k c) st = (.ok f, st₁)) :
    (st.scheme k).kind = .checkpoint ∧ st.Alike st₁ ∧ st₁.Provides k c.key f ∧
      st₁.KeepsCheckpoints e c := by
  have hkind : (st.scheme k).kind = .checkpoint := by
    rw [← SchemeKind.refusal?_checkpoint, ← he.useCase]
    exact refusal?_eq_none h
  obtain ⟨halike, hprovides, hplain⟩ := of_runOn_factoryFor (he.plain k hk hkind) h
  exact ⟨hkind, halike, hprovides, he.of_alike halike hplain⟩

theorem of_runOn_freeze (he : st.KeepsCheckpoints e c) (h : runOn (freeze e s) st = (.ok b, st₁)) :
    ∃ k f, st.writer? e c.magic = some k ∧ (st.scheme k).kind = .checkpoint ∧ st.Alike st₁ ∧
      st₁.Provides k c.key f ∧ st₁.KeepsCheckpoints e c ∧
      (st₁.setting f).serialize c.magic Snapshot.type s.toValue = .ok b := by
  rw [freeze, checkpointSerialize, runOn_bind_ok (runOn_checkpointContextOf he.context),
    runOn_serialize] at h
  cases hk : st.writer? e c.magic with
  | none =>
    rw [hk] at h
    cases h
  | some k =>
    simp only [hk] at h
    rw [serializeBy, runOn_bind_eq_ok_iff] at h
    obtain ⟨f, st', hf, h⟩ := h
    rw [runOn_get_bind, runOn_serializeWith] at h
    obtain ⟨hb, rfl⟩ := Prod.mk.inj h
    obtain ⟨hkind, halike, hprovides, he'⟩ :=
      keepsCheckpoints_of_factoryFor he (List.mem_of_find?_eq_some hk) hf
    rw [halike.kind_eq, Store.magic_of_writer? hk] at hb
    exact ⟨k, f, rfl, hkind, halike, hprovides, he', hb⟩

/-- Freezing leaves an environment for checkpoints what it is. -/
theorem keepsCheckpoints_of_freeze (he : st.KeepsCheckpoints e c)
    (h : runOn (freeze e s) st = (.ok b, st₁)) : st₁.KeepsCheckpoints e c := by
  obtain ⟨k, f, -, -, -, -, he', -⟩ := of_runOn_freeze he h
  exact he'

theorem of_runOn_schemeFor (he : st.KeepsCheckpoints e c)
    (h : runOn (schemeFor e m .checkpoint) st = (.ok k, st₁)) :
    k ∈ (st₁.environment e).schemes ∧ st₁.KeepsCheckpoints e c := by
  obtain ⟨st', hscheme, hcases⟩ := runOn_schemeFor he m
  obtain ⟨hplace, rfl⟩ := Prod.mk.inj (hscheme.symm.trans h)
  have hmem : k ∈ (st.environment e).schemes := by
    cases hfound : (st.reader? e m).bind ((st.environment e).schemes[·]?) with
    | none =>
      rw [hfound] at hplace
      cases hplace
    | some k' =>
      rw [hfound] at hplace
      obtain rfl := Except.ok.inj hplace
      obtain ⟨i, -, hi⟩ := Option.bind_eq_some_iff.1 hfound
      exact List.mem_of_getElem? hi
  rcases hcases with rfl | ⟨i, hi, rfl⟩
  · exact ⟨hmem, he⟩
  · rw [st.schemes_remembering]
    exact ⟨hmem, he.remembering hi⟩

theorem of_runOn_thaw (he : st.KeepsCheckpoints e c) (h : runOn (thaw e b) st = (.ok s, st₁)) :
    ∃ m k st₂ f, runOn (schemeFor e m .checkpoint) st = (.ok k, st₂) ∧
      runOn (factoryFor k c) st₂ = (.ok f, st₁) := by
  rw [thaw, runOn_bind_ok (runOn_checkpointContextOf he.context), thawWith, runOn_bind_eq_ok_iff] at h
  obtain ⟨v, st', hv, h⟩ := h
  have hst : st' = st₁ := by
    cases hs : Snapshot.ofValue? v with
    | none =>
      rw [hs] at h
      cases h
    | some s' =>
      rw [hs] at h
      exact (Prod.mk.inj h).2
  subst hst
  rw [deserialize] at hv
  cases hm : Magic.ofPrefix? b with
  | none =>
    rw [hm] at hv
    cases hv
  | some m =>
    simp only [hm] at hv
    rw [he.useCase, runOn_bind_eq_ok_iff] at hv
    obtain ⟨k, st₂, hk, hv⟩ := hv
    rw [deserializeBy, runOn_bind_eq_ok_iff] at hv
    obtain ⟨f, st₃, hf, hv⟩ := hv
    rw [runOn_get_bind, runOn_deserializeWith] at hv
    obtain ⟨-, rfl⟩ := Prod.mk.inj hv
    exact ⟨m, k, st₂, f, hk, hf⟩

/-- Thawing leaves an environment for checkpoints what it is, whatever the bytes are. -/
theorem keepsCheckpoints_of_thaw (he : st.KeepsCheckpoints e c)
    (h : runOn (thaw e b) st = (.ok s, st₁)) : st₁.KeepsCheckpoints e c := by
  obtain ⟨m, k, st₂, f, hk, hf⟩ := of_runOn_thaw he h
  obtain ⟨hmem, hkeeps⟩ := of_runOn_schemeFor he hk
  exact (keepsCheckpoints_of_factoryFor hkeeps hmem hf).2.2.2

/-- Snapshots are frozen and bytes thawed one after the other. -/
inductive Uses (e : Nat) (st : Store) : Store → Prop
  | refl : Uses e st st
  | freeze {st₁ st₂ : Store} {s : Snapshot} {b : Bytes} :
    Uses e st st₁ → runOn (freeze e s) st₁ = (.ok b, st₂) → Uses e st st₂
  | thaw {st₁ st₂ : Store} {s : Snapshot} {b : Bytes} :
    Uses e st st₁ → runOn (thaw e b) st₁ = (.ok s, st₂) → Uses e st st₂

theorem Uses.keepsCheckpoints (h : Uses e st st₁) (he : st.KeepsCheckpoints e c) :
    st₁.KeepsCheckpoints e c := by
  induction h with
  | refl => exact he
  | freeze _ hfreeze ih => exact keepsCheckpoints_of_freeze ih hfreeze
  | thaw _ hthaw ih => exact keepsCheckpoints_of_thaw ih hthaw

end Call

end DurableFlow
