import DurableFlow.Machine.Snapshot
import DurableFlow.Proofs.Environment.Calls

/-!
# Calls that do not look at the logs

What has been written into the logs, and how many errors have been numbered, makes no difference to what is
read: stores that differ in nothing else lead to the same outcome, and to stores that differ in nothing
else again.
-/

namespace DurableFlow

namespace Store

variable {s s' s'' : Store}

/-- Nothing differs but the logs and the number of errors. -/
def Like (s s' : Store) : Prop :=
  ∃ errors log checkLog, s' = { s with errors := errors, log := log, checkLog := checkLog }

theorem Like.refl (s : Store) : s.Like s := ⟨s.errors, s.log, s.checkLog, rfl⟩

theorem Like.symm (h : s.Like s') : s'.Like s := by
  obtain ⟨errors, log, checkLog, rfl⟩ := h
  exact ⟨s.errors, s.log, s.checkLog, rfl⟩

theorem Like.trans (h : s.Like s') (h' : s'.Like s'') : s.Like s'' := by
  obtain ⟨errors, log, checkLog, rfl⟩ := h
  obtain ⟨errors', log', checkLog', rfl⟩ := h'
  exact ⟨errors', log', checkLog', rfl⟩

theorem Like.scheme (h : s.Like s') (k : Nat) : s'.scheme k = s.scheme k := by
  obtain ⟨errors, log, checkLog, rfl⟩ := h
  rfl

theorem Like.environment (h : s.Like s') (e : Nat) : s'.environment e = s.environment e := by
  obtain ⟨errors, log, checkLog, rfl⟩ := h
  rfl

theorem Like.pluginsOf (h : s.Like s') (g : Nat) : s'.pluginsOf g = s.pluginsOf g := by
  obtain ⟨errors, log, checkLog, rfl⟩ := h
  rfl

theorem Like.setting (h : s.Like s') (f : Nat) : s'.setting f = s.setting f := by
  obtain ⟨errors, log, checkLog, rfl⟩ := h
  rfl

end Store

namespace Call

variable {α β : Type} {x y : Call α} {f g : α → Call β} {s s' : Store}

/-- Both calls come to the same and leave stores that are alike. -/
def Agree (x y : Call α) (s s' : Store) : Prop :=
  (runOn x s).1 = (runOn y s').1 ∧ (runOn x s).2.Like (runOn y s').2

theorem Agree.pure (a : α) (h : s.Like s') : Agree (pure a) (pure a) s s' := ⟨rfl, h⟩

theorem Agree.bind (h : Agree x y s s') (hf : ∀ a t t', t.Like t' → Agree (f a) (g a) t t') :
    Agree (x >>= f) (y >>= g) s s' := by
  obtain ⟨hout, hlike⟩ := h
  rw [Agree, runOn_bind, runOn_bind]
  rcases hx : runOn x s with ⟨r, t⟩
  rcases hy : runOn y s' with ⟨r', t'⟩
  rw [hx, hy] at hout hlike
  obtain rfl : r = r' := hout
  cases r with
  | error e => exact ⟨rfl, hlike⟩
  | ok a => exact hf a t t' hlike

/-- The call comes to the same in stores that are alike. -/
def Oblivious (x : Call α) : Prop := ∀ s s', s.Like s' → Agree x x s s'

namespace Oblivious

theorem pure (a : α) : Oblivious (Pure.pure a) := fun _ _ h => .pure a h

theorem bind (h : Oblivious x) (hf : ∀ a, Oblivious (f a)) : Oblivious (x >>= f) :=
  fun s s' hs => (h s s' hs).bind fun a => hf a

theorem get_bind {f : Store → Call α} (h : ∀ s s', s.Like s' → Agree (f s) (f s') s s') :
    Oblivious (get >>= f) := h

theorem fail (e : SerializationError) : Oblivious (Call.fail e : Call α) := fun _ _ h => ⟨rfl, h⟩

theorem lift (r : Except Abort α) : Oblivious (Call.lift r) := by
  cases r with
  | error e => exact fun _ _ h => ⟨rfl, h⟩
  | ok a => exact pure a

theorem liftError (r : Except SerializationError α) : Oblivious (Call.liftError r) := by
  cases r with
  | error e => exact fail e
  | ok a => exact pure a

theorem given (o : Option Nat) (e : SerializationError) :
    Oblivious (match o with | some k => (Pure.pure k : Call Nat) | none => Call.fail e) := by
  cases o with
  | some k => exact pure k
  | none => exact fail e

end Oblivious

theorem agree_set {t t' : Store} (h : t.Like t') : Agree (set t) (set t') s s' := ⟨rfl, h⟩

theorem oblivious_modify {g : Store → Store} (h : ∀ s s', s.Like s' → (g s).Like (g s')) :
    Oblivious (modify g) := fun s s' hs => ⟨rfl, h s s' hs⟩

theorem oblivious_schemeFor (e : Nat) (m : Magic) (u : UseCase) : Oblivious (schemeFor e m u) := by
  refine .get_bind fun s s' hlike => ?_
  have hfirst : firstAccepting s' = firstAccepting s := by
    obtain ⟨errors, log, checkLog, rfl⟩ := hlike
    rfl
  have hplace (place : Nat) := Oblivious.given (s.environment e).schemes[place]? (.noSchemeFor m u)
  simp only [hlike.environment, hfirst]
  cases (s.environment e).chosen.get? (m, u) with
  | some i => exact (Oblivious.pure i).bind hplace s s' hlike
  | none =>
    cases firstAccepting s (s.environment e).schemes m u with
    | none => exact (Oblivious.fail _).bind hplace s s' hlike
    | some i =>
      refine Agree.bind (agree_set ?_) fun _ => (Oblivious.pure i).bind hplace
      obtain ⟨errors, log, checkLog, rfl⟩ := hlike
      exact ⟨errors, log, checkLog, rfl⟩

theorem oblivious_newFactory (policy scope : Nat) : Oblivious (newFactory policy scope) := by
  refine .get_bind ?_
  rintro s _ ⟨errors, log, checkLog, rfl⟩
  refine (oblivious_modify ?_).bind (fun _ => .pure _) s _ ⟨errors, log, checkLog, rfl⟩
  rintro s _ ⟨errors, log, checkLog, rfl⟩
  exact ⟨errors, log, checkLog, rfl⟩

theorem oblivious_cachedFactory (k : Nat) (key : Nat × Nat) : Oblivious (cachedFactory k key) := by
  refine .get_bind fun s s' hlike => ?_
  simp only [hlike.scheme]
  cases (s.scheme k).factories.get? key with
  | some f => exact .pure f hlike
  | none =>
    refine (oblivious_newFactory _ _).bind (fun f => ?_) s s' hlike
    refine (oblivious_modify ?_).bind fun _ => .pure f
    rintro s _ ⟨errors, log, checkLog, rfl⟩
    exact ⟨errors, log, checkLog, rfl⟩

theorem oblivious_draft (f : Nat) (step : Drafting α) : Oblivious (draft f step) := by
  refine .get_bind ?_
  rintro s _ ⟨errors, log, checkLog, rfl⟩
  refine Agree.bind (agree_set ?_) fun _ => Oblivious.liftError _
  exact ⟨errors, _, checkLog, rfl⟩

theorem oblivious_factoryFor (k : Nat) (c : Context) : Oblivious (factoryFor k c) := by
  refine .get_bind fun s s' hlike => ?_
  simp only [hlike.scheme]
  cases (s.scheme k).kind.refusal? c.useCase with
  | some e => exact Oblivious.fail e s s' hlike
  | none =>
    refine (oblivious_cachedFactory k c.key).bind (fun f => .get_bind fun t t' ht => ?_) s s' hlike
    simp only [ht.pluginsOf]
    exact (oblivious_draft f _).bind (fun _ => .pure f) t t' ht

theorem oblivious_deserializeWith (f : Nat) (m : Magic) (t : Ty) (bs : Bytes) :
    Oblivious (deserializeWith f m t bs) := by
  refine .bind (.liftError _) fun env => .get_bind fun s s' hlike => ?_
  simp only [hlike.setting]
  exact Oblivious.lift _ s s' hlike

theorem oblivious_deserializeBy (k : Nat) (c : Context) (t : Ty) (bs : Bytes) :
    Oblivious (deserializeBy k c t bs) := by
  refine (oblivious_factoryFor k c).bind fun f => .get_bind fun s s' hlike => ?_
  simp only [hlike.scheme]
  exact oblivious_deserializeWith f _ t bs s s' hlike

theorem oblivious_thawWith (e : Nat) (c : Context) (bs : Bytes) : Oblivious (thawWith e c bs) := by
  have hread : Oblivious (deserialize e c Snapshot.type bs) := by
    rw [deserialize]
    cases Magic.ofPrefix? bs with
    | none => exact .fail _
    | some m =>
      exact (oblivious_schemeFor e m c.useCase).bind fun k => oblivious_deserializeBy k c _ bs
  refine hread.bind fun v => ?_
  cases Snapshot.ofValue? v with
  | some s => exact .pure s
  | none => exact .lift _

end Call

end DurableFlow
