import DurableFlow.Environment.Plugins

/-!
# Runs of steps that may fail

A step works on a state, which it leaves behind also where it fails. What a run comes to is the outcome
of the step together with that state.
-/

namespace DurableFlow

section

variable {ε σ α β : Type}

/-- What a step comes to and the state that it leaves. -/
def runOn (x : ExceptT ε (StateM σ) α) (s : σ) : Except ε α × σ := x.run.run s

theorem runOn_bind (x : ExceptT ε (StateM σ) α) (f : α → ExceptT ε (StateM σ) β) (s : σ) :
    runOn (x >>= f) s =
      match runOn x s with
      | (.ok a, s) => runOn (f a) s
      | (.error e, s) => (.error e, s) := by
  change (ExceptT.bindCont f (runOn x s).1) (runOn x s).2 = _
  cases runOn x s with
  | mk r s => cases r <;> rfl

theorem runOn_map (g : α → β) (x : ExceptT ε (StateM σ) α) (s : σ) :
    runOn (g <$> x) s =
      match runOn x s with
      | (.ok a, s) => (.ok (g a), s)
      | (.error e, s) => (.error e, s) := by
  change (match (runOn x s).1 with
    | .ok a => (pure (.ok (g a)) : StateM σ (Except ε β))
    | .error e => pure (.error e)).run (runOn x s).2 = _
  cases runOn x s with
  | mk r s => cases r <;> rfl

theorem runOn_forM_cons (f : α → ExceptT ε (StateM σ) PUnit) (a : α) (as : List α) (s : σ) :
    runOn ((a :: as).forM f) s =
      match runOn (f a) s with
      | (.ok _, s) => runOn (as.forM f) s
      | (.error e, s) => (.error e, s) := by
  rw [List.forM_eq_forM, List.forM_cons, runOn_bind]
  rcases runOn (f a) s with ⟨e | u, t⟩ <;> rfl

variable {x : ExceptT ε (StateM σ) α} {f : α → ExceptT ε (StateM σ) β} {s s' : σ}

theorem runOn_bind_ok {a : α} (h : runOn x s = (.ok a, s')) :
    runOn (x >>= f) s = runOn (f a) s' := by
  rw [runOn_bind, h]

theorem runOn_bind_error {e : ε} (h : runOn x s = (.error e, s')) :
    runOn (x >>= f) s = (.error e, s') := by
  rw [runOn_bind, h]

theorem runOn_bind_eq_ok_iff {b : β} :
    runOn (x >>= f) s = (.ok b, s') ↔ ∃ a t, runOn x s = (.ok a, t) ∧ runOn (f a) t = (.ok b, s') := by
  rw [runOn_bind]
  rcases hx : runOn x s with ⟨e | a, t⟩
  · simp
  · constructor
    · exact fun h => ⟨a, t, rfl, h⟩
    · rintro ⟨a', t', he, h⟩
      obtain ⟨ha, rfl⟩ := Prod.mk.inj he
      obtain rfl := Except.ok.inj ha
      exact h

theorem runOn_get_bind (f : σ → ExceptT ε (StateM σ) α) (s : σ) :
    runOn (get >>= f) s = runOn (f s) s := rfl

theorem runOn_set (s s' : σ) :
    runOn (set s' : ExceptT ε (StateM σ) PUnit) s = (.ok ⟨⟩, s') := rfl

theorem runOn_tryCatch (x : ExceptT ε (StateM σ) α) (h : ε → ExceptT ε (StateM σ) α) (s : σ) :
    runOn (tryCatch x h) s =
      match runOn x s with
      | (.ok a, s) => (.ok a, s)
      | (.error e, s) => runOn (h e) s := by
  change (match (runOn x s).1 with
    | .ok a => (pure (.ok a) : StateM σ (Except ε α))
    | .error e => h e).run (runOn x s).2 = _
  cases runOn x s with
  | mk r s => cases r <;> rfl

end

end DurableFlow
