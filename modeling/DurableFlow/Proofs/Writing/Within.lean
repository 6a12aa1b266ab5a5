import DurableFlow.Proofs.Writing.Members

/-!
# What writing keeps to and fails with

`Within I P w Q` says that `w`, started with a schema within `I`, either fails for a reason in `P` or stays
within `I` and comes to something that satisfies `Q`.
-/

namespace DurableFlow.Writing

variable {α β : Type}

def Within (I : Schema → Prop) (P : Abort → Prop) (w : Writing α) (Q : α → Prop) : Prop :=
  ∀ s, I s → match w s with
    | .ok (a, s') => I s' ∧ Q a
    | .error e => P e

namespace Within

variable {I : Schema → Prop} {P : Abort → Prop} {w : Writing α} {Q R : α → Prop}

theorem mono (h : Within I P w Q) (hQ : ∀ a, Q a → R a) : Within I P w R := by
  intro s hs
  have hw := h s hs
  cases hr : w s with
  | error e =>
    rw [hr] at hw
    exact hw
  | ok r =>
    rw [hr] at hw
    exact ⟨hw.1, hQ _ hw.2⟩

theorem of_error (h : Within I P w Q) {s : Schema} (hs : I s) {e : Abort} (he : w s = .error e) :
    P e := by
  have hw := h s hs
  rw [he] at hw
  exact hw

theorem pure {a : α} (h : Q a) : Within I P (Pure.pure a) Q := fun _ hs => ⟨hs, h⟩

theorem lift_ok {x : Except Abort α} {a : α} (hx : x = .ok a) (h : Q a) : Within I P (.lift x) Q := by
  rw [hx]
  exact fun _ hs => ⟨hs, h⟩

theorem lift_error {x : Except Abort α} {e : Abort} (hx : x = .error e) (h : P e) :
    Within I P (.lift x) Q := by
  rw [hx]
  exact fun _ _ => h

theorem bind {f : α → Writing β} {S : β → Prop} (h : Within I P w Q)
    (hf : ∀ a, Q a → Within I P (f a) S) : Within I P (w >>= f) S := by
  intro s hs
  have hw := h s hs
  cases hr : w s with
  | error e =>
    rw [hr] at hw
    rw [bind_apply_error hr]
    exact hw
  | ok r =>
    rw [hr] at hw
    rw [bind_apply_ok hr]
    exact hf _ hw.2 _ hw.1

theorem of_map {g : α → β} {S : β → Prop} (h : Within I P (do return g (← w)) S) :
    Within I P w fun a => S (g a) := by
  intro s hs
  have hw := h s hs
  cases hr : w s with
  | error e =>
    rw [bind_apply_error hr] at hw
    exact hw
  | ok r =>
    rw [bind_apply_ok hr] at hw
    exact hw

theorem mapM {f : α → Writing β} {as : List α} (h : ∀ a ∈ as, Within I P (f a) fun _ => True) :
    Within I P (as.mapM f) fun _ => True := by
  induction as with
  | nil => exact pure trivial
  | cons a as ih =>
    rw [List.mapM_cons]
    refine (h a List.mem_cons_self).bind fun b _ => ?_
    exact (ih fun a ha => h a (List.mem_cons_of_mem _ ha)).bind fun bs _ => pure trivial

end Within

end DurableFlow.Writing
