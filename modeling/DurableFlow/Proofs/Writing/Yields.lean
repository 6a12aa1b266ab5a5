import DurableFlow.Proofs.Writing.Members
import Mathlib.Data.List.Forall2
import Mathlib.Tactic.SplitIfs

/-!
# What writing yields

Writing only adds to the schema, and never under a name that it has. `Yields I w Q` says that `w`, where it
succeeds, keeps the schema within `I` and comes to something that satisfies `Q` with whatever schema the
rest of the writing makes of it.
-/

namespace DurableFlow

namespace Schema

variable {s s' s'' : Schema} {n : TypeNotation} {name : String}

theorem get?_add (s : Schema) (n : TypeNotation) (name : String) :
    (s.add n).get? name = (s.get? name).or (if n.name = name then some n else none) := by
  rw [add]
  split_ifs with h hn hn
  · rw [← hn]
    exact (Option.or_of_isSome h).symm
  · exact Option.or_none.symm
  · simp [get?, hn]
  · simp [get?, hn]

theorem name_of_get? (h : s.get? name = some n) : n.name = name := by
  simpa using List.find?_some h

theorem add_add (s : Schema) (n : TypeNotation) : (s.add n).add n = s.add n := by
  refine if_pos ?_
  rw [get?_add, if_pos rfl]
  exact Option.isSome_or.trans (Bool.or_true _)

/-- Everything in the first schema is the same in the second. -/
def Extends (s s' : Schema) : Prop := ∀ name n, s.get? name = some n → s'.get? name = some n

theorem Extends.refl (s : Schema) : s.Extends s := fun _ _ h => h

theorem Extends.trans (h : s.Extends s') (h' : s'.Extends s'') : s.Extends s'' :=
  fun name n hn => h' name n (h name n hn)

theorem extends_add (s : Schema) (n : TypeNotation) : s.Extends (s.add n) := by
  intro name m hm
  rw [get?_add, hm, Option.some_or]

theorem Extends.fields? {names : List String} (h : s.Extends s') (hn : s.fields? name = some names) :
    s'.fields? name = some names := by
  rw [Schema.fields?] at hn ⊢
  split at hn
  case h_1 own fields hget =>
    rw [h _ _ hget]
    exact hn
  case h_2 => cases hn

end Schema

/-- Where writing succeeds it stays within `I`, and from then on the outcome satisfies `Q`. -/
def Writing.Yields {α : Type} (I : Schema → Prop) (w : Writing α) (Q : Schema → α → Prop) : Prop :=
  ∀ s a s₁, I s → w s = .ok (a, s₁) → I s₁ ∧ s.Extends s₁ ∧ ∀ s', s₁.Extends s' → Q s' a

namespace Writing.Yields

variable {α β : Type} {I : Schema → Prop} {w : Writing α} {Q R : Schema → α → Prop}

theorem mono (h : Yields I w Q) (hQ : ∀ s a, Q s a → R s a) : Yields I w R := by
  intro s a s₁ hs hw
  obtain ⟨hI, hext, hq⟩ := h s a s₁ hs hw
  exact ⟨hI, hext, fun s' hs' => hQ s' a (hq s' hs')⟩

theorem pure {a : α} (h : ∀ s, Q s a) : Yields I (Pure.pure a) Q := by
  intro s b s₁ hs hw
  obtain ⟨rfl, rfl⟩ := Prod.mk.inj (Except.ok.inj hw)
  exact ⟨hs, .refl s, fun s' _ => h s'⟩

theorem bind {f : α → Writing β} {S : Schema → β → Prop} (h : Yields I w Q)
    (hf : ∀ a, Yields I (f a) fun s b => Q s a → S s b) : Yields I (w >>= f) S := by
  intro s b s₂ hs hw
  obtain ⟨a, s₁, hw, hfa⟩ := Writing.bind_eq_ok.1 hw
  obtain ⟨hI, hext, hq⟩ := h s a s₁ hs hw
  obtain ⟨hI', hext', hs'⟩ := hf a s₁ b s₂ hI hfa
  exact ⟨hI', hext.trans hext', fun s' h' => hs' s' h' (hq s' (hext'.trans h'))⟩

theorem lift {x : Except Abort α} (h : ∀ a, x = .ok a → ∀ s, Q s a) : Yields I (Writing.lift x) Q := by
  intro s b s₁ hs hw
  cases x with
  | error e => cases hw
  | ok a =>
    obtain ⟨rfl, rfl⟩ := Prod.mk.inj (Except.ok.inj hw)
    exact ⟨hs, .refl s, fun s' _ => h a rfl s'⟩

theorem lift_error {e : Abort} : Yields I (Writing.lift (.error e)) Q := lift fun _ h => nomatch h

theorem note {n : TypeNotation} (h : ∀ s, I s → I (s.add n)) :
    Yields I (Writing.note n) fun _ _ => True := by
  intro s b s₁ hs hw
  obtain ⟨-, rfl⟩ := Prod.mk.inj (Except.ok.inj hw)
  exact ⟨h s hs, s.extends_add n, fun _ _ => trivial⟩

theorem fail {e : Abort} : Yields I (Writing.fail e) Q := fun _ _ _ _ hw => nomatch hw

theorem mapM_forall₂ {f : α → Writing β} {γ : Type} {S : γ → Schema → β → Prop} {cs : List γ} {as : List α}
    (h : List.Forall₂ (fun c a => Yields I (f a) (S c)) cs as) :
    Yields I (as.mapM f) fun s bs => List.Forall₂ (fun c b => S c s b) cs bs := by
  induction h with
  | nil => exact pure fun s => .nil
  | cons ha _ ih =>
    rw [List.mapM_cons]
    refine bind ha fun b => ?_
    refine bind ih fun bs => ?_
    exact pure fun s hbs hb => .cons hb hbs

theorem mapM {f : α → Writing β} {S : α → Schema → β → Prop} {as : List α}
    (h : ∀ a ∈ as, Yields I (f a) (S a)) :
    Yields I (as.mapM f) fun s bs => List.Forall₂ (fun a b => S a s b) as bs :=
  mapM_forall₂ (List.forall₂_same.2 h)

theorem guard {s : Serializer} {x : Writing Element} {Q : Schema → Element → Prop} (operation : String)
    (h : Yields I x Q) : Yields I (fun schema => s.guard operation (x schema)) Q := by
  intro schema e schema' hs hw
  refine h schema e schema' hs ?_
  change s.guard operation (x schema) = _ at hw
  rw [Serializer.guard.eq_def] at hw
  split at hw
  · split_ifs at hw
  · exact hw

/-- The layout of an object stands in the schema, whether it was there before or not, if no notation of
another kind does. -/
theorem noteFields {name : String} (names : List String)
    (hadd : ∀ s, I s → I (s.add (.composite name names)))
    (hclear : ∀ s, I s → ∀ own id, s.get? name ≠ some (.restricted own id)) :
    Yields I (Setting.noteFields name names) fun s _ => s.get? name = some (.composite name names) := by
  intro s u s₁ hs hw
  unfold Setting.noteFields at hw
  cases hget : s.get? name with
  | none =>
    rw [Schema.fields?, hget] at hw
    obtain ⟨-, rfl⟩ := Prod.mk.inj (Except.ok.inj hw)
    refine ⟨hadd s hs, s.extends_add _, fun s' hs' => hs' _ _ ?_⟩
    rw [Schema.get?_add, hget, if_pos (by rw [TypeNotation.name]), Option.none_or]
  | some n =>
    cases n with
    | restricted own id => exact absurd hget (hclear s hs own id)
    | composite own known =>
      obtain rfl : own = name := Schema.name_of_get? hget
      rw [Schema.fields?, hget] at hw
      change (if known = names then _ else _) = _ at hw
      split_ifs at hw with hknown
      · obtain ⟨-, rfl⟩ := Prod.mk.inj (Except.ok.inj hw)
        rw [hknown] at hget
        exact ⟨hs, .refl s, fun s' hs' => hs' _ _ hget⟩
      · cases hw

end Writing.Yields

end DurableFlow
