import DurableFlow.Proofs.RoundTrip.Spelled

/-!
# Which elements are read as simple values and collections

An element is read as a collection if its parts are read as what the collection is made of. So it is read as a
value built from simple values, lists, optional values and pairs just if this value is written as it.
-/

namespace DurableFlow

open List (Forall₂)

section

variable {α β : Type} {as : List α} {bs : List β}

theorem bind_eq_ok_iff {x : Except Abort α} {f : α → Except Abort β} {b : β} :
    x >>= f = .ok b ↔ ∃ a, x = .ok a ∧ f a = .ok b := by
  cases x with
  | error e => exact iff_of_false (fun h => nomatch h) fun ⟨_, h, _⟩ => nomatch h
  | ok a => exact ⟨fun h => ⟨a, rfl, h⟩, fun ⟨_, ha, h⟩ => Except.ok.inj ha ▸ h⟩

theorem map_eq_ok_iff {x : Except Abort α} {f : α → β} {b : β} :
    (do return f (← x)) = .ok b ↔ ∃ a, x = .ok a ∧ b = f a := by
  rw [bind_eq_ok_iff]
  exact exists_congr fun a => and_congr_right fun _ => ⟨fun h => (Except.ok.inj h).symm, fun h => h ▸ rfl⟩

theorem mapM_eq_ok_iff {f : α → Except Abort β} :
    as.mapM f = .ok bs ↔ Forall₂ (fun a b => f a = .ok b) as bs := by
  induction as generalizing bs with
  | nil => exact ⟨fun h => Except.ok.inj h ▸ .nil, fun h => by cases h; rfl⟩
  | cons a as ih =>
    rw [List.mapM_cons, bind_eq_ok_iff, List.forall₂_cons_left_iff]
    simp only [map_eq_ok_iff, ih, exists_and_left]

end

theorem holds_of_inRange {kind : IntKind} {n : Int} {v : Value} (h : inRange kind n = .ok v) :
    kind.holds n = true ∧ v = .int n := by
  rw [inRange] at h
  split_ifs at h with hn
  · exact ⟨hn, (Except.ok.inj h).symm⟩
  · cases h

theorem writeSimple_of_readSimple_int {kind : IntKind} {e : Element} {v : Value}
    (h : readSimple (.int kind) e = .ok v) : writeSimple (.int kind) v = .ok e := by
  cases hsigned : kind.isSigned with
  | true =>
    simp only [readSimple, hsigned, if_true] at h
    cases e with
    | long n =>
      obtain ⟨hn, rfl⟩ := holds_of_inRange h
      simp only [writeSimple, writeSimple?, hn, hsigned, if_true, Int64.ofInt_toInt]
    | _ => cases h
  | false =>
    simp only [readSimple, hsigned, Bool.false_eq_true, if_false] at h
    cases e with
    | ulong n =>
      obtain ⟨hn, rfl⟩ := holds_of_inRange h
      simp only [writeSimple, writeSimple?, hn, hsigned, if_true, Bool.false_eq_true, if_false,
        Int.toNat_natCast, UInt64.ofNat_toNat]
    | _ => cases h

theorem writeSimple_of_readSimple {t : Ty} (ht : t.IsSimple) {e : Element} {v : Value}
    (h : readSimple t e = .ok v) : writeSimple t v = .ok e := by
  cases t with
  | int kind => exact writeSimple_of_readSimple_int h
  | boolean | double | char | string =>
    cases e <;> first
      | (cases h; rfl)
      | cases h
  | _ => exact ht.elim

namespace Setting

variable {c : Setting} {s : Schema} {t t' : Ty} {e : Element} {v : Value}

theorem readElement_simple_iff (ht : t.IsSimple) :
    c.readElement s e (.value t) = .ok v ↔ writeSimple t v = .ok e := by
  have hread : c.readElement s e (.value t) = readSimple t e := by
    cases t with
    | int _ | boolean | double | char | string => cases e <;> rfl
    | _ => exact ht.elim
  rw [hread]
  exact ⟨writeSimple_of_readSimple ht, fun h => (readSimple_of_writeSimple h).1⟩

theorem readElement_items_iff {item : Ty} {g : List Value → List Value}
    (ht : t = .list item ∧ g = id ∨ t = .set item ∧ g = Ordered.ofList Value.compare) :
    c.readElement s e (.value t) = .ok v ↔ ∃ es vs, e = .list es ∧ v = .seq (g vs) ∧
      Forall₂ (fun e v => c.readElement s e (.value item) = .ok v) es vs := by
  cases e with
  | list es =>
    have hread : c.readElement s (.list es) (.value t) =
        do return .seq (g (← es.mapM fun e => c.readElement s e (.value item))) := by
      rcases ht with ⟨rfl, rfl⟩ | ⟨rfl, rfl⟩
      · exact (readElement_items s es item).1
      · exact (readElement_items s es item).2
    rw [hread, map_eq_ok_iff]
    simp only [mapM_eq_ok_iff]
    constructor
    · rintro ⟨vs, h, rfl⟩
      exact ⟨es, vs, rfl, rfl, h⟩
    · rintro ⟨es', vs, he, rfl, h⟩
      cases he
      exact ⟨vs, h, rfl⟩
  | _ =>
    rcases ht with ⟨rfl, -⟩ | ⟨rfl, -⟩ <;>
      exact iff_of_false (fun h => nomatch h) fun ⟨_, _, h, _⟩ => nomatch h

theorem readElement_optional_iff : c.readElement s e (.value (.optional t)) = .ok v ↔
    e = .null ∧ v = .none ∨
      ∃ e' v', e = .list [e'] ∧ v = .some v' ∧ c.readElement s e' (.value t) = .ok v' := by
  cases e with
  | null =>
    constructor
    · exact fun h => .inl ⟨rfl, (Except.ok.inj h).symm⟩
    · rintro (⟨-, rfl⟩ | ⟨_, _, he, -⟩)
      · rfl
      · cases he
  | list es =>
    match es with
    | [e] =>
      rw [readElement_some, map_eq_ok_iff]
      constructor
      · rintro ⟨v', h, rfl⟩
        exact .inr ⟨e, v', rfl, rfl, h⟩
      · rintro (⟨he, -⟩ | ⟨e', v', he, rfl, h⟩)
        · cases he
        · cases he
          exact ⟨v', h, rfl⟩
    | [] | _ :: _ :: _ =>
      exact iff_of_false (fun h => nomatch h) (by rintro (⟨he, -⟩ | ⟨_, _, he, -⟩) <;> cases he)
  | _ => exact iff_of_false (fun h => nomatch h) (by rintro (⟨he, -⟩ | ⟨_, _, he, -⟩) <;> cases he)

theorem readElement_pair_iff : c.readElement s e (.value (.pair t t')) = .ok v ↔
    ∃ e₁ e₂ v₁ v₂, e = .list [e₁, e₂] ∧ v = .seq [v₁, v₂] ∧
      c.readElement s e₁ (.value t) = .ok v₁ ∧ c.readElement s e₂ (.value t') = .ok v₂ := by
  cases e with
  | list es =>
    match es with
    | [e₁, e₂] =>
      have hread : c.readElement s (.list [e₁, e₂]) (.value (.pair t t')) = do
          let v₁ ← c.readElement s e₁ (.value t)
          return .seq [v₁, ← c.readElement s e₂ (.value t')] := by
        rw [readElement_list]
        rfl
      rw [hread, bind_eq_ok_iff]
      simp only [map_eq_ok_iff]
      constructor
      · rintro ⟨v₁, h₁, v₂, h₂, rfl⟩
        exact ⟨e₁, e₂, v₁, v₂, rfl, rfl, h₁, h₂⟩
      · rintro ⟨_, _, v₁, v₂, he, rfl, h₁, h₂⟩
        cases he
        exact ⟨v₁, h₁, v₂, h₂, rfl⟩
    | [] | [_] | _ :: _ :: _ :: _ =>
      exact iff_of_false (fun h => nomatch h) fun ⟨_, _, _, _, h, _⟩ => nomatch h
  | _ => exact iff_of_false (fun h => nomatch h) fun ⟨_, _, _, _, h, _⟩ => nomatch h

theorem readElement_map_iff {key value : Ty} (ht : t = .map key value ∨ t = .hashmap key value) :
    c.readElement s e (.value t) = .ok v ↔
      ∃ es vs, e = .map es ∧ v = .entries (Ordered.ofEntries Value.compare vs) ∧
        Forall₂ (fun q p => c.readElement s q.1 (.value key) = .ok p.1 ∧
          c.readElement s q.2 (.value value) = .ok p.2) es vs := by
  cases e with
  | map es =>
    have hentry : ∀ (q : Element × Element) (p : Value × Value),
        (do return (← c.readElement s q.1 (.value key), ← c.readElement s q.2 (.value value))) = .ok p ↔
          c.readElement s q.1 (.value key) = .ok p.1 ∧ c.readElement s q.2 (.value value) = .ok p.2 := by
      intro q p
      rw [bind_eq_ok_iff]
      simp only [map_eq_ok_iff]
      constructor
      · rintro ⟨v₁, h₁, v₂, h₂, rfl⟩
        exact ⟨h₁, h₂⟩
      · rintro ⟨h₁, h₂⟩
        exact ⟨p.1, h₁, p.2, h₂, rfl⟩
    rw [readElement_entries ht, map_eq_ok_iff]
    simp only [mapM_eq_ok_iff, hentry]
    constructor
    · rintro ⟨vs, h, rfl⟩
      exact ⟨es, vs, rfl, rfl, h⟩
    · rintro ⟨es', vs, he, rfl, h⟩
      cases he
      exact ⟨vs, h, rfl⟩
  | _ =>
    rcases ht with rfl | rfl <;>
      exact iff_of_false (fun h => nomatch h) fun ⟨_, _, h, _⟩ => nomatch h

/-- A value without sets and maps is read just of the element that spells it. -/
theorem readElement_flat_iff (ht : t.isFlat = true) :
    c.readElement s e (.value t) = .ok v ↔ Value.Spelled t v e := by
  induction t generalizing e v with
  | int _ | boolean | double | char | string =>
    refine readElement_simple_iff ?_
    exact trivial
  | list item ih =>
    rw [readElement_items_iff (.inl ⟨rfl, rfl⟩)]
    simp only [ih ht]
    exact ⟨fun ⟨es, vs, he, hv, h⟩ => ⟨vs, es, hv, he, forall₂_swap.1 h⟩,
      fun ⟨vs, es, hv, he, h⟩ => ⟨es, vs, he, hv, forall₂_swap.2 h⟩⟩
  | optional item ih =>
    rw [readElement_optional_iff]
    simp only [ih ht]
    exact or_congr and_comm ⟨fun ⟨e', v', he, hv, h⟩ => ⟨v', e', hv, he, h⟩,
      fun ⟨v', e', hv, he, h⟩ => ⟨e', v', he, hv, h⟩⟩
  | pair first second ih ih' =>
    obtain ⟨hfirst, hsecond⟩ := (Bool.and_eq_true _ _).mp ht
    rw [readElement_pair_iff]
    simp only [ih hfirst, ih' hsecond]
    exact ⟨fun ⟨e₁, e₂, v₁, v₂, he, hv, h⟩ => ⟨v₁, v₂, e₁, e₂, hv, he, h⟩,
      fun ⟨v₁, v₂, e₁, e₂, hv, he, h⟩ => ⟨e₁, e₂, v₁, v₂, he, hv, h⟩⟩
  | _ => cases ht

end Setting

end DurableFlow
