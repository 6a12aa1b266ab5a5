import DurableFlow.Proofs.Values.Ordered

/-!
# Comparisons that order some items

A comparison need not order all items, and where it does, lists in order hold the items that were added, each of
them once, and a map binds each key as the last entry for it does.
-/

namespace DurableFlow.Ordered

variable {α β : Type} {cmp : α → α → Ordering} {cmp' : β → β → Ordering} {P : α → Prop} {Q : β → Prop}

/-- On the items with this property the comparison is transitive, and only an item and itself are equal. -/
structure LawfulOn (cmp : α → α → Ordering) (P : α → Prop) : Prop where
  eq_of_compare {a b : α} (ha : P a) (hb : P b) (h : cmp a b = .eq) : a = b
  lt_trans {a b c : α} (ha : P a) (hb : P b) (hc : P c) (h : cmp a b = .lt) (h' : cmp b c = .lt) :
    cmp a c = .lt

namespace LawfulOn

theorem mono {P' : α → Prop} (h : LawfulOn cmp P) (hP : ∀ a, P' a → P a) : LawfulOn cmp P' where
  eq_of_compare ha hb := h.eq_of_compare (hP _ ha) (hP _ hb)
  lt_trans ha hb hc := h.lt_trans (hP _ ha) (hP _ hb) (hP _ hc)

theorem of_lawful [Std.TransCmp cmp] [Std.LawfulEqCmp cmp] : LawfulOn cmp P where
  eq_of_compare _ _ h := Std.LawfulEqCmp.eq_of_compare h
  lt_trans _ _ _ h h' := Std.TransCmp.lt_trans h h'

theorem comap (h : LawfulOn cmp' Q) {f : β → α} (hf : ∀ x y, cmp (f x) (f y) = cmp' x y) :
    LawfulOn cmp fun a => ∃ x, a = f x ∧ Q x where
  eq_of_compare := by
    rintro _ _ ⟨x, rfl, hx⟩ ⟨y, rfl, hy⟩ heq
    rw [hf] at heq
    rw [h.eq_of_compare hx hy heq]
  lt_trans := by
    rintro _ _ _ ⟨x, rfl, hx⟩ ⟨y, rfl, hy⟩ ⟨z, rfl, hz⟩ hxy hyz
    rw [hf] at hxy hyz ⊢
    exact h.lt_trans hx hy hz hxy hyz

/-- Where the comparison leaves a tie, what follows has to be in order. -/
theorem then_lt_trans (h : LawfulOn cmp P) {a b c : α} (ha : P a) (hb : P b) (hc : P c) {o o' o'' : Ordering}
    (hab : (cmp a b).then o = .lt) (hbc : (cmp b c).then o' = .lt)
    (htie : o = .lt → o' = .lt → o'' = .lt) : (cmp a c).then o'' = .lt := by
  rw [Ordering.then_eq_lt] at hab hbc ⊢
  rcases hab with hab | ⟨hab, ho⟩
  · rcases hbc with hbc | ⟨hbc, -⟩
    · exact .inl (h.lt_trans ha hb hc hab hbc)
    · rw [← h.eq_of_compare hb hc hbc]
      exact .inl hab
  · rw [h.eq_of_compare ha hb hab]
    exact hbc.imp_right fun hbc => ⟨hbc.1, htie ho hbc.2⟩

theorem lex (h : LawfulOn cmp P) (h' : LawfulOn cmp' Q) :
    LawfulOn (fun x y : α × β => (cmp x.1 y.1).then (cmp' x.2 y.2)) fun x => P x.1 ∧ Q x.2 where
  eq_of_compare hx hy heq := by
    obtain ⟨hfirst, hsecond⟩ := Ordering.then_eq_eq.1 heq
    exact Prod.ext (h.eq_of_compare hx.1 hy.1 hfirst) (h'.eq_of_compare hx.2 hy.2 hsecond)
  lt_trans hx hy hz hxy hyz :=
    h.then_lt_trans hx.1 hy.1 hz.1 hxy hyz (h'.lt_trans hx.2 hy.2 hz.2)

theorem list (h : LawfulOn cmp P) : LawfulOn (List.compareLex cmp) fun as => ∀ a ∈ as, P a where
  eq_of_compare {as bs} has hbs heq := by
    induction as generalizing bs with
    | nil =>
      cases bs with
      | nil => rfl
      | cons b bs => cases heq
    | cons a as ih =>
      cases bs with
      | nil => cases heq
      | cons b bs =>
        obtain ⟨ha, has⟩ := List.forall_mem_cons.1 has
        obtain ⟨hb, hbs⟩ := List.forall_mem_cons.1 hbs
        rw [List.compareLex_cons_cons, Ordering.then_eq_eq] at heq
        rw [h.eq_of_compare ha hb heq.1, ih has hbs heq.2]
  lt_trans {as bs cs} has hbs hcs hab hbc := by
    induction as generalizing bs cs with
    | nil =>
      cases cs with
      | nil => cases bs <;> cases hbc
      | cons c cs => rfl
    | cons a as ih =>
      cases bs with
      | nil => cases hab
      | cons b bs =>
        cases cs with
        | nil => cases hbc
        | cons c cs =>
          obtain ⟨ha, has⟩ := List.forall_mem_cons.1 has
          obtain ⟨hb, hbs⟩ := List.forall_mem_cons.1 hbs
          obtain ⟨hc, hcs⟩ := List.forall_mem_cons.1 hcs
          rw [List.compareLex_cons_cons] at hab hbc ⊢
          exact h.then_lt_trans ha hb hc hab hbc (ih has hbs hcs)

end LawfulOn

/-! ### Sets -/

theorem insert_map {f : β → α} (hf : ∀ x y, cmp (f x) (f y) = cmp' x y) (x : β) (ys : List β) :
    insert cmp (f x) (ys.map f) = (insert cmp' x ys).map f := by
  induction ys with
  | nil => rfl
  | cons y ys ih =>
    rw [List.map_cons, insert, insert, hf]
    cases cmp' x y with
    | lt | eq => rfl
    | gt => exact congrArg (f y :: ·) ih

theorem ofList_map {f : β → α} (hf : ∀ x y, cmp (f x) (f y) = cmp' x y) (xs : List β) :
    ofList cmp (xs.map f) = (ofList cmp' xs).map f := by
  have hfoldl : ∀ ys, (xs.map f).foldl (fun ys x => insert cmp x ys) (ys.map f) =
      (xs.foldl (fun ys x => insert cmp' x ys) ys).map f := by
    induction xs with
    | nil => exact fun ys => rfl
    | cons x xs ih =>
      intro ys
      rw [List.map_cons, List.foldl_cons, List.foldl_cons, insert_map hf]
      exact ih _
  exact hfoldl []

/-- The comparison among the items with this property. -/
def restrict (cmp : α → α → Ordering) (P : α → Prop) (a b : Subtype P) : Ordering := cmp a b

namespace LawfulOn

variable [Std.OrientedCmp cmp] (h : LawfulOn cmp P)

include h

theorem transCmp_restrict : Std.TransCmp (restrict cmp P) where
  eq_swap {a b} := by
    change cmp a b = (cmp b a).swap
    exact Std.OrientedCmp.eq_swap
  isLE_trans {a b c} hab hbc := by
    rw [Ordering.isLE_iff_eq_lt_or_eq_eq] at hab hbc ⊢
    rcases hab with hab | hab
    · rcases hbc with hbc | hbc
      · exact .inl (h.lt_trans a.2 b.2 c.2 hab hbc)
      · obtain rfl := Subtype.ext (h.eq_of_compare b.2 c.2 hbc)
        exact .inl hab
    · obtain rfl := Subtype.ext (h.eq_of_compare a.2 b.2 hab)
      exact hbc

theorem lawfulEqCmp_restrict : Std.LawfulEqCmp (restrict cmp P) where
  compare_self {a} := by
    change cmp a a = .eq
    exact Std.ReflCmp.compare_self
  eq_of_compare {a b} heq := Subtype.ext (h.eq_of_compare a.2 b.2 heq)

/-- A set is in order and holds what was added to it, once each. -/
theorem increasing_ofList {xs : List α} (hxs : ∀ x ∈ xs, P x) :
    Increasing cmp (ofList cmp xs) ∧ ∀ x, x ∈ ofList cmp xs ↔ x ∈ xs := by
  have := h.transCmp_restrict
  have := h.lawfulEqCmp_restrict
  -- The items with the property form a type of their own, which the comparison orders as a whole.
  obtain ⟨ys, rfl⟩ : ∃ ys : List (Subtype P), xs = ys.map Subtype.val :=
    ⟨xs.attachWith P hxs, (List.attachWith_map_subtype_val hxs).symm⟩
  have hmap : ofList cmp (ys.map Subtype.val) = (ofList (restrict cmp P) ys).map Subtype.val :=
    ofList_map (fun _ _ => rfl) ys
  have hys : Increasing (restrict cmp P) (ofList (restrict cmp P) ys) := Ordered.increasing_ofList ys
  rw [hmap]
  refine ⟨List.pairwise_map.2 hys, fun x => ?_⟩
  simp only [List.mem_map, mem_ofList]

end LawfulOn

/-! ### Maps -/

theorem map_fst_put (k : α) (v : β) (m : List (α × β)) :
    (put cmp k v m).map (·.1) = insert cmp k (m.map (·.1)) := by
  induction m with
  | nil => rfl
  | cons e es ih =>
    rw [List.map_cons, put, insert]
    cases cmp k e.1 with
    | lt | eq => rfl
    | gt => exact congrArg (e.1 :: ·) ih

theorem map_fst_ofEntries (es : List (α × β)) :
    (ofEntries cmp es).map (·.1) = ofList cmp (es.map (·.1)) := by
  have hfoldl : ∀ m : List (α × β), (es.foldl (fun m e => put cmp e.1 e.2 m) m).map (·.1) =
      (es.map (·.1)).foldl (fun ys x => insert cmp x ys) (m.map (·.1)) := by
    induction es with
    | nil => exact fun m => rfl
    | cons e es ih =>
      intro m
      rw [List.foldl_cons, ih, map_fst_put]
      rfl
  exact hfoldl []

/-- It is the last entry for its key. -/
def Last (x : α × β) (es : List (α × β)) : Prop :=
  ∃ earlier later, es = earlier ++ x :: later ∧ ∀ y ∈ later, y.1 ≠ x.1

theorem not_last_nil {x : α × β} : ¬ Last x [] := by
  rintro ⟨earlier, later, heq, -⟩
  simp at heq

theorem last_cons {x e : α × β} {es : List (α × β)} :
    Last x (e :: es) ↔ x = e ∧ (∀ y ∈ es, y.1 ≠ x.1) ∨ Last x es := by
  constructor
  · rintro ⟨earlier, later, heq, hlater⟩
    rcases List.cons_eq_append_iff.1 heq with ⟨rfl, heq⟩ | ⟨init, rfl, rfl⟩
    · obtain ⟨rfl, rfl⟩ := List.cons_eq_cons.1 heq
      exact .inl ⟨rfl, hlater⟩
    · exact .inr ⟨init, later, rfl, hlater⟩
  · rintro (⟨rfl, hes⟩ | ⟨earlier, later, rfl, hlater⟩)
    · exact ⟨[], es, rfl, hes⟩
    · exact ⟨e :: earlier, later, rfl, hlater⟩

theorem last_concat {x e : α × β} {es : List (α × β)} :
    Last x (es ++ [e]) ↔ x = e ∨ x.1 ≠ e.1 ∧ Last x es := by
  constructor
  · rintro ⟨earlier, later, heq, hlater⟩
    rcases List.eq_nil_or_concat later with rfl | ⟨init, y, rfl⟩
    · exact .inl (List.singleton_inj.1 (List.append_inj' heq rfl).2).symm
    · rw [List.concat_eq_append] at heq hlater
      rw [← List.cons_append, ← List.append_assoc] at heq
      obtain ⟨rfl, he⟩ := List.append_inj' heq rfl
      obtain rfl := List.singleton_inj.1 he
      obtain ⟨hinit, hy⟩ := List.forall_mem_append.1 hlater
      exact .inr ⟨(hy e (List.mem_singleton_self e)).symm, earlier, init, rfl, hinit⟩
  · rintro (rfl | ⟨hne, earlier, later, rfl, hlater⟩)
    · exact ⟨es, [], rfl, List.forall_mem_nil _⟩
    · refine ⟨earlier, later ++ [e], by rw [List.append_assoc, List.cons_append], ?_⟩
      exact List.forall_mem_append.2 ⟨hlater, List.forall_mem_singleton.2 hne.symm⟩

theorem mem_put [Std.OrientedCmp cmp] {k : α} {v : β} {m : List (α × β)} {x : α × β}
    (hm : Increasing cmp ((put cmp k v m).map (·.1))) (hk : ∀ e ∈ m, cmp k e.1 = .eq → k = e.1) :
    x ∈ put cmp k v m ↔ x = (k, v) ∨ x.1 ≠ k ∧ x ∈ m := by
  -- No other entry has the key, since the keys of the result are in order.
  have hne : ∀ {k k' : α}, cmp k k' = .lt → k' ≠ k := by
    rintro k k' hlt rfl
    have hself : cmp k' k' = .eq := Std.ReflCmp.compare_self
    rw [hself] at hlt
    cases hlt
  induction m with
  | nil => simp [put]
  | cons e es ih =>
    obtain ⟨he, hes⟩ := List.forall_mem_cons.1 hk
    rw [put] at hm ⊢
    cases hcmp : cmp k e.1 with
    | lt =>
      rw [hcmp, List.map_cons, Increasing, List.pairwise_cons, List.forall_mem_map] at hm
      rw [List.mem_cons]
      exact or_congr_right (iff_and_self.2 fun hx => hne (hm.1 x hx))
    | eq =>
      obtain rfl := he hcmp
      rw [hcmp, List.map_cons, Increasing, List.pairwise_cons, List.forall_mem_map] at hm
      rw [List.mem_cons, List.mem_cons]
      refine or_congr_right ⟨fun hx => ⟨hne (hm.1 x hx), .inr hx⟩, ?_⟩
      rintro ⟨hx, rfl | hmem⟩
      · exact absurd rfl hx
      · exact hmem
    | gt =>
      rw [hcmp, List.map_cons, Increasing, List.pairwise_cons] at hm
      have he : e.1 ≠ k := (hne (Std.OrientedCmp.lt_of_gt hcmp)).symm
      have hrest : x ∈ put cmp k v es ↔ x = (k, v) ∨ x.1 ≠ k ∧ x ∈ es := ih hm.2 hes
      rw [List.mem_cons, List.mem_cons, hrest, or_left_comm]
      refine or_congr_right ⟨?_, ?_⟩
      · rintro (rfl | ⟨hx, hmem⟩)
        · exact ⟨he, .inl rfl⟩
        · exact ⟨hx, .inr hmem⟩
      · rintro ⟨hx, hmem⟩
        exact hmem.imp_right fun hmem => ⟨hx, hmem⟩

theorem Last.mem {x : α × β} {es : List (α × β)} (h : Last x es) : x ∈ es := by
  obtain ⟨earlier, later, rfl, -⟩ := h
  exact List.mem_append_right _ List.mem_cons_self

/-- A map binds each key as the last entry for it does. -/
theorem LawfulOn.mem_ofEntries [Std.OrientedCmp cmp] (h : LawfulOn cmp P) {es : List (α × β)}
    (hes : ∀ e ∈ es, P e.1) {x : α × β} : x ∈ ofEntries cmp es ↔ Last x es := by
  induction es using List.reverseRecOn with
  | nil => exact iff_of_false List.not_mem_nil not_last_nil
  | append_singleton es e ih =>
    obtain ⟨hinit, he⟩ := List.forall_mem_append.1 hes
    have hlast := List.forall_mem_singleton.1 he
    have hkeys : Increasing cmp ((ofEntries cmp (es ++ [e])).map (·.1)) := by
      rw [map_fst_ofEntries]
      exact (h.increasing_ofList (List.forall_mem_map.2 hes)).1
    have hbound : ∀ y ∈ ofEntries cmp es, P y.1 := by
      intro y hy
      have hkey : y.1 ∈ ofList cmp (es.map (·.1)) := by
        rw [← map_fst_ofEntries]
        exact List.mem_map_of_mem hy
      exact forall_mem_ofList (List.forall_mem_map.2 hinit) _ hkey
    rw [ofEntries_concat] at hkeys ⊢
    rw [mem_put hkeys fun y hy heq => h.eq_of_compare hlast (hbound y hy) heq, last_concat, ih hinit]

end DurableFlow.Ordered
