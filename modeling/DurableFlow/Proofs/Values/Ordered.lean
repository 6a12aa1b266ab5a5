import DurableFlow.Ordered
import Mathlib.Data.List.Induction

/-!
# Adding to lists in order

What has been added once is found again, whatever else is added, and a list in increasing order is what
adding its items one after the other makes.
-/

namespace DurableFlow.Ordered

variable {α β : Type} {cmp : α → α → Ordering}

theorem insert_insert_self [Std.ReflCmp cmp] (x : α) (xs : List α) :
    insert cmp x (insert cmp x xs) = insert cmp x xs := by
  induction xs with
  | nil => simp only [insert, Std.ReflCmp.compare_self]
  | cons y ys ih =>
    cases h : cmp x y with
    | lt => simp only [insert, h, Std.ReflCmp.compare_self]
    | eq => simp only [insert, h]
    | gt => simp only [insert, h, ih]

theorem insert_insert_eq [Std.TransCmp cmp] {x : α} {xs : List α} (h : insert cmp x xs = xs) (y : α) :
    insert cmp x (insert cmp y xs) = insert cmp y xs := by
  induction xs with
  | nil => simp [insert] at h
  | cons z zs ih =>
    cases hx : cmp x z with
    | lt =>
      simp only [insert, hx] at h
      exact absurd (congrArg List.length h) (by simp)
    | eq =>
      cases hy : cmp y z with
      | lt =>
        have hxy : cmp x y = .gt := by
          rw [Std.OrientedCmp.gt_iff_lt, Std.TransCmp.congr_right hx]
          exact hy
        simp only [insert, hy, hx, hxy]
      | eq => simp only [insert, hy, hx]
      | gt => simp only [insert, hy, hx]
    | gt =>
      simp only [insert, hx, List.cons.injEq, true_and] at h
      cases hy : cmp y z with
      | lt =>
        have hxy : cmp x y = .gt := Std.TransCmp.gt_trans hx (Std.OrientedCmp.gt_of_lt hy)
        simp only [insert, hy, hx, hxy, h]
      | eq => simp only [insert, hy, hx, h]
      | gt => simp only [insert, hy, hx, ih h]

theorem insert_foldl_eq [Std.TransCmp cmp] {x : α} (ys : List α) {xs : List α}
    (h : insert cmp x xs = xs) :
    insert cmp x (ys.foldl (fun xs y => insert cmp y xs) xs) =
      ys.foldl (fun xs y => insert cmp y xs) xs := by
  induction ys generalizing xs with
  | nil => exact h
  | cons y ys ih => exact ih (insert_insert_eq h y)

theorem foldl_insert_eq [Std.TransCmp cmp] {ys xs : List α} (h : ∀ y ∈ ys, insert cmp y xs = xs) :
    ys.foldl (fun xs y => insert cmp y xs) xs = xs := by
  induction ys with
  | nil => rfl
  | cons y ys ih =>
    rw [List.foldl_cons, h y List.mem_cons_self]
    exact ih fun z hz => h z (List.mem_cons_of_mem _ hz)

theorem insert_foldl_of_mem [Std.TransCmp cmp] {x : α} {ys : List α} (h : x ∈ ys) (xs : List α) :
    insert cmp x (ys.foldl (fun xs y => insert cmp y xs) xs) =
      ys.foldl (fun xs y => insert cmp y xs) xs := by
  induction ys generalizing xs with
  | nil => cases h
  | cons y ys ih =>
    rcases List.mem_cons.1 h with rfl | h
    · exact insert_foldl_eq ys (insert_insert_self x xs)
    · exact ih h _

theorem forall_mem_insert {Q : α → Prop} {x : α} {ys : List α} (hx : Q x) (hys : ∀ y ∈ ys, Q y) :
    ∀ y ∈ insert cmp x ys, Q y := by
  induction ys with
  | nil => exact List.forall_mem_singleton.2 hx
  | cons y ys ih =>
    obtain ⟨hy, hrest⟩ := List.forall_mem_cons.1 hys
    rw [insert]
    split
    · exact List.forall_mem_cons.2 ⟨hx, hys⟩
    · exact hys
    · exact List.forall_mem_cons.2 ⟨hy, ih hrest⟩

theorem forall_mem_ofList {Q : α → Prop} {xs : List α} (hxs : ∀ x ∈ xs, Q x) :
    ∀ x ∈ ofList cmp xs, Q x :=
  List.foldlRecOn xs _ (motive := fun ys => ∀ y ∈ ys, Q y) (List.forall_mem_nil _) fun _ hys x hx =>
    forall_mem_insert (hxs x hx) hys

theorem forall_mem_put {K : α → Prop} {V : β → Prop} {k : α} {v : β} {es : List (α × β)} (hk : K k)
    (hv : V v) (hes : ∀ e ∈ es, K e.1 ∧ V e.2) : ∀ e ∈ put cmp k v es, K e.1 ∧ V e.2 := by
  induction es with
  | nil => exact List.forall_mem_singleton.2 ⟨hk, hv⟩
  | cons e es ih =>
    obtain ⟨he, hrest⟩ := List.forall_mem_cons.1 hes
    rw [put]
    split
    · exact List.forall_mem_cons.2 ⟨⟨hk, hv⟩, hes⟩
    · exact List.forall_mem_cons.2 ⟨⟨he.1, hv⟩, hrest⟩
    · exact List.forall_mem_cons.2 ⟨he, ih hrest⟩

theorem forall_mem_ofEntries {K : α → Prop} {V : β → Prop} {es : List (α × β)}
    (hes : ∀ e ∈ es, K e.1 ∧ V e.2) : ∀ e ∈ ofEntries cmp es, K e.1 ∧ V e.2 :=
  List.foldlRecOn es _ (motive := fun m : List (α × β) => ∀ e ∈ m, K e.1 ∧ V e.2)
    (List.forall_mem_nil _) fun _ hm e he => forall_mem_put (hes e he).1 (hes e he).2 hm

theorem mem_insert [Std.LawfulEqCmp cmp] {x y : α} {ys : List α} :
    x ∈ insert cmp y ys ↔ x = y ∨ x ∈ ys := by
  induction ys with
  | nil => simp only [insert, List.mem_singleton, List.not_mem_nil, or_false]
  | cons z zs ih =>
    cases h : cmp y z with
    | lt => simp only [insert, h, List.mem_cons]
    | eq =>
      obtain rfl := Std.LawfulEqCmp.eq_of_compare h
      simp only [insert, h, List.mem_cons, or_self_left]
    | gt => simp only [insert, h, List.mem_cons, ih, or_left_comm]

theorem mem_foldl_insert [Std.LawfulEqCmp cmp] {x : α} {ys xs : List α} :
    x ∈ ys.foldl (fun xs y => insert cmp y xs) xs ↔ x ∈ xs ∨ x ∈ ys := by
  induction ys generalizing xs with
  | nil => simp only [List.foldl_nil, List.not_mem_nil, or_false]
  | cons y ys ih => rw [List.foldl_cons, ih, mem_insert, List.mem_cons, or_comm (a := x = y), or_assoc]

theorem mem_ofList [Std.LawfulEqCmp cmp] {x : α} {xs : List α} : x ∈ ofList cmp xs ↔ x ∈ xs := by
  rw [ofList, mem_foldl_insert]
  simp only [List.not_mem_nil, false_or]

theorem Increasing.insert [Std.TransCmp cmp] [Std.LawfulEqCmp cmp] {ys : List α}
    (h : Increasing cmp ys) (x : α) : Increasing cmp (insert cmp x ys) := by
  induction ys with
  | nil => exact List.pairwise_singleton _ _
  | cons y ys ih =>
    obtain ⟨hy, hys⟩ := List.pairwise_cons.1 h
    cases hx : cmp x y with
    | lt =>
      simp only [Ordered.insert, hx]
      refine List.Pairwise.cons (fun z hz => ?_) h
      rcases List.mem_cons.1 hz with rfl | hz
      · exact hx
      · exact Std.TransCmp.lt_trans hx (hy z hz)
    | eq =>
      simp only [Ordered.insert, hx]
      exact h
    | gt =>
      simp only [Ordered.insert, hx]
      refine List.Pairwise.cons (fun z hz => ?_) (ih hys)
      rcases mem_insert.1 hz with rfl | hz
      · exact Std.OrientedCmp.lt_of_gt hx
      · exact hy z hz

theorem Increasing.foldl_insert [Std.TransCmp cmp] [Std.LawfulEqCmp cmp] {xs : List α}
    (h : Increasing cmp xs) (ys : List α) :
    Increasing cmp (ys.foldl (fun xs y => Ordered.insert cmp y xs) xs) := by
  induction ys generalizing xs with
  | nil => exact h
  | cons y ys ih => exact ih (h.insert y)

theorem increasing_ofList [Std.TransCmp cmp] [Std.LawfulEqCmp cmp] (xs : List α) :
    Increasing cmp (ofList cmp xs) :=
  Increasing.foldl_insert List.Pairwise.nil xs

theorem Increasing.nodup [Std.LawfulEqCmp cmp] {xs : List α} (h : Increasing cmp xs) : xs.Nodup := by
  refine List.Pairwise.imp (fun {x y} hxy => ?_) h
  rintro rfl
  have hself : cmp x x = .eq := Std.ReflCmp.compare_self
  rw [hself] at hxy
  cases hxy

theorem insert_of_forall_lt [Std.OrientedCmp cmp] {x : α} {ys : List α}
    (h : ∀ y ∈ ys, cmp y x = .lt) : insert cmp x ys = ys ++ [x] := by
  induction ys with
  | nil => rfl
  | cons y ys ih =>
    have hy : cmp x y = .gt := Std.OrientedCmp.gt_of_lt (h y List.mem_cons_self)
    simp only [insert, hy, List.cons_append]
    rw [ih fun z hz => h z (List.mem_cons_of_mem _ hz)]

theorem foldl_insert_append [Std.OrientedCmp cmp] {xs ys : List α} (h : Increasing cmp (ys ++ xs)) :
    xs.foldl (fun ys x => insert cmp x ys) ys = ys ++ xs := by
  induction xs generalizing ys with
  | nil => exact (List.append_nil ys).symm
  | cons x xs ih =>
    have hx : ∀ y ∈ ys, cmp y x = .lt := fun y hy =>
      (List.pairwise_append.1 h).2.2 y hy x List.mem_cons_self
    rw [List.foldl_cons, insert_of_forall_lt hx, ih, List.append_assoc, List.singleton_append]
    rwa [List.append_assoc, List.singleton_append]

theorem ofList_of_increasing [Std.OrientedCmp cmp] {xs : List α} (h : Increasing cmp xs) :
    ofList cmp xs = xs :=
  foldl_insert_append h

theorem put_of_forall_lt [Std.OrientedCmp cmp] {k : α} {es : List (α × β)} (v : β)
    (h : ∀ e ∈ es, cmp e.1 k = .lt) : put cmp k v es = es ++ [(k, v)] := by
  induction es with
  | nil => rfl
  | cons e es ih =>
    have he : cmp k e.1 = .gt := Std.OrientedCmp.gt_of_lt (h e List.mem_cons_self)
    simp only [put, he, List.cons_append]
    rw [ih fun z hz => h z (List.mem_cons_of_mem _ hz)]

theorem foldl_put_append [Std.OrientedCmp cmp] {es done : List (α × β)}
    (h : Increasing cmp ((done ++ es).map (·.1))) :
    es.foldl (fun m e => put cmp e.1 e.2 m) done = done ++ es := by
  induction es generalizing done with
  | nil => exact (List.append_nil done).symm
  | cons e es ih =>
    have he : ∀ z ∈ done, cmp z.1 e.1 = .lt := by
      intro z hz
      rw [Increasing, List.map_append, List.pairwise_append] at h
      exact h.2.2 z.1 (List.mem_map_of_mem hz) e.1 List.mem_cons_self
    rw [List.foldl_cons, put_of_forall_lt e.2 he, ih, List.append_assoc, List.singleton_append]
    rwa [List.append_assoc, List.singleton_append]

/-- A map in the order of its keys is what binding them one after the other makes. -/
theorem ofEntries_of_increasing [Std.OrientedCmp cmp] {es : List (α × β)}
    (h : Increasing cmp (es.map (·.1))) : ofEntries cmp es = es :=
  foldl_put_append h

theorem perm_put {k : α} (v : β) {es : List (α × β)} (h : ∀ e ∈ es, cmp k e.1 ≠ .eq) :
    (put cmp k v es).Perm ((k, v) :: es) := by
  induction es with
  | nil => exact .refl _
  | cons e es ih =>
    obtain ⟨he, hes⟩ := List.forall_mem_cons.1 h
    rw [put]
    cases hcmp : cmp k e.1 with
    | lt => exact .refl _
    | eq => exact absurd hcmp he
    | gt => exact ((ih hes).cons e).trans (.swap _ _ _)

theorem ofEntries_concat (es : List (α × β)) (e : α × β) :
    ofEntries cmp (es ++ [e]) = put cmp e.1 e.2 (ofEntries cmp es) := List.foldl_append

/-- Where no two keys count as the same, no entry takes the place of another one. -/
theorem perm_ofEntries {es : List (α × β)} (h : (es.map (·.1)).Pairwise fun k k' => cmp k' k ≠ .eq) :
    (ofEntries cmp es).Perm es := by
  induction es using List.reverseRecOn with
  | nil => exact .refl _
  | append_singleton es e ih =>
    rw [List.map_append, List.pairwise_append] at h
    obtain ⟨hes, -, hlast⟩ := h
    have hput : ∀ d ∈ ofEntries cmp es, cmp e.1 d.1 ≠ .eq := fun d hd =>
      hlast d.1 (List.mem_map_of_mem ((ih hes).mem_iff.1 hd)) e.1 (.head _)
    rw [ofEntries_concat]
    exact ((perm_put e.2 hput).trans ((ih hes).cons e)).trans (List.perm_append_singleton e es).symm

end DurableFlow.Ordered
