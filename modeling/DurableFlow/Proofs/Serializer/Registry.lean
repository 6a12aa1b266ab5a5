import DurableFlow.Proofs.Serializer.Bindings
import DurableFlow.Serializer.Registry
import Mathlib.Data.List.Nodup

/-!
# Registries step by step

In a registry that grew from the empty one every serializer is bound by its type and by its descriptor,
or by neither. Offering it serializers one after the other binds to each type the last one that was
bound anew, and those whose descriptors are taken are passed over.
-/

namespace DurableFlow.Registry

variable {r r' : Registry} {s s' : Serializer}

/-- What is bound by descriptor is what is bound by type. -/
structure Consistent (r : Registry) : Prop where
  target : ∀ t s, r.byType.get? t = some s → s.target = t
  byDescriptor_iff : ∀ d s,
    r.byDescriptor.get? d = some s ↔ s.descriptor = d ∧ r.byType.get? s.target = some s

theorem consistent_empty : empty.Consistent where
  target t s h := by cases h
  byDescriptor_iff d s := iff_of_false (fun h => nomatch h) fun h => nomatch h.2

theorem conflicts_eq_false_iff :
    r.conflicts s = false ↔ ∀ s', r.byDescriptor.get? s.descriptor = some s' → s'.target = s.target := by
  rw [conflicts]
  cases r.byDescriptor.get? s.descriptor <;> simp

theorem byType_bind (t : Ty) :
    (r.bind s).byType.get? t = if s.target = t then some s else r.byType.get? t :=
  Bindings.get?_set _ _ _ _

theorem byDescriptor_bind (d : String) :
    (r.bind s).byDescriptor.get? d =
      if s.descriptor = d then some s
      else if (r.byType.get? s.target).any (·.descriptor = d) then none
      else r.byDescriptor.get? d := by
  rw [bind, Bindings.get?_set]
  cases h : r.byType.get? s.target with
  | none => simp
  | some current => simp [Bindings.get?_erase]

theorem Consistent.bind (h : r.Consistent) (hs : r.conflicts s = false) : (r.bind s).Consistent where
  target t x hx := by
    rw [byType_bind] at hx
    split_ifs at hx with ht
    · obtain rfl := Option.some.inj hx
      exact ht
    · exact h.target t x hx
  byDescriptor_iff d x := by
    rw [conflicts_eq_false_iff] at hs
    rw [byDescriptor_bind, byType_bind]
    by_cases hd : s.descriptor = d
    · rw [if_pos hd]
      constructor
      · intro hx
        obtain rfl := Option.some.inj hx
        exact ⟨hd, if_pos rfl⟩
      · rintro ⟨hxd, hx⟩
        split_ifs at hx with ht
        · exact hx
        · -- another serializer of this descriptor would have been a conflict
          have hx' := (h.byDescriptor_iff s.descriptor x).2 ⟨hxd.trans hd.symm, hx⟩
          exact absurd (hs x hx').symm ht
    · rw [if_neg hd]
      constructor
      · intro hx
        split_ifs at hx with hcd
        obtain ⟨hxd, hx'⟩ := (h.byDescriptor_iff d x).1 hx
        refine ⟨hxd, ?_⟩
        rw [if_neg]
        · exact hx'
        · -- the serializer that gives way has lost its descriptor
          intro ht
          rw [ht, hx'] at hcd
          exact hcd (by simp [hxd])
      · rintro ⟨hxd, hx⟩
        split_ifs at hx with ht
        · obtain rfl := Option.some.inj hx
          exact absurd hxd hd
        · have hx' := (h.byDescriptor_iff d x).2 ⟨hxd, hx⟩
          rw [if_neg]
          · exact hx'
          · intro hcd
            obtain ⟨current, hc, hcd⟩ := (Option.any_eq_true _ _).1 hcd
            have hct := h.target _ _ hc
            have hc' := (h.byDescriptor_iff d current).2 ⟨of_decide_eq_true hcd, by rwa [hct]⟩
            rw [hx', Option.some.injEq] at hc'
            rw [← hc'] at hct
            exact ht hct.symm

theorem Consistent.byDescriptor_congr (h : r.Consistent) (h' : r'.Consistent)
    (ht : ∀ t, r'.byType.get? t = r.byType.get? t) (d : String) :
    r'.byDescriptor.get? d = r.byDescriptor.get? d := by
  apply Option.ext
  intro s
  rw [h.byDescriptor_iff, h'.byDescriptor_iff, ht]

theorem Consistent.byDescriptor_of_byType (h : r.Consistent) {t : Ty} (hs : r.byType.get? t = some s) :
    r.byDescriptor.get? s.descriptor = some s := by
  have htarget := h.target t s hs
  exact (h.byDescriptor_iff s.descriptor s).2 ⟨rfl, htarget.symm ▸ hs⟩

structure Distinct (r : Registry) : Prop where
  types : r.byType.keys.Nodup
  descriptors : r.byDescriptor.keys.Nodup

theorem distinct_empty : empty.Distinct := ⟨List.nodup_nil, List.nodup_nil⟩

theorem Distinct.bind (h : r.Distinct) (s : Serializer) : (r.bind s).Distinct := by
  refine ⟨Bindings.nodup_keys_set h.types _ _, Bindings.nodup_keys_set ?_ _ _⟩
  cases r.byType.get? s.target with
  | none => exact h.descriptors
  | some current => exact Bindings.nodup_keys_erase h.descriptors _

theorem mem_descriptors_iff {name : String} :
    name ∈ r.descriptors ↔ (r.byDescriptor.get? name).isSome := by
  rw [descriptors, List.mem_mergeSort, Bindings.isSome_get?_iff]

theorem Distinct.nodup_descriptors (h : r.Distinct) : r.descriptors.Nodup :=
  (List.mergeSort_perm _ _).nodup_iff.2 h.descriptors

theorem Consistent.length_descriptors (hc : r.Consistent) (hd : r.Distinct) :
    r.descriptors.length = r.size := by
  have hbound : ∀ e ∈ r.byType.list,
      e.2.target = e.1 ∧ r.byDescriptor.get? e.2.descriptor = some e.2 := by
    intro e he
    have hget := Bindings.get?_of_mem hd.types he
    exact ⟨hc.target _ _ hget, hc.byDescriptor_of_byType hget⟩
  have hnodup : (r.byType.list.map (·.2.descriptor)).Nodup := by
    refine List.Nodup.map_on (fun a ha b hb hab => ?_) (List.Nodup.of_map _ hd.types)
    obtain ⟨hta, hda⟩ := hbound a ha
    obtain ⟨htb, hdb⟩ := hbound b hb
    rw [hab, hdb, Option.some.injEq] at hda
    exact Prod.ext (by rw [← hta, ← htb, hda]) hda.symm
  have hperm : r.byDescriptor.keys.Perm (r.byType.list.map (·.2.descriptor)) := by
    refine (List.perm_ext_iff_of_nodup hd.descriptors hnodup).2 fun name => ?_
    rw [← Bindings.isSome_get?_iff, Option.isSome_iff_exists, List.mem_map]
    constructor
    · rintro ⟨s, hs⟩
      obtain ⟨hname, hs⟩ := (hc.byDescriptor_iff _ _).1 hs
      exact ⟨(s.target, s), Bindings.mem_of_get? hs, hname⟩
    · rintro ⟨e, he, rfl⟩
      exact ⟨e.2, (hbound e he).2⟩
  rw [descriptors, List.length_mergeSort, hperm.length_eq, List.length_map, size, Bindings.size]

theorem add_of_conflicts (replace : Bool) (h : r.conflicts s = true) :
    r.add replace s = .error (.descriptorConflict s.descriptor) := if_pos h

theorem add_false_of_bound (h : r.conflicts s = false) (hb : (r.byType.get? s.target).isSome) :
    ∃ o, r.add false s = .ok (r, o) ∧ ∀ id, o ≠ .replaced id := by
  obtain ⟨current, hc⟩ := Option.isSome_iff_exists.1 hb
  simp only [add, h, hc, Bool.false_eq_true, if_false]
  by_cases hid : current.id = s.id
  · exact ⟨.unchanged, if_pos hid, by simp⟩
  · exact ⟨.kept current.id, if_neg hid, by simp⟩

/-- What it can come to that a serializer is registered: the registry afterwards, and what is reported. -/
inductive Registers (r : Registry) (replace : Bool) (s : Serializer) : Registry → Registration → Prop
  | added (hfree : r.byType.get? s.target = none) : Registers r replace s (r.bind s) .added
  | unchanged {current : Serializer} (hbound : r.byType.get? s.target = some current)
      (hid : current.id = s.id) : Registers r replace s r .unchanged
  | replaced {current : Serializer} (hbound : r.byType.get? s.target = some current)
      (hid : current.id ≠ s.id) (hreplace : replace = true) :
      Registers r replace s (r.bind s) (.replaced current.id)
  | kept {current : Serializer} (hbound : r.byType.get? s.target = some current)
      (hid : current.id ≠ s.id) (hreplace : replace = false) :
      Registers r replace s r (.kept current.id)

theorem registers_of_add {replace : Bool} {o : Registration} (h : r.add replace s = .ok (r', o)) :
    r.conflicts s = false ∧ r.Registers replace s r' o := by
  rw [add] at h
  cases hc : r.conflicts s with
  | true =>
    rw [if_pos hc] at h
    cases h
  | false =>
    rw [if_neg (by simp [hc])] at h
    refine ⟨rfl, ?_⟩
    cases hb : r.byType.get? s.target with
    | none =>
      rw [hb] at h
      obtain ⟨rfl, rfl⟩ := Prod.mk.inj (Except.ok.inj h)
      exact .added hb
    | some current =>
      simp only [hb] at h
      split_ifs at h with hid hreplace <;> obtain ⟨rfl, rfl⟩ := Prod.mk.inj (Except.ok.inj h)
      · exact .unchanged hb hid
      · exact .replaced hb hid hreplace
      · exact .kept hb hid (Bool.not_eq_true _ ▸ hreplace)

theorem add_eq_ok {replace : Bool} {o : Registration} (h : r.add replace s = .ok (r', o)) :
    r.conflicts s = false ∧ (r' = r ∧ (r.byType.get? s.target).isSome ∨ r' = r.bind s) := by
  obtain ⟨hc, hmade⟩ := registers_of_add h
  refine ⟨hc, ?_⟩
  cases hmade with
  | added | replaced => exact .inr rfl
  | unchanged hbound | kept hbound => exact .inl ⟨rfl, hbound ▸ rfl⟩

theorem Consistent.add {replace : Bool} {o : Registration} (hr : r.Consistent)
    (h : r.add replace s = .ok (r', o)) : r'.Consistent := by
  obtain ⟨hc, ⟨rfl, -⟩ | rfl⟩ := add_eq_ok h
  · exact hr
  · exact hr.bind hc

theorem Distinct.add {replace : Bool} {o : Registration} (hr : r.Distinct)
    (h : r.add replace s = .ok (r', o)) : r'.Distinct := by
  obtain ⟨-, ⟨rfl, -⟩ | rfl⟩ := add_eq_ok h
  · exact hr
  · exact hr.bind s

theorem eq_of_add {replace : Bool} {o : Registration} (h : r.add replace s = .ok (r', o))
    (ho : o = .unchanged ∨ ∃ id, o = .kept id) : r' = r := by
  obtain ⟨-, hmade⟩ := registers_of_add h
  cases hmade with
  | unchanged | kept => rfl
  | added | replaced => simp at ho

theorem byType_add_of_ne {replace : Bool} {o : Registration} (h : r.add replace s = .ok (r', o))
    {t : Ty} (ht : s.target ≠ t) : r'.byType.get? t = r.byType.get? t := by
  obtain ⟨-, ⟨rfl, -⟩ | rfl⟩ := add_eq_ok h
  · rfl
  · rw [byType_bind, if_neg ht]

theorem id_add_true {o : Registration} (h : r.add true s = .ok (r', o)) :
    (r'.byType.get? s.target).map (·.id) = some s.id := by
  obtain ⟨-, hmade⟩ := registers_of_add h
  cases hmade with
  | added | replaced => rw [byType_bind, if_pos rfl, Option.map_some]
  | unchanged hbound hid => rw [hbound, Option.map_some, hid]
  | kept _ _ hreplace => cases hreplace

theorem byType_add_false {o : Registration} (h : r.add false s = .ok (r', o)) :
    r'.byType.get? s.target = (r.byType.get? s.target).or (some s) := by
  obtain ⟨-, hmade⟩ := registers_of_add h
  cases hmade with
  | added hfree => rw [byType_bind, if_pos rfl, hfree, Option.none_or]
  | unchanged hbound | kept hbound => rw [hbound, Option.some_or]
  | replaced _ _ hreplace => cases hreplace

theorem bound_of_add {replace : Bool} {o : Registration} (h : r.add replace s = .ok (r', o)) {t : Ty}
    (ht : t = s.target ∨ (r.byType.get? t).isSome) : (r'.byType.get? t).isSome := by
  obtain ⟨-, ⟨rfl, hb⟩ | rfl⟩ := add_eq_ok h
  · rcases ht with rfl | ht
    · exact hb
    · exact ht
  · rw [byType_bind]
    split_ifs with hst
    · rfl
    · rcases ht with rfl | ht
      · exact absurd rfl hst
      · exact ht

def accepts (r : Registry) (s : Serializer) : Bool :=
  !r.conflicts s && (r.byType.get? s.target).all (·.id ≠ s.id)

/-- The registry after a serializer has been offered, which one of a taken descriptor leaves alone. -/
def offer (r : Registry) (s : Serializer) : Registry := if r.accepts s then r.bind s else r

def offerAll (r : Registry) (cs : List Serializer) : Registry := cs.foldl offer r

theorem offer_of_conflicts (h : r.conflicts s = true) : r.offer s = r := by
  rw [offer, accepts, h]
  rfl

theorem register_eq : r.register s =
    if r.conflicts s then .error (.descriptorConflict s.descriptor)
    else .ok (r.offer s, match r.byType.get? s.target with
      | none => .added
      | some current => if current.id = s.id then .unchanged else .replaced current.id) := by
  rw [register, add]
  cases hc : r.conflicts s with
  | true => rfl
  | false =>
    rw [offer, accepts, hc]
    cases hb : r.byType.get? s.target with
    | none => rfl
    | some current => by_cases hid : current.id = s.id <;> simp [hid]

theorem Consistent.offer (h : r.Consistent) : (r.offer s).Consistent := by
  rw [Registry.offer]
  split_ifs with ha
  · rw [accepts, Bool.and_eq_true, Bool.not_eq_true'] at ha
    exact h.bind ha.1
  · exact h

theorem Consistent.offerAll (h : r.Consistent) (cs : List Serializer) : (r.offerAll cs).Consistent := by
  induction cs generalizing r with
  | nil => exact h
  | cons c cs ih => exact ih h.offer

theorem bound_of_offerAll {t : Ty} (h : (r.byType.get? t).isSome) (cs : List Serializer) :
    ((r.offerAll cs).byType.get? t).isSome := by
  induction cs generalizing r with
  | nil => exact h
  | cons c cs ih =>
    apply ih
    rw [offer]
    split_ifs
    · rw [byType_bind]
      split_ifs
      · rfl
      · exact h
    · exact h

/-- The serializer that is bound to a type last, if any is, when these are offered one by one. -/
def lastBound (r : Registry) (t : Ty) : List Serializer → Option Serializer
  | [] => none
  | c :: cs => (lastBound (r.offer c) t cs).or (if r.accepts c ∧ c.target = t then some c else none)

theorem byType_offerAll (r : Registry) (t : Ty) (cs : List Serializer) :
    (r.offerAll cs).byType.get? t = (r.lastBound t cs).or (r.byType.get? t) := by
  induction cs generalizing r with
  | nil => rfl
  | cons c cs ih =>
    refine (ih (r.offer c)).trans ?_
    rw [lastBound, Option.or_assoc, offer]
    congr 1
    by_cases ha : r.accepts c = true
    · rw [if_pos ha, byType_bind]
      by_cases ht : c.target = t <;> simp [ha, ht]
    · rw [if_neg ha, if_neg fun h => ha h.1, Option.none_or]

/-- To each type, if anything, what is bound already is bound last. -/
def Settled (r : Registry) (cs : List Serializer) : Prop :=
  ∀ t s, r.lastBound t cs = some s → r.byType.get? t = some s

theorem settled_iff {cs : List Serializer} :
    r.Settled cs ↔ ∀ t, (r.offerAll cs).byType.get? t = r.byType.get? t := by
  constructor
  · intro h t
    rw [byType_offerAll]
    cases hl : r.lastBound t cs with
    | none => rfl
    | some s => exact (h t s hl).symm
  · intro h t s hl
    rw [← h t, byType_offerAll, hl]
    rfl

end DurableFlow.Registry
