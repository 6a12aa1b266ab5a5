import DurableFlow.Proofs.Serializer.Standard
import DurableFlow.Scope
import Mathlib.Data.List.Nodup

/-!
# Scopes of types with names of their own
-/

namespace DurableFlow.Scope

variable {s : Scope} {o : ObjectType}

/-- Whatever object type is found by its type is found by its name as well, as no other one has taken
the name over. -/
structure Coherent (s : Scope) : Prop where
  type : ∀ t o, s.objectType? t = some o → o.type = t
  name : ∀ name o, s.resolve? name = some o → o.name = name
  resolve : ∀ t o, s.objectType? t = some o → s.resolve? o.name = some o

theorem coherent_new (id : Nat) (label : String) : (new id label).Coherent where
  type _ _ h := nomatch h
  name _ _ h := nomatch h
  resolve _ _ h := nomatch h

theorem objectType?_load (t : Ty) :
    (s.load o).objectType? t = if o.type = t then some o else s.objectType? t :=
  Bindings.get?_set _ _ _ _

theorem resolve?_load (name : String) :
    (s.load o).resolve? name = if o.name = name then some o else s.resolve? name :=
  Bindings.get?_set _ _ _ _

theorem Coherent.load (h : s.Coherent)
    (ho : ∀ t o', s.objectType? t = some o' → o'.name = o.name → t = o.type) :
    (s.load o).Coherent where
  type t o' h' := by
    rw [objectType?_load] at h'
    split_ifs at h' with ht
    · obtain rfl := Option.some.inj h'
      exact ht
    · exact h.type t o' h'
  name name o' h' := by
    rw [resolve?_load] at h'
    split_ifs at h' with hn
    · obtain rfl := Option.some.inj h'
      exact hn
    · exact h.name name o' h'
  resolve t o' h' := by
    rw [objectType?_load] at h'
    rw [resolve?_load]
    split_ifs at h' with ht
    · obtain rfl := Option.some.inj h'
      exact if_pos rfl
    · rw [if_neg fun hn => ht (ho t o' h' hn.symm).symm]
      exact h.resolve t o' h'

theorem mem_of_loadAll {os : List ObjectType} {t : Ty} (h : (os.foldl load s).objectType? t = some o) :
    o ∈ os ∨ s.objectType? t = some o := by
  induction os generalizing s with
  | nil => exact .inr h
  | cons o' os ih =>
    rcases ih h with ho | ho
    · exact .inl (List.mem_cons_of_mem _ ho)
    · rw [objectType?_load] at ho
      split_ifs at ho
      · exact .inl (List.mem_cons.2 (.inl (Option.some.inj ho).symm))
      · exact .inr ho

theorem resolved_of_loadAll {os : List ObjectType} {name : String}
    (h : (os.foldl load s).resolve? name = some o) : o ∈ os ∨ s.resolve? name = some o := by
  induction os generalizing s with
  | nil => exact .inr h
  | cons o' os ih =>
    rcases ih h with ho | ho
    · exact .inl (List.mem_cons_of_mem _ ho)
    · rw [resolve?_load] at ho
      split_ifs at ho
      · exact .inl (List.mem_cons.2 (.inl (Option.some.inj ho).symm))
      · exact .inr ho

theorem Coherent.loadAll {os : List ObjectType} (hs : s.Coherent) (hn : (os.map (·.name)).Nodup)
    (hfree : ∀ o ∈ os, ∀ t o', s.objectType? t = some o' → o'.name ≠ o.name) :
    (os.foldl Scope.load s).Coherent := by
  induction os generalizing s with
  | nil => exact hs
  | cons o os ih =>
    rw [List.map_cons, List.nodup_cons] at hn
    refine ih (hs.load fun t o' h hname => absurd hname (hfree o List.mem_cons_self t o' h)) hn.2
      fun o₂ ho₂ t o' h => ?_
    rw [objectType?_load] at h
    split_ifs at h
    · rintro hname
      rw [← Option.some.inj h] at hname
      exact hn.1 (hname ▸ List.mem_map_of_mem ho₂)
    · exact hfree o₂ (List.mem_cons_of_mem _ ho₂) t o' h

/-- Object types of the application, all of different names, of which no name is a descriptor of the library
or of a native type. -/
structure Distinct (s : Scope) : Prop extends s.Coherent where
  named : ∀ t o, s.objectType? t = some o → ∃ name label, t = .named name label
  unregistered : ∀ t o, s.objectType? t = some o → Registry.standard.byDescriptor.get? o.name = none
  foreign : ∀ t : Ty, t.isNative = true → s.resolve? t.name = none

/-- Object types that are in nobody's way. -/
structure Apart (os : List ObjectType) : Prop where
  names : (os.map (·.name)).Nodup
  types : (os.map (·.type)).Nodup
  named : ∀ o ∈ os, ∃ name label, o.type = .named name label
  unregistered : ∀ o ∈ os, Registry.standard.byDescriptor.get? o.name = none
  foreign : ∀ o ∈ os, ∀ t : Ty, t.isNative = true → o.name ≠ t.name

theorem Apart.coherent {os : List ObjectType} (h : Apart os) (id : Nat) (label : String) :
    (os.foldl load (new id label)).Coherent :=
  (coherent_new id label).loadAll h.names fun _ _ _ _ h => nomatch h

theorem Apart.mem {os : List ObjectType} (h : Apart os) {id : Nat} {label : String} {t : Ty}
    (ho : (os.foldl load (new id label)).objectType? t = some o) : o ∈ os ∧ o.type = t :=
  ⟨(mem_of_loadAll ho).resolve_right (fun h => nomatch h), (h.coherent id label).type t o ho⟩

theorem Apart.distinct {os : List ObjectType} (h : Apart os) (id : Nat) (label : String) :
    (os.foldl load (new id label)).Distinct where
  toCoherent := h.coherent id label
  named t o ho := by
    obtain ⟨hmem, rfl⟩ := h.mem ho
    exact h.named o hmem
  unregistered t o ho := h.unregistered o (h.mem ho).1
  foreign t ht := by
    cases ho : (os.foldl load (new id label)).resolve? t.name with
    | none => rfl
    | some o =>
      have hmem := (resolved_of_loadAll ho).resolve_right fun h => nomatch h
      exact absurd ((h.coherent id label).name _ _ ho) (h.foreign o hmem t ht)

theorem Apart.eq_of_objectType? {os : List ObjectType} (h : Apart os) {id : Nat} {label : String}
    {o' : ObjectType} (ho : o ∈ os)
    (ho' : (os.foldl load (new id label)).objectType? o.type = some o') : o' = o := by
  obtain ⟨hmem, htype⟩ := h.mem ho'
  exact List.inj_on_of_nodup_map h.types hmem ho htype

end DurableFlow.Scope
