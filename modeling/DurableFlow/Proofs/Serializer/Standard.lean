import DurableFlow.Builtin.Standard
import DurableFlow.Proofs.Serializer.Registry
import DurableFlow.Proofs.Types.Name

/-!
# The registry of the library

Its serializers are of different types and have different descriptors, all with a dot, so that none of them
is in the way of another one or of a native type.
-/

namespace DurableFlow

namespace Registry

variable {r : Registry} {ss : List Serializer}

/-- None of the serializers is in the way of another one or of what is bound. -/
structure Fresh (r : Registry) (ss : List Serializer) : Prop where
  targets : (ss.map (·.target)).Nodup
  descriptors : (ss.map (·.descriptor)).Nodup
  unbound : ∀ s ∈ ss, r.byType.get? s.target = none
  unregistered : ∀ s ∈ ss, r.byDescriptor.get? s.descriptor = none

theorem byDescriptor_bind_of_unbound {s : Serializer} (h : r.byType.get? s.target = none)
    (d : String) :
    (r.bind s).byDescriptor.get? d = if s.descriptor = d then some s else r.byDescriptor.get? d := by
  rw [byDescriptor_bind, h, Option.any_none, if_neg Bool.false_ne_true]

theorem Fresh.tail {s : Serializer} (h : r.Fresh (s :: ss)) : (r.bind s).Fresh ss where
  targets := (List.nodup_cons.1 h.targets).2
  descriptors := (List.nodup_cons.1 h.descriptors).2
  unbound s' hs' := by
    rw [byType_bind, if_neg]
    · exact h.unbound s' (List.mem_cons_of_mem _ hs')
    · intro he
      exact (List.nodup_cons.1 h.targets).1 (List.mem_map.2 ⟨s', hs', he.symm⟩)
  unregistered s' hs' := by
    rw [byDescriptor_bind_of_unbound (h.unbound s List.mem_cons_self), if_neg]
    · exact h.unregistered s' (List.mem_cons_of_mem _ hs')
    · intro he
      exact (List.nodup_cons.1 h.descriptors).1 (List.mem_map.2 ⟨s', hs', he.symm⟩)

theorem Fresh.add {s : Serializer} (h : r.Fresh (s :: ss)) : r.add false s = .ok (r.bind s, .added) := by
  have hd := h.unregistered s List.mem_cons_self
  have ht := h.unbound s List.mem_cons_self
  simp only [Registry.add, conflicts, hd, ht, Option.any_none, Bool.false_eq_true, if_false]

theorem Fresh.byType_foldl (h : r.Fresh ss) (t : Ty) :
    (ss.foldl bind r).byType.get? t = (ss.find? (·.target = t)).or (r.byType.get? t) := by
  induction ss generalizing r with
  | nil => rfl
  | cons s ss ih =>
    rw [List.foldl_cons, ih h.tail, byType_bind]
    exact Bindings.find?_or_of_nodup h.targets t _

theorem Fresh.byDescriptor_foldl (h : r.Fresh ss) (d : String) :
    (ss.foldl bind r).byDescriptor.get? d =
      (ss.find? (·.descriptor = d)).or (r.byDescriptor.get? d) := by
  induction ss generalizing r with
  | nil => rfl
  | cons s ss ih =>
    rw [List.foldl_cons, ih h.tail, byDescriptor_bind_of_unbound (h.unbound s List.mem_cons_self)]
    exact Bindings.find?_or_of_nodup h.descriptors d _

/-- The serializers of the library in the order of their registration. -/
def library : List Serializer :=
  Builtin.standard ++ Builtin.serializer .publicKey :: Builtin.security

/-- The registry with the serializers of the library alone. -/
def standard : Registry := library.foldl bind .empty

theorem fresh_library : empty.Fresh library where
  targets := by decide +kernel
  descriptors := by decide +kernel
  unbound _ _ := rfl
  unregistered _ _ := rfl

theorem byType_standard (t : Ty) : standard.byType.get? t = library.find? (·.target = t) :=
  (fresh_library.byType_foldl t).trans Option.or_none

theorem byDescriptor_standard (d : String) :
    standard.byDescriptor.get? d = library.find? (·.descriptor = d) :=
  (fresh_library.byDescriptor_foldl d).trans Option.or_none

variable {s : Serializer}

theorem bound_of_mem (h : s ∈ library) :
    standard.byType.get? s.target = some s ∧ standard.byDescriptor.get? s.descriptor = some s := by
  rw [byType_standard, byDescriptor_standard]
  exact ⟨Bindings.find?_of_mem fresh_library.targets h, Bindings.find?_of_mem fresh_library.descriptors h⟩

theorem boxed_mem {t : Ty} (h : t ∈ Builtin.boxedTypes) : Builtin.boxed t ∈ library :=
  List.mem_append_left _ (List.mem_append_right _ (List.mem_map_of_mem h))

/-- A type that is not the library's own and not held in a box has no serializer there. -/
theorem byType_eq_none {t : Ty} (ht : ∀ b, t ≠ .builtin b) (h : t ∉ Builtin.boxedTypes) :
    standard.byType.get? t = none := by
  have htarget : ∀ s ∈ library, s.target.ctorIdx = (Ty.builtin .throwable).ctorIdx ∨
      s.target ∈ Builtin.boxedTypes := by decide +kernel
  rw [byType_standard, List.find?_eq_none]
  intro s hs he
  have he := of_decide_eq_true he
  rcases htarget s hs with hidx | hboxed
  · rw [he] at hidx
    cases t with
    | builtin b => exact ht b rfl
    | _ => cases hidx
  · rw [he] at hboxed
    exact h hboxed

theorem byDescriptor_name {t : Ty} (ht : t.isNative = true) :
    standard.byDescriptor.get? t.name = none := by
  have hdot : ∀ s ∈ library, '.' ∈ s.descriptor.toList := by decide +kernel
  rw [byDescriptor_standard, List.find?_eq_none]
  intro s hs he
  have hname := hdot s hs
  rw [of_decide_eq_true he] at hname
  exact Ty.dot_not_mem_name ht hname

end Registry

end DurableFlow
