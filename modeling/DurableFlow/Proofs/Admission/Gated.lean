import DurableFlow.Proofs.Serializer.Bindings
import DurableFlow.Proofs.Writing.Unless
import DurableFlow.Serializer.Read

/-!
# Outcomes under two policies

One setting differs from another in two things only: its policy admits more, and object types that the
policy of the other one refuses may have any fields at all. `Gated c x y` says that `x` comes to what `y`
comes to, or that it is the error of `c` for an object type that its policy refuses.
-/

namespace DurableFlow

namespace Bindings

variable {κ ν μ : Type}

def mapValues (f : ν → μ) (m : Bindings κ ν) : Bindings κ μ := ⟨m.list.map fun e => (e.1, f e.2)⟩

theorem mapValues_id (m : Bindings κ ν) : m.mapValues id = m :=
  congrArg Bindings.mk (List.map_id m.list)

theorem get?_mapValues [DecidableEq κ] (f : ν → μ) (m : Bindings κ ν) (k : κ) :
    (m.mapValues f).get? k = (m.get? k).map f := by
  rw [get?, get?, mapValues, List.find?_map, Option.map_map, Option.map_map]
  rfl

end Bindings

/-- The object type with other fields. -/
def ObjectType.recast (fields : ObjectType → List Field) (o : ObjectType) : ObjectType :=
  { o with fields := fields o }

/-- The scope with other fields for its object types. -/
def Scope.recast (fields : ObjectType → List Field) (s : Scope) : Scope :=
  { s with byName := s.byName.mapValues (.recast fields), byType := s.byType.mapValues (.recast fields) }

theorem Scope.objectType?_recast (fields : ObjectType → List Field) (s : Scope) (t : Ty) :
    (s.recast fields).objectType? t = (s.objectType? t).map (.recast fields) :=
  Bindings.get?_mapValues _ _ _

theorem Scope.resolve?_recast (fields : ObjectType → List Field) (s : Scope) (name : String) :
    (s.recast fields).resolve? name = (s.resolve? name).map (.recast fields) :=
  Bindings.get?_mapValues _ _ _

namespace Setting

variable (c : Setting)

/-- The setting with another policy and other fields for its object types. -/
def under (p : Policy) (fields : ObjectType → List Field) : Setting :=
  { c with policy := p, scope := c.scope.recast fields }

theorem under_fields (p : Policy) : c.under p ObjectType.fields = { c with policy := p } :=
  congrArg (fun s => { c with policy := p, scope := s })
    (congrArg₂ (Scope.mk c.scope.id c.scope.label) c.scope.byName.mapValues_id c.scope.byType.mapValues_id)

theorem knows_under (p : Policy) (fields : ObjectType → List Field) :
    (c.under p fields).knows = c.knows := by
  funext name
  change ((c.registry.byDescriptor.get? name).isSome || ((c.scope.recast fields).resolve? name).isSome) = _
  rw [Scope.resolve?_recast, Option.isSome_map]
  rfl

/-- The policy admits whatever the policy of the setting does, and the object types that the setting admits
keep their fields. -/
structure Widens (p : Policy) (fields : ObjectType → List Field) : Prop where
  admits : ∀ name, c.policy.isAdmitted name = true → p.isAdmitted name = true
  fields : ∀ o, c.policy.isAdmitted o.name = true → fields o = o.fields

/-- An object type of the scope that the policy does not admit. -/
structure Refuses (o : ObjectType) : Prop where
  loaded : (∃ t, c.scope.objectType? t = some o) ∨ ∃ name, c.scope.resolve? name = some o
  unadmitted : c.policy.isAdmitted o.name = false

/-- The error for an object type that the policy refuses. -/
inductive Refusal : Abort → Prop
  | mk {o : ObjectType} (h : c.Refuses o) : Refusal (.error (.unadmittedType o.name c.policy.id))

/-- The first outcome is the second one, or the error for an object type that the policy refuses. -/
def Gated {α : Type} (x y : Except Abort α) : Prop := Unless c.Refusal x y

variable {c} {p : Policy} {fields : ObjectType → List Field} {o : ObjectType}

theorem Widens.recast (h : c.Widens p fields) (ho : c.policy.isAdmitted o.name = true) :
    o.recast fields = o :=
  congrArg (ObjectType.mk o.type o.name) (h.fields o ho)

theorem check_of_admitted {q : Policy} {name : String} (h : q.isAdmitted name = true) :
    q.check name = .ok () := if_pos h

theorem check_of_refuses (h : c.Refuses o) :
    ∃ e, c.Refusal e ∧ c.policy.check o.name = .error e :=
  ⟨_, .mk h, if_neg (Bool.eq_false_iff.1 h.unadmitted)⟩

theorem unguarded_refusal : Unguarded c.Refusal := by
  intro α s operation e he
  cases he with
  | mk ho => exact ⟨_, .mk ho, rfl⟩

variable {α : Type}

namespace Gated

theorem guard {x y : Except Abort α} (s : Serializer) (operation : String) (h : c.Gated x y) :
    c.Gated (s.guard operation x) (s.guard operation y) := Unless.guard unguarded_refusal s operation h

/-- Whatever stands behind the check of an object type counts only if its policy admits it, and then the
object type has kept its fields. -/
theorem check {x y : ObjectType → Except Abort α} (hp : c.Widens p fields)
    (ho : (∃ t, c.scope.objectType? t = some o) ∨ ∃ name, c.scope.resolve? name = some o)
    (h : c.Gated (x o) (y o)) :
    c.Gated (do c.policy.check o.name; x o) (do p.check o.name; y (o.recast fields)) := by
  cases hadmitted : c.policy.isAdmitted o.name with
  | true =>
    rw [check_of_admitted hadmitted, check_of_admitted (hp.admits _ hadmitted), hp.recast hadmitted]
    exact h
  | false =>
    obtain ⟨e, he, hcheck⟩ := check_of_refuses ⟨ho, hadmitted⟩
    rw [hcheck]
    exact .inr ⟨e, he, rfl⟩

end Gated

end Setting

end DurableFlow
