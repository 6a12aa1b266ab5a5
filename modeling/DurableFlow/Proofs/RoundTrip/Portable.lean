import DurableFlow.Proofs.Environment.Calls
import DurableFlow.Proofs.RoundTrip.Layouts
import DurableFlow.Proofs.Serializer.Registry
import DurableFlow.Proofs.Wire.Envelope
import DurableFlow.Proofs.Writing.Nesting
import DurableFlow.Sample.Serializers

/-!
# Values of typed data and their bytes

The types made of simple types, collections and some object types of the scope are carried if the fields of
these object types are of such types again. Their values are written, unless the payload is too long or the
layouts of objects in them do not fit, and their bytes are read back.
-/

namespace DurableFlow

/-- A type made of simple types, collections and these object types. -/
inductive Ty.Over (O : ObjectType → Prop) : Ty → Prop
  | int (kind : IntKind) : Over O (.int kind)
  | boolean : Over O .boolean
  | double : Over O .double
  | char : Over O .char
  | string : Over O .string
  | list {t : Ty} : Over O t → Over O (.list t)
  | optional {t : Ty} : Over O t → Over O (.optional t)
  | set {t : Ty} : Over O t → Over O (.set t)
  | map {k t : Ty} : Over O k → Over O t → Over O (.map k t)
  | hashmap {k t : Ty} : Over O k → Over O t → Over O (.hashmap k t)
  | pair {t t' : Ty} : Over O t → Over O t' → Over O (.pair t t')
  | object {o : ObjectType} : O o → Over O o.type

namespace Setting

variable {c : Setting} {O : ObjectType → Prop} {t : Ty}

/-- These object types are loaded and admitted, their fields are of types made of them, and no serializer goes by
the name of one. Where the application has bound a serializer of its own to one, it does what a serializer is to do:
it encodes every value of its type, and decodes the body that it has produced. -/
structure Portable (c : Setting) (O : ObjectType → Prop) : Prop where
  consistent : c.registry.Consistent
  named : ∀ t o, c.scope.objectType? t = some o → ∃ name label, t = .named name label
  loaded : ∀ o, O o → c.scope.objectType? o.type = some o
  admitted : ∀ o, O o → c.policy.isAdmitted o.name = true
  fields : ∀ o, O o → ∀ f ∈ o.fields, f.type.Over O
  unregistered : ∀ o, O o → c.registry.byDescriptor.get? o.name = none
  codes : ∀ o x, O o → c.registry.byType.get? o.type = some x → ∀ nesting v, v.HasType c.scope Value.Distinct o.type →
    c.Codes (c.writeWithin (nesting + 1)) x v

theorem Portable.of_over (hO : c.Portable O) {o : ObjectType} (h : o.type.Over O)
    (ho : c.scope.objectType? o.type = some o) : O o := by
  obtain ⟨name, label, hname⟩ := hO.named _ o ho
  generalize ht : o.type = t at h ho hname
  cases h with
  | @object o' ho' =>
    have hloaded := hO.loaded o' ho'
    rw [ho] at hloaded
    obtain rfl := Option.some.inj hloaded
    exact ho'
  | _ => cases hname

theorem Portable.members (hO : c.Portable O) (h : t.Over O) : ∀ t' ∈ t.members, t'.Over O := by
  cases h with
  | int _ | boolean | double | char | string => exact List.forall_mem_nil _
  | list h | optional h | set h => exact List.forall_mem_singleton.2 h
  | map h h' | hashmap h h' | pair h h' =>
    exact List.forall_mem_cons.2 ⟨h, List.forall_mem_singleton.2 h'⟩
  | object ho =>
    obtain ⟨name, label, hname⟩ := hO.named _ _ (hO.loaded _ ho)
    rw [hname]
    exact List.forall_mem_nil _

theorem Portable.stands_or_served (hO : c.Portable O) (nesting : Nat) {o : ObjectType} (h : O o) :
    c.Stands o ∨ ∃ x, c.Served (c.writeWithin (nesting + 1)) o x := by
  have hloaded := hO.loaded o h
  have hnamed := hO.named _ o hloaded
  cases hx : c.registry.byType.get? o.type with
  | none => exact .inl ⟨hloaded, hnamed, hx, hO.unregistered o h⟩
  | some x =>
    have hregistered := Option.isSome_of_eq_some (hO.consistent.byDescriptor_of_byType hx)
    exact .inr ⟨x, hnamed, hx, hregistered, hO.codes o x h hx nesting⟩

theorem Portable.carries (hO : c.Portable O) (nesting : Nat) :
    c.Carries (c.writeWithin (nesting + 1)) (Ty.Over O) where
  members _ h := hO.members h
  objects o h ho := hO.stands_or_served nesting (hO.of_over h ho)
  fields o h ho f hf := by
    have hfield := hO.fields o (hO.of_over h ho) f hf
    rw [Field.slot]
    cases f.required with
    | true => exact hfield
    | false => exact .optional hfield
  admits o h ho := hO.admitted o (hO.of_over h ho)

end Setting

namespace Call

variable {O : ObjectType → Prop} {st : Store} {f : Nat} {t : Ty} {v : Value}

section

open Sample

def treeType : ObjectType := ⟨tree, "app.Tree", [field "label" .string, field "children" (.list tree)]⟩

/-- Degrees, for which the application has a serializer that takes them out of the object. -/
def degreesType : ObjectType := ⟨celsius, "app.Degrees", [field "degrees" .long]⟩

def degreesSerializer : Serializer := unwrapping "app" "app.Celsius" celsius .long

def orchard : Store :=
  { Store.empty [] with
    policies := [⟨1, false, ["app.Tree", "app.Degrees"]⟩]
    scopes := [((Scope.new 1 "orchard").load treeType).load degreesType]
    factories := [⟨1, 1, Registry.empty.bind degreesSerializer⟩] }

/-- Trees by the texts that name them, how warm it is, and a hash map with these entries. -/
def grove (yields : List (Value × Value)) : Value :=
  .seq [.entries [(.seq [.text "a"], .none), (.seq [.text "a", .text "b"],
    .some (.seq [.text "x", .seq [.seq [.text "y", .seq []], .seq [.text "z", .seq []]]]))],
    .seq [.seq [.int 21], .entries yields]]

def groveType : Ty := .pair (.map (.set .string) (.optional tree)) (.pair celsius (.hashmap .string .long))

theorem objectType?_orchard (t : Ty) : (orchard.setting 0).scope.objectType? t =
    if celsius = t then some degreesType else if tree = t then some treeType else none := by
  have hscope : (orchard.setting 0).scope = ((Scope.new 1 "orchard").load treeType).load degreesType := rfl
  rw [hscope, Scope.objectType?_load, Scope.objectType?_load]
  rfl

theorem byType_orchard (t : Ty) : (orchard.setting 0).registry.byType.get? t =
    if celsius = t then some degreesSerializer else none := Registry.byType_bind t

theorem codes_degrees (nesting : Nat) {v : Value}
    (hv : v.HasType (orchard.setting 0).scope Value.Distinct celsius) :
    (orchard.setting 0).Codes ((orchard.setting 0).writeWithin (nesting + 1)) degreesSerializer v := by
  obtain ⟨vs, rfl, -, hlength, hfields⟩ := hv.object_inv (o := degreesType) ⟨_, _, rfl⟩ (objectType?_orchard _)
  obtain ⟨v, rfl⟩ := List.length_eq_one_iff.1 hlength
  have hlong : v.HasType (orchard.setting 0).scope Value.Distinct .long := hfields _ (.head _)
  generalize ht : Ty.long = t at hlong
  cases hlong with
  | @int _ kind n hn =>
    obtain rfl := Ty.int.inj ht
    have hwrite : writeSimple .long (.int n) = .ok (.ofInt n) := by
      rw [writeSimple, writeSimple?, if_pos hn]
      rfl
    refine ⟨.ofInt n, fun items s => ?_, fun s => ?_⟩
    · change (orchard.setting 0).writeOver ((orchard.setting 0).writeWithin nesting) (.int n) .long .typed s = _
      rw [Setting.writeOver_simple (t := .long) (v := .int n) trivial trivial, hwrite]
      rfl
    · have hread : (orchard.setting 0).readElement s (.ofInt n) (.value .long) = .ok (.int n) :=
        (Setting.readElement_simple (t := .long) (e := .ofInt n) trivial trivial s).trans (readSimple_long rfl hn)
      change degreesSerializer.guard "read" (do
        let v ← (orchard.setting 0).readElement s (.ofInt n) (.value .long)
        degreesSerializer.report (.ok (Value.seq [v]))) = _
      rw [hread]
      rfl
  | object ho =>
    rw [← ht, objectType?_orchard] at ho
    cases ho
  | _ => cases ht

theorem portable_orchard : (orchard.setting 0).Portable fun o => o = treeType ∨ o = degreesType where
  consistent := Registry.consistent_empty.bind rfl
  named t o h := by
    rw [objectType?_orchard] at h
    split_ifs at h with hcelsius htree
    · exact ⟨_, _, hcelsius.symm⟩
    · exact ⟨_, _, htree.symm⟩
  loaded o h := by
    rw [objectType?_orchard]
    rcases h with rfl | rfl
    · rfl
    · rfl
  admitted o h := by rcases h with rfl | rfl <;> rfl
  fields o h := by
    rcases h with rfl | rfl
    · exact List.forall_mem_cons.2 ⟨.string, List.forall_mem_singleton.2 (.list (.object (o := treeType) (.inl rfl)))⟩
    · exact List.forall_mem_singleton.2 (.int .long)
  unregistered o h := by rcases h with rfl | rfl <;> rfl
  codes o x h hx nesting v hv := by
    rw [byType_orchard] at hx
    split_ifs at hx with hcelsius
    obtain rfl := Option.some.inj hx
    rw [← hcelsius] at hv
    exact codes_degrees nesting hv

theorem hasType_grove {yields : List (Value × Value)} (hdistinct : Value.Distinct (yields.map (·.1)))
    (hkeys : ∀ e ∈ yields, Value.HasType (orchard.setting 0).scope Value.Single .string e.1)
    (hyields : ∀ e ∈ yields, Value.HasType (orchard.setting 0).scope Value.Distinct .long e.2) :
    (grove yields).HasType (orchard.setting 0).scope Value.Distinct groveType := by
  have htree : ∀ label children,
      (∀ v ∈ children, Value.HasType (orchard.setting 0).scope Value.Distinct tree v) →
        Value.HasType (orchard.setting 0).scope Value.Distinct tree (.seq [.text label, .seq children]) := by
    intro label children h
    have hregular : treeType.Regular := by simp [ObjectType.Regular, treeType, field]
    refine .object (o := treeType) rfl (hregular.apart rfl) rfl ?_
    exact List.forall_mem_cons.2 ⟨.string label, List.forall_mem_singleton.2 (.list h)⟩
  have hdegrees : Value.HasType (orchard.setting 0).scope Value.Distinct celsius (.seq [.int 21]) := by
    have hregular : degreesType.Regular := List.pairwise_singleton _ _
    exact .object (o := degreesType) rfl (hregular.apart rfl) rfl (List.forall_mem_singleton.2 (.int rfl))
  have htexts : ∀ v ∈ [Value.text "a", .text "b"],
      Value.HasType (orchard.setting 0).scope Value.Single .string v :=
    List.forall_mem_cons.2 ⟨.string "a", List.forall_mem_singleton.2 (.string "b")⟩
  refine .pair (.map ?_ (List.forall_mem_cons.2 ⟨.set ?_ (List.forall_mem_singleton.2 (.string "a")),
    List.forall_mem_singleton.2 (.set ?_ htexts)⟩) (List.forall_mem_cons.2 ⟨.none tree,
      List.forall_mem_singleton.2 (.some (htree "x" _ (List.forall_mem_cons.2
        ⟨htree "y" [] (List.forall_mem_nil _), List.forall_mem_singleton.2
          (htree "z" [] (List.forall_mem_nil _))⟩)))⟩)) (.pair hdegrees (.hashmap hdistinct hkeys hyields))
  all_goals
    rw [Ordered.Increasing]
    decide +kernel

end

end Call

end DurableFlow
