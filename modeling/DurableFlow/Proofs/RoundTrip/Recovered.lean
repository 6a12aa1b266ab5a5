import DurableFlow.Proofs.RoundTrip.Erased
import DurableFlow.Proofs.Serializer.Registry
import DurableFlow.Proofs.Types.Name
import DurableFlow.Proofs.Writing.Nesting
import DurableFlow.Sample.Types

/-!
# The type that a value of unknown type comes back as

Writing picks the descriptor by the type, reading picks the type by the descriptor. The two agree for a type
with a serializer. A scope keeps an object type although another one has taken over its name, and nothing
keeps a serializer from having the name of an object type or of a native type as its descriptor, so that
other values may come back as another type.
-/

namespace DurableFlow

/-- Object types are found by their own types, and each of their names leads to an object type. -/
structure Scope.Indexed (s : Scope) : Prop where
  type : ∀ t o, s.objectType? t = some o → o.type = t
  name : ∀ t o, s.objectType? t = some o → (s.resolve? o.name).isSome = true

namespace Setting

/-- A setting that came about from an empty one by loading object types and registering serializers. -/
inductive Grown : Setting → Prop
  | empty (natives : List Ty) (id : Nat) (label : String) (policy : Policy) :
    Grown ⟨natives, .empty, .new id label, policy⟩
  | load {c : Setting} (h : Grown c) (o : ObjectType) : Grown { c with scope := c.scope.load o }
  | add {c : Setting} (h : Grown c) {replace : Bool} {s : Serializer} {r : Registry}
      {outcome : Registration} (hadd : c.registry.add replace s = .ok (r, outcome)) :
      Grown { c with registry := r }

end Setting

namespace Scope

variable {s : Scope}

theorem indexed_new (id : Nat) (label : String) : (new id label).Indexed where
  type _ _ h := nomatch h
  name _ _ h := nomatch h

theorem Indexed.load (h : s.Indexed) (o : ObjectType) : (s.load o).Indexed where
  type t o' h' := by
    rw [objectType?_load] at h'
    split_ifs at h' with ht
    · obtain rfl := Option.some.inj h'
      exact ht
    · exact h.type t o' h'
  name t o' h' := by
    rw [objectType?_load] at h'
    rw [resolve?_load]
    split_ifs at h' with ht
    · obtain rfl := Option.some.inj h'
      rw [if_pos rfl]
      rfl
    · by_cases hname : o.name = o'.name
      · rw [if_pos hname]
        rfl
      · rw [if_neg hname]
        exact h.name t o' h'

end Scope

namespace Setting

variable {c : Setting} {t : Ty} {v x : Value} {e body : Element} {schema : Schema}

theorem Grown.consistent (h : c.Grown) : c.registry.Consistent := by
  induction h with
  | empty => exact Registry.consistent_empty
  | load _ _ ih => exact ih
  | add _ hadd ih => exact ih.add hadd

theorem Grown.indexed (h : c.Grown) : c.scope.Indexed := by
  induction h with
  | empty _ id label => exact Scope.indexed_new id label
  | load _ o ih => exact ih.load o
  | add _ _ ih => exact ih

theorem Grown.name_of_resolve? (h : c.Grown) {d : String} {o : ObjectType}
    (ho : c.scope.resolve? d = some o) : o.name = d := by
  induction h with
  | empty => cases ho
  | load _ o' ih =>
    rw [Scope.resolve?_load] at ho
    split_ifs at ho with hname
    · obtain rfl := Option.some.inj ho
      exact hname
    · exact ih ho
  | add _ _ ih => exact ih ho

/-- The type of a described value as its descriptor tells it. -/
def typeOf? (c : Setting) (descriptor : String) : Option Ty :=
  match c.registry.byDescriptor.get? descriptor with
  | some s => some s.target
  | none =>
    match c.scope.resolve? descriptor with
    | some o => some o.type
    | none => Ty.ofDescriptor? c.natives descriptor

theorem typeOf?_of_readDynamic {d : String} {r : Reader} (h : c.readDynamic d body r = .ok x) :
    ∃ t native v, x = .erased t d native v ∧ c.typeOf? d = some t := by
  have hbind : ∀ {y : Except Abort Value} {t : Ty} {native : Bool},
      (do return Value.erased t d native (← y)) = Except.ok x →
        ∃ v, x = .erased t d native v := by
    intro y t native hy
    cases y with
    | error e => cases hy
    | ok v => exact ⟨v, (Except.ok.inj hy).symm⟩
  rw [readDynamic] at h
  rw [typeOf?]
  cases hs : c.registry.byDescriptor.get? d with
  | some s =>
    simp only [hs] at h
    obtain ⟨v, rfl⟩ := hbind h
    exact ⟨_, _, v, rfl, rfl⟩
  | none =>
    simp only [hs] at h
    cases ho : c.scope.resolve? d with
    | some o =>
      simp only [ho] at h
      obtain ⟨v, rfl⟩ := hbind h
      exact ⟨_, _, v, rfl, rfl⟩
    | none =>
      simp only [ho] at h
      cases ht : Ty.ofDescriptor? c.natives d with
      | some t =>
        simp only [ht] at h
        obtain ⟨v, rfl⟩ := hbind h
        exact ⟨_, _, v, rfl, rfl⟩
      | none =>
        simp only [ht] at h
        cases h

/-- A value of unknown type is described by the descriptor for its type; if neither a serializer nor an
object type is found for the type, it is a native one. -/
theorem described_of_writeDescribed {w : Value → Writer} {items : List Writer}
    {entries : List (Writer × Writer)} {name : String} {native : Bool} {s₀ : Schema}
    (h : c.writeDescribed w v items entries t (.erased name native) s₀ = .ok (e, schema)) :
    (∃ body, e = .described (c.descriptorOf t).1 body) ∧
      (c.registry.byType.get? t = none → c.scope.objectType? t = none → t.isNative = true) := by
  cases hs : c.registry.byType.get? t with
  | some s =>
    simp only [writeDescribed, hs] at h
    obtain ⟨body, s₁, -, h⟩ := Writing.bind_eq_ok.1 h
    obtain ⟨-, s₂, -, h⟩ := Writing.bind_eq_ok.1 h
    obtain ⟨rfl, -⟩ := Prod.mk.inj (Except.ok.inj h)
    refine ⟨⟨body, ?_⟩, fun hnone => absurd hnone (Option.some_ne_none s)⟩
    rw [descriptorOf, hs]
  | none =>
    cases ho : c.scope.objectType? t with
    | some o =>
      simp only [writeDescribed, hs, ho] at h
      obtain ⟨-, s₁, -, h⟩ := Writing.bind_eq_ok.1 h
      refine ⟨?_, fun _ hnone => absurd hnone (Option.some_ne_none o)⟩
      simp only [descriptorOf, hs, ho]
      cases v with
      | seq vs =>
        obtain ⟨out, s₂, -, h⟩ := Writing.bind_eq_ok.1 h
        obtain ⟨-, s₃, -, h⟩ := Writing.bind_eq_ok.1 h
        obtain ⟨rfl, -⟩ := Prod.mk.inj (Except.ok.inj h)
        exact ⟨_, rfl⟩
      | _ => cases h
    | none =>
      simp only [writeDescribed, hs, ho] at h
      cases native with
      | false => cases h
      | true =>
        cases ht : t.isNative with
        | false =>
          rw [Ty.nativeDescriptor, ht] at h
          cases h
        | true =>
          rw [Ty.nativeDescriptor, ht] at h
          obtain ⟨body, s₁, -, h⟩ := Writing.bind_eq_ok.1 h
          obtain ⟨rfl, -⟩ := Prod.mk.inj (Except.ok.inj h)
          refine ⟨⟨body, ?_⟩, fun _ _ => rfl⟩
          simp only [descriptorOf, hs, ho]

/-- A type is what its descriptor tells if it has a serializer, or if no serializer and no other object type
goes by the descriptor. -/
theorem Grown.typeOf?_eq_iff (hc : c.Grown) {t' : Ty}
    (hnative : c.registry.byType.get? t = none → c.scope.objectType? t = none → t.isNative = true)
    (h : c.typeOf? (c.descriptorOf t).1 = some t') :
    t' = t ↔ (c.registry.byType.get? t).isSome = true ∨
      c.registry.byDescriptor.get? (c.descriptorOf t).1 = none ∧
        ∀ o, c.scope.resolve? (c.descriptorOf t).1 = some o → o.type = t := by
  rw [typeOf?] at h
  cases hs : c.registry.byType.get? t with
  | some s =>
    have hdescriptor : (c.descriptorOf t).1 = s.descriptor := by rw [descriptorOf, hs]
    have htarget := hc.consistent.target t s hs
    have hfound := (hc.consistent.byDescriptor_iff s.descriptor s).2 ⟨rfl, by rw [htarget, hs]⟩
    rw [hdescriptor, hfound] at h
    have htype : t' = t := (Option.some.inj h).symm.trans htarget
    exact ⟨fun _ => .inl rfl, fun _ => htype⟩
  | none =>
    rw [Option.isSome_none]
    cases hd : c.registry.byDescriptor.get? (c.descriptorOf t).1 with
    | some s =>
      -- the type of this serializer has one, and `t` has none
      rw [hd] at h
      obtain ⟨-, hbound⟩ := (hc.consistent.byDescriptor_iff _ s).1 hd
      refine ⟨fun htype => ?_, fun hor => ?_⟩
      · rw [(Option.some.inj h).trans htype, hs] at hbound
        cases hbound
      · rcases hor with hor | ⟨hor, -⟩ <;> cases hor
    | none =>
      rw [hd] at h
      cases hr : c.scope.resolve? (c.descriptorOf t).1 with
      | some o =>
        rw [hr] at h
        obtain rfl := Option.some.inj h
        refine ⟨fun htype => .inr ⟨rfl, fun o' ho' => ?_⟩, fun hor => ?_⟩
        · rw [← Option.some.inj ho']
          exact htype
        · exact (hor.resolve_left Bool.false_ne_true).2 o rfl
      | none =>
        rw [hr] at h
        -- the descriptor is that of a native type, which its name determines
        cases ho : c.scope.objectType? t with
        | some o =>
          have hname : (c.descriptorOf t).1 = o.name := by simp only [descriptorOf, hs, ho]
          have hsome := hc.indexed.name t o ho
          rw [← hname, hr] at hsome
          cases hsome
        | none =>
          have hname : (c.descriptorOf t).1 = t.name := by simp only [descriptorOf, hs, ho]
          rw [hname] at h
          have hfound := List.find?_some h
          rw [Bool.and_eq_true, beq_iff_eq] at hfound
          have htype := Ty.eq_of_name_eq hfound.1 (hnative hs ho) hfound.2
          exact ⟨fun _ => .inr ⟨rfl, fun o ho => absurd ho.symm (Option.some_ne_none o)⟩, fun _ => htype⟩

/-- A value of unknown type that is written and read back keeps its type exactly if the type has a
serializer, or no serializer and no other object type goes by its descriptor. -/
theorem type_eq_iff_of_read_of_write (hc : c.Grown) {name : String} {native : Bool}
    (hw : c.write .any (.erased t name native v) = .ok (e, schema))
    (hr : c.read ⟨schema, e⟩ .any = .ok x) :
    ∃ t' native' v', x = .erased t' (c.descriptorOf t).1 native' v' ∧
      c.typeOf? (c.descriptorOf t).1 = some t' ∧
      (t' = t ↔ (c.registry.byType.get? t).isSome = true ∨
        c.registry.byDescriptor.get? (c.descriptorOf t).1 = none ∧
          ∀ o, c.scope.resolve? (c.descriptorOf t).1 = some o → o.type = t) := by
  obtain ⟨nesting, hover⟩ := c.exists_writer
  obtain ⟨items, entries, hwrite, -⟩ := c.exists_members (c.writeWithin (nesting + 1)) v
  have hdescribed : c.writeDescribed (c.writeWithin (nesting + 1)) v items entries t (.erased name native)
      Schema.empty = .ok (e, schema) := by
    rw [← hwrite, ← writeOver_erased, ← hover]
    exact hw
  obtain ⟨⟨body, rfl⟩, hnative⟩ := described_of_writeDescribed hdescribed
  rw [read, readElement_any] at hr
  obtain ⟨t', native', v', rfl, htype⟩ := typeOf?_of_readDynamic hr
  exact ⟨t', native', v', rfl, htype, hc.typeOf?_eq_iff hnative htype⟩

section

open Sample

def memoType : ObjectType :=
  ⟨paymentMemo, "app.Payment", [field "payee" .string, field "cents" .long, optionalField "memo" .string]⟩

def plainType : ObjectType := ⟨payment, "app.Payment", [field "payee" .string, field "cents" .long]⟩

/-- A scope in which the payment without memo has taken over the name. -/
def till : Setting :=
  ⟨[], .empty, ((Scope.new 1 "till").load memoType).load plainType, .new 1 true⟩

def memoPayment : Value := .erase paymentMemo (.seq [.text "bob", .int 7, .some (.text "rent")])

/-- The memo is lost, and so is its type. -/
theorem type_eq_iff_of_read_of_write_payment :
    ∃ e schema native v, till.write .any memoPayment = .ok (e, schema) ∧
      till.read ⟨schema, e⟩ .any = .ok (.erased payment "app.Payment" native v) ∧
      payment ≠ paymentMemo := by
  have hgrown : till.Grown := ((Grown.empty [] 1 "till" (.new 1 true)).load memoType).load plainType
  have hok : (match till.write .any memoPayment with
    | .ok (e, schema) => (till.read ⟨schema, e⟩ .any).isOk
    | .error _ => false) = true := by decide +kernel
  cases hw : till.write .any memoPayment with
  | error e =>
    rw [hw] at hok
    cases hok
  | ok r =>
    obtain ⟨e, schema⟩ := r
    rw [hw] at hok
    cases hr : till.read ⟨schema, e⟩ .any with
    | error e =>
      simp only [hr] at hok
      cases hok
    | ok x =>
      obtain ⟨t', native', v', rfl, htype, hiff⟩ := type_eq_iff_of_read_of_write hgrown hw hr
      have ht' : some payment = some t' := htype
      obtain rfl := Option.some.inj ht'
      refine ⟨e, schema, native', v', rfl, hr, fun hsame => ?_⟩
      rcases hiff.1 hsame with hbound | ⟨-, hresolved⟩
      · cases hbound
      · exact absurd (hresolved plainType rfl) (by decide)

end

end Setting

end DurableFlow
