import DurableFlow.Proofs.RoundTrip.Typed

/-!
# Values of unknown type are read back

A value in a slot of unknown type is described by a serializer of the library, by its object type or by its
native type, and the descriptor leads back to the same one of the three, as no two of them share a
descriptor. What was read is written in the same way again.
-/

namespace DurableFlow

namespace Setting

variable {c : Setting} {w : Value → Writer}

/-- The serializers of the library alone, and object types that are in nobody's way. -/
structure Plain (c : Setting) : Prop where
  registry : c.registry = .standard
  distinct : c.scope.Distinct

theorem Plain.unbound_named (hc : c.Plain) (name label : String) :
    c.registry.byType.get? (.named name label) = none := by
  rw [hc.registry]
  exact Registry.byType_eq_none (by simp) (by simp [Builtin.boxedTypes])

theorem Plain.separate (hc : c.Plain) : c.Separate where
  coherent := hc.distinct.toCoherent
  named := hc.distinct.named
  unbound t o ho := by
    obtain ⟨name, label, rfl⟩ := hc.distinct.named t o ho
    exact hc.unbound_named name label
  unregistered t o ho := by
    rw [hc.registry]
    exact hc.distinct.unregistered t o ho

/-- The writers of the members of a value, for which it does not matter what it is written as. -/
theorem exists_members (w : Value → Writer) (v : Value) :
    ∃ items entries, (∀ t name native, c.writeOver w v t (.erased name native) =
        c.writeDescribed w v items entries t (.erased name native)) ∧
      ∀ t : Ty, t.isPlain = true → c.writeOver w v t .typed = writePlain t v items entries := by
  have htyped : ∀ (t : Ty) (items : List Writer) (entries : List (Writer × Writer)),
      t.isPlain = true → c.writeNode w v items entries t .typed = writePlain t v items entries :=
    fun t items entries ht => if_pos ht
  cases v with
  | seq vs =>
    refine ⟨vs.map (c.writeOver w), [], fun t name native => ?_, fun t ht => ?_⟩
    · rw [writeOver_seq]
      rfl
    · rw [writeOver_seq]
      exact htyped t _ _ ht
  | entries es =>
    refine ⟨[], es.map fun e => (c.writeOver w e.1, c.writeOver w e.2), fun t name native => ?_, fun t ht => ?_⟩
    · rw [writeOver_entries]
      rfl
    · rw [writeOver_entries]
      exact htyped t _ _ ht
  | erased type own native v =>
    refine ⟨[], [], fun t name native => ?_, fun t ht => ?_⟩
    · cases t <;> rfl
    · cases t <;> first
        | exact absurd ht Bool.false_ne_true
        | exact htyped _ [] [] ht
  | _ =>
    refine ⟨[], [], fun t name native => rfl, fun t ht => htyped t [] [] ht⟩

theorem yields_single {s : Serializer} {v : Value} {write : Value → Except Abort Element}
    {read : (String → Bool) → Element → Except Abort Value} {P : Element → Prop}
    (hs : c.registry.byType.get? s.target = some s)
    (hd : (c.registry.byDescriptor.get? s.descriptor).isSome = true)
    (hcodec : s.codec = .single write read) (h : ∀ e, write v = .ok e → P e)
    (items : List Writer) (entries : List (Writer × Writer)) (slot : Slot) :
    Writing.Yields c.Clear (c.writeDescribed w v items entries s.target slot) fun _ e =>
      ∃ body, e = .described s.descriptor body ∧ P body := by
  have hbody : writeBody w s v items = Writing.lift (write v) := by
    rw [writeBody, hcodec]
  simp only [writeDescribed, hs, hbody]
  refine (Writing.Yields.guard (Q := fun _ body => P body) "write" (.lift fun e he _ => h e he)).bind
    fun body => ?_
  refine (Writing.Yields.note fun s' hs' => hs'.add_restricted _ hd).bind fun _ => ?_
  exact .pure fun _ _ hP => ⟨body, rfl, hP⟩

theorem readBody_single {s : Serializer} {body : Element} {v : Value} {r : Reader}
    {write : Value → Except Abort Element} {read : (String → Bool) → Element → Except Abort Value}
    (hcodec : s.codec = .single write read) (h : read c.knows body = .ok v) :
    c.readBody s body r = .ok v := by
  rw [readBody, hcodec]
  exact congrArg (s.guard "read") h

/-- The name by which the type of an erased value is read, and whether it is read as a native one. -/
def descriptorOf (c : Setting) (t : Ty) : String × Bool :=
  match c.registry.byType.get? t with
  | some s => (s.descriptor, false)
  | none =>
    match c.scope.objectType? t with
    | some o => (o.name, false)
    | none => (t.name, true)

/-- What an erased value is read as. -/
def reread (c : Setting) : Value → Value
  | .erased t _ _ v => .erased t (c.descriptorOf t).1 (c.descriptorOf t).2 v
  | v => v

theorem readElement_any (s : Schema) (d : String) (body : Element) :
    c.readElement s (.described d body) (.value .any) =
      c.readDynamic d body (c.readElement s body) := by
  rw [readElement_described]
  rfl

theorem roundTrips_boxed (hc : c.Plain) {t : Ty} (ht : t ∈ Builtin.boxedTypes) (v : Value)
    (name : String) (native : Bool) :
    c.RoundTrips (c.writeOver w (.erased t name native v) .any .typed) .any
      (c.reread (.erased t name native v)) := by
  obtain ⟨hbyType, hbyDescriptor⟩ := Registry.bound_of_mem (Registry.boxed_mem ht)
  rw [← hc.registry] at hbyType hbyDescriptor
  obtain ⟨items, entries, hwrite, -⟩ := c.exists_members w v
  have hread : ∀ e, writeSimple t v = .ok e → readSimple t e = .ok v :=
    fun e he => (readSimple_of_writeSimple he).1
  have hdescriptor : c.descriptorOf t = ((Builtin.boxed t).descriptor, false) := by
    have hbound : c.registry.byType.get? t = some (Builtin.boxed t) := hbyType
    rw [descriptorOf, hbound]
  rw [writeOver_erased, hwrite, reread, hdescriptor]
  have hsingle := yields_single (w := w) hbyType (Option.isSome_of_eq_some hbyDescriptor) rfl hread
    items entries (.erased name native)
  refine hsingle.mono fun s e ⟨body, he, hbody⟩ => ?_
  have hfound := readBody_single (c := c) (s := Builtin.boxed t) (r := c.readElement s body) rfl hbody
  rw [he, readElement_any]
  simp only [readDynamic, hbyDescriptor, hfound]
  rfl

theorem roundTrips_object (hc : c.Plain) {o : ObjectType} {v : Value}
    (ho : c.scope.objectType? o.type = some o) (hv : v.HasType c.scope Value.Single o.type) (name : String)
    (native : Bool) :
    c.RoundTrips (c.writeOver w (.erased o.type name native v) .any .typed) .any
      (c.reread (.erased o.type name native v)) := by
  have hunbound := hc.separate.unbound _ o ho
  have hunregistered := hc.separate.unregistered _ o ho
  obtain ⟨vs, rfl, hapart, hlength, hfields⟩ := hv.object_inv (hc.distinct.named _ o ho) ho
  have hdescriptor : c.descriptorOf o.type = (o.name, false) := by
    rw [descriptorOf, hunbound]
    simp only [ho]
  have hwrite := (hc.separate.stands ho).yields_object hapart hlength
    (fun p hp => (hfields p hp).roundTrips (hc.separate.closed w) trivial fun _ h => h.distinct)
    (.erased name native)
  rw [hv.tidy_eq fun _ h => h] at hwrite
  rw [writeOver_erased, writeOver_seq, reread, hdescriptor]
  refine Writing.Yields.mono hwrite fun s e ⟨body, he, hbody⟩ => ?_
  rw [he, readElement_any]
  simp only [readDynamic, hunregistered, hc.distinct.resolve _ o ho, hbody]
  rfl

theorem isPlain_of_isNative {t : Ty} (ht : t.isNative = true) : t.isPlain = true := by
  cases t <;> first
    | rfl
    | exact absurd ht Bool.false_ne_true

theorem roundTrips_native (hc : c.Plain) {t : Ty} (ht : t.isNative = true)
    (hbox : t ∉ Builtin.boxedTypes) (hknown : t ∈ c.natives) {v : Value}
    (hv : v.HasType c.scope Value.Single t) (name : String) :
    c.RoundTrips (c.writeOver w (.erased t name true v) .any .typed) .any
      (c.reread (.erased t name true v)) := by
  have hunbound : c.registry.byType.get? t = none := by
    rw [hc.registry]
    refine Registry.byType_eq_none ?_ hbox
    rintro b rfl
    cases ht
  have hunloaded : c.scope.objectType? t = none := by
    cases ho : c.scope.objectType? t with
    | none => rfl
    | some o =>
      obtain ⟨own, label, rfl⟩ := hc.distinct.named t o ho
      cases ht
  have hdescriptor : c.descriptorOf t = (t.name, true) := by
    rw [descriptorOf, hunbound]
    simp only [hunloaded]
  obtain ⟨items, entries, hwrite, htyped⟩ := c.exists_members w v
  have hnative : t.nativeDescriptor = some t.name := if_pos ht
  have hround := hv.roundTrips_single (hc.separate.closed w) trivial
  rw [htyped t (isPlain_of_isNative ht)] at hround
  rw [writeOver_erased, hwrite, reread, hdescriptor]
  simp only [writeDescribed, hunbound, hunloaded, hnative]
  refine hround.bind fun body => .pure fun s hbody => ?_
  have hunregistered : c.registry.byDescriptor.get? t.name = none := by
    rw [hc.registry]
    exact Registry.byDescriptor_name ht
  rw [readElement_any]
  simp only [readDynamic, hunregistered, hc.distinct.foreign t ht,
    Ty.ofDescriptor?_name ht hknown, hbody]
  rfl

end Setting

/-- A value with a type that has a box, an object type of the scope, or a type that is known to be read back
from its own descriptor. -/
inductive Value.Held (natives : List Ty) (scope : Scope) : Value → Prop
  | boxed {t : Ty} {v : Value} (name : String) (native : Bool) :
    t ∈ Builtin.boxedTypes → v.HasType scope Single t → Held natives scope (.erased t name native v)
  | native {t : Ty} {v : Value} (name : String) :
    t.isNative = true → t ∈ natives → v.HasType scope Single t → Held natives scope (.erased t name true v)
  | object {o : ObjectType} {v : Value} (name : String) (native : Bool) :
    scope.objectType? o.type = some o → v.HasType scope Single o.type →
      Held natives scope (.erased o.type name native v)

/-- The type and the value that a value of unknown type holds. -/
def Value.content? : Value → Option (Ty × Value)
  | .erased t _ _ v => some (t, v)
  | _ => none

namespace Setting

variable {c : Setting} {x : Value}

theorem content?_reread (c : Setting) (x : Value) : (c.reread x).content? = x.content? := by
  cases x <;> rfl

theorem roundTrips_of_held (hc : c.Plain) (hx : x.Held c.natives c.scope) (w : Value → Writer) :
    c.RoundTrips (c.writeOver w x .any .typed) .any (c.reread x) := by
  cases hx with
  | boxed name native ht _ => exact roundTrips_boxed hc ht _ name native
  | @native t _ name ht hknown hv =>
    by_cases hbox : t ∈ Builtin.boxedTypes
    · exact roundTrips_boxed hc hbox _ name true
    · exact roundTrips_native hc ht hbox hknown hv name
  | object name native ho hv => exact roundTrips_object hc ho hv name native

theorem writeDescribed_erased_congr {w : Value → Writer} {t : Ty} {name name' : String}
    {native native' : Bool} (h : (c.registry.byType.get? t).isSome = true ∨
      (c.scope.objectType? t).isSome = true ∨ t.isNative = true ∧ native = true ∧ native' = true)
    (v : Value) (items : List Writer) (entries : List (Writer × Writer)) :
    c.writeDescribed w v items entries t (.erased name native) =
      c.writeDescribed w v items entries t (.erased name' native') := by
  cases hs : c.registry.byType.get? t with
  | some s => simp only [writeDescribed, hs]
  | none =>
    cases ho : c.scope.objectType? t with
    | some o => simp only [writeDescribed, hs, ho]
    | none =>
      rw [hs, ho] at h
      obtain ⟨ht, rfl, rfl⟩ := (h.resolve_left Bool.false_ne_true).resolve_left Bool.false_ne_true
      have hnative : t.nativeDescriptor = some t.name := if_pos ht
      simp only [writeDescribed, hs, ho, hnative]

theorem native_descriptorOf (c : Setting) (t : Ty) :
    (c.registry.byType.get? t).isSome = true ∨ (c.scope.objectType? t).isSome = true ∨
      (c.descriptorOf t).2 = true := by
  rw [descriptorOf]
  cases c.registry.byType.get? t with
  | some s => exact .inl rfl
  | none =>
    cases c.scope.objectType? t with
    | some o => exact .inr (.inl rfl)
    | none => exact .inr (.inr rfl)

theorem writeOver_reread_erased {w : Value → Writer} {t : Ty} {v : Value} {name : String} {native : Bool}
    (h : (c.registry.byType.get? t).isSome = true ∨ (c.scope.objectType? t).isSome = true ∨
      t.isNative = true ∧ native = true) :
    c.writeOver w (c.reread (.erased t name native v)) .any .typed =
      c.writeOver w (.erased t name native v) .any .typed := by
  obtain ⟨items, entries, hwrite, -⟩ := c.exists_members w v
  rw [reread, writeOver_erased, writeOver_erased, hwrite, hwrite]
  refine writeDescribed_erased_congr ?_ v items entries
  rcases h with h | h | ⟨ht, hnative⟩
  · exact .inl h
  · exact .inr (.inl h)
  · exact (c.native_descriptorOf t).imp_right fun h => h.imp_right fun h => ⟨ht, h, hnative⟩

/-- What was read is written as it was before. -/
theorem writeOver_reread (hc : c.Plain) (hx : x.Held c.natives c.scope) (w : Value → Writer) :
    c.writeOver w (c.reread x) .any .typed = c.writeOver w x .any .typed := by
  cases hx with
  | boxed name native ht _ =>
    have hbound := (Registry.bound_of_mem (Registry.boxed_mem ht)).1
    rw [← hc.registry] at hbound
    exact writeOver_reread_erased (.inl (Option.isSome_of_eq_some hbound))
  | native name ht _ _ => exact writeOver_reread_erased (.inr (.inr ⟨ht, rfl⟩))
  | object name native ho _ => exact writeOver_reread_erased (.inr (.inl (Option.isSome_of_eq_some ho)))

end Setting

end DurableFlow
