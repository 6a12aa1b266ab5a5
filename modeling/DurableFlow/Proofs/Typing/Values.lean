import DurableFlow.Proofs.RoundTrip.Objects
import DurableFlow.Proofs.Serializer.Standard

/-!
# Values of types

Values are kept without their types. Which values a type has is settled for simple types, collections and
built-in types; the host settles it for its own. A serializer is typed if what it reads is of its type and
what it turns into stand-ins and back is of the types on both sides. The serializers of the library are.
-/

namespace DurableFlow

/-- The types of an application. -/
structure Host where
  /-- What is known of the types with fields. -/
  object? : Ty → Option ObjectType
  /-- The values of the other ones. -/
  holds : Ty → Value → Prop

/-- The type whose values hold the atom. -/
def Atom.builtin : Atom → Builtin
  | privateKey _ => .privateKey
  | publicKey _ => .publicKey
  | decimal _ => .decimal
  | currency _ => .currency
  | instant _ => .instant
  | duration _ => .duration
  | date _ => .localDate
  | time _ => .localTime
  | zone _ => .zoneId
  | yearMonth _ => .yearMonth
  | monthDay _ => .monthDay
  | period _ => .period
  | className _ => .classRef
  | certificate _ => .certificate
  | bitSet _ => .bitSet
  | enumSet _ => .enumSet
  | bytes _ => .opaqueBytes
  | flowId _ => .flowId
  | hash _ => .secureHash

mutual

/-- The value is one of this type, whatever the order in which the members of a set or a map stand. -/
inductive Value.Of (H : Host) : Ty → Value → Prop
  | int {kind : IntKind} {n : Int} : kind.holds n = true → Value.Of H (.int kind) (.int n)
  | boolean (b : Bool) : Value.Of H .boolean (.boolean b)
  | double (bits : UInt64) : Value.Of H .double (.double bits)
  | char (c : Char) : Value.Of H .char (.char c)
  | string (s : String) : Value.Of H .string (.text s)
  | list {t : Ty} {vs : List Value} : (∀ v ∈ vs, Value.Of H t v) → Value.Of H (.list t) (.seq vs)
  | set {t : Ty} {vs : List Value} : (∀ v ∈ vs, Value.Of H t v) → Value.Of H (.set t) (.seq vs)
  | none (t : Ty) : Value.Of H (.optional t) (.seq [])
  | some {t : Ty} {v : Value} : Value.Of H t v → Value.Of H (.optional t) (.seq [v])
  | pair {t t' : Ty} {v v' : Value} :
    Value.Of H t v → Value.Of H t' v' → Value.Of H (.pair t t') (.seq [v, v'])
  | map {k t : Ty} {es : List (Value × Value)} :
    (∀ e ∈ es, Value.Of H k e.1) → (∀ e ∈ es, Value.Of H t e.2) → Value.Of H (.map k t) (.entries es)
  | hashmap {k t : Ty} {es : List (Value × Value)} :
    (∀ e ∈ es, Value.Of H k e.1) → (∀ e ∈ es, Value.Of H t e.2) → Value.Of H (.hashmap k t) (.entries es)
  | atom (a : Atom) : Value.Of H (.builtin a.builtin) (.atom a)
  | year {n : Int} : IntKind.int.holds n = true → Value.Of H (.builtin .year) (.int n)
  | composite {b : Builtin} {what : String} {backward : Bool} {parts : List Part}
    {check : List Value → Except Abort Unit} {vs : List Value} :
    b.codec = .composite what backward parts check → parts.length = vs.length →
      (∀ p ∈ parts.zip vs, Part.Of H p.1 p.2) → check vs = .ok () → Value.Of H (.builtin b) (.seq vs)
  | object {name label : String} {o : ObjectType} {vs : List Value} :
    H.object? (.named name label) = .some o → o.fields.length = vs.length →
      (∀ p ∈ o.fields.zip vs, Value.Of H p.1.slot p.2) → Value.Of H (.named name label) (.seq vs)
  | host {name label : String} {v : Value} :
    H.object? (.named name label) = .none → H.holds (.named name label) v →
      Value.Of H (.named name label) v
  | erased {t : Ty} {v : Value} (name : String) (native : Bool) :
    Value.Of H t v → Value.Of H .any (.erased t name native v)

inductive Part.Of (H : Host) : Part → Value → Prop
  | text (what s : String) : Part.Of H (.text what) (.text s)
  | offset {n : Int} : Offset.check n = .ok n → Part.Of H .offset (.int n)
  | value {t : Ty} {v : Value} : Value.Of H t v → Part.Of H (.value t) v

end

section

variable {α β : Type} {Q : α → Prop} {R : β → Prop} {x : Except Abort α}

/-- What is given, if anything, has this property. -/
def Gives (Q : α → Prop) (x : Except Abort α) : Prop := ∀ a, x = .ok a → Q a

namespace Gives

theorem ok {a : α} (h : Q a) : Gives Q (.ok a) := by
  intro a' h'
  cases h'
  exact h

theorem error (e : Abort) : Gives Q (.error e) := by
  intro a h
  cases h

theorem bind_of {f : α → Except Abort β} (hx : Gives Q x) (hf : ∀ a, Q a → Gives R (f a)) :
    Gives R (x >>= f) := by
  intro b h
  cases hc : x with
  | error e =>
    rw [hc] at h
    cases h
  | ok a =>
    rw [hc] at h
    exact hf a (hx a hc) b h

theorem bind {f : α → Except Abort β} (hf : ∀ a, Gives R (f a)) : Gives R (x >>= f) :=
  bind_of (Q := fun _ => True) (fun _ _ => trivial) fun a _ => hf a

theorem ite {c : Prop} [Decidable c] {y : Except Abort α} (hx : c → Gives Q x) (hy : ¬ c → Gives Q y) :
    Gives Q (if c then x else y) := by
  by_cases h : c
  · rw [if_pos h]
    exact hx h
  · rw [if_neg h]
    exact hy h

end Gives

theorem inRange_gives (H : Host) (kind : IntKind) (n : Int) :
    Gives (Value.Of H (.int kind)) (inRange kind n) :=
  .ite (fun h => .ok (.int h)) fun _ => .error _

theorem readSimple_gives (H : Host) (t : Ty) (e : Element) : Gives (Value.Of H t) (readSimple t e) := by
  rw [readSimple.eq_def]
  split
  · refine .ite (fun _ => .bind fun _ => inRange_gives H _ _) fun _ => ?_
    split
    · exact inRange_gives H _ _
    · exact .error _
  · exact .ok (.boolean _)
  · exact .ok (.double _)
  · exact .ok (.char _)
  · exact .bind fun s => .ok (.string s)
  · exact .error _

end

variable {H : Host}

/-- The values are one for each of the parts. -/
def PartsOf (H : Host) (parts : List Part) (vs : List Value) : Prop := List.Forall₂ (Part.Of H) parts vs

/-- The values are one for each of the fields. -/
def FieldsOf (H : Host) (fs : List Field) (vs : List Value) : Prop :=
  List.Forall₂ (fun f v => Value.Of H f.slot v) fs vs

/-- What the codec reads is of this type. -/
def Codec.Typed (H : Host) (t : Ty) : Codec → Prop
  | .single _ read => ∀ known e, Gives (Value.Of H t) (read known e)
  | .composite _ _ parts check => ∀ v, Value.Of H t v ↔
    ∃ vs, v = .seq vs ∧ PartsOf H parts vs ∧ check vs = .ok ()
  | .proxy standIn toProxy fromProxy =>
    (∀ v v', Value.Of H t v → toProxy v = .ok v' → Value.Of H standIn v') ∧
      ∀ v' v, Value.Of H standIn v' → fromProxy v' = .ok v → Value.Of H t v

/-- What the serializer reads is of its type. -/
def Serializer.Typed (H : Host) (s : Serializer) : Prop := s.codec.Typed H s.target

theorem fieldsOf_iff {fs : List Field} {vs : List Value} :
    FieldsOf H fs vs ↔ fs.length = vs.length ∧ ∀ p ∈ fs.zip vs, Value.Of H p.1.slot p.2 := by
  rw [FieldsOf, List.forall₂_iff_zip]
  exact ⟨fun h => ⟨h.1, fun p hp => h.2 hp⟩, fun h => ⟨h.1, fun hp => h.2 _ hp⟩⟩

theorem partsOf_iff {parts : List Part} {vs : List Value} :
    PartsOf H parts vs ↔ parts.length = vs.length ∧ ∀ p ∈ parts.zip vs, Part.Of H p.1 p.2 := by
  rw [PartsOf, List.forall₂_iff_zip]
  exact ⟨fun h => ⟨h.1, fun p hp => h.2 hp⟩, fun h => ⟨h.1, fun hp => h.2 _ hp⟩⟩

theorem Value.of_named_iff {name label : String} {o : ObjectType} {v : Value}
    (ho : H.object? (.named name label) = some o) :
    Value.Of H (.named name label) v ↔ ∃ vs, v = .seq vs ∧ FieldsOf H o.fields vs := by
  constructor
  · intro h
    cases h with
    | @object _ _ o' vs ho' hlength hfields =>
      obtain rfl := Option.some.inj (ho.symm.trans ho')
      exact ⟨vs, rfl, fieldsOf_iff.2 ⟨hlength, hfields⟩⟩
    | host hnone _ =>
      rw [ho] at hnone
      cases hnone
  · rintro ⟨vs, rfl, hfields⟩
    obtain ⟨hlength, hfields⟩ := fieldsOf_iff.1 hfields
    exact .object ho hlength hfields

theorem Value.of_host_iff {name label : String} {v : Value} (ho : H.object? (.named name label) = none) :
    Value.Of H (.named name label) v ↔ H.holds (.named name label) v := by
  constructor
  · intro h
    cases h with
    | object hsome =>
      rw [ho] at hsome
      cases hsome
    | host _ h => exact h
  · exact .host ho

namespace Builtin

theorem atomCodec_typed {b : Builtin} {label : String} {write : Atom → Option Element}
    {read : Element → Except Abort Atom} (h : ∀ e, Gives (fun a => a.builtin = b) (read e)) :
    (atomCodec label write read).Typed H (.builtin b) :=
  fun _ e => .bind_of (h e) fun a ha => .ok (ha ▸ .atom a)

theorem exists_codec_atom (a : Atom) :
    ∃ write read e, a.builtin.codec = .single write read ∧ write (.atom a) = .ok e := by
  cases a <;> exact ⟨_, _, _, rfl, rfl⟩

theorem composite_typed {b : Builtin} {what : String} {backward : Bool} {parts : List Part}
    {check : List Value → Except Abort Unit} (hb : b.codec = .composite what backward parts check) :
    (Codec.composite what backward parts check).Typed H (.builtin b) := by
  intro v
  constructor
  · intro h
    cases h with
    | atom a =>
      obtain ⟨write, read, e, hsingle, -⟩ := exists_codec_atom a
      rw [hsingle] at hb
      cases hb
    | year => cases hb
    | composite hb' hlength hparts hcheck =>
      rw [hb] at hb'
      cases hb'
      exact ⟨_, rfl, partsOf_iff.2 ⟨hlength, hparts⟩, hcheck⟩
  · rintro ⟨vs, rfl, hparts, hcheck⟩
    obtain ⟨hlength, hparts⟩ := partsOf_iff.1 hparts
    exact .composite hb hlength hparts hcheck

theorem asSmall_gives (e : Element) (expected : String) (kind : IntKind) (what : String) :
    Gives (fun n => kind.holds n = true) (e.asSmall expected kind what) :=
  .bind fun _ => .ite (fun h => .ok h) fun _ => .error _

theorem codec_typed (H : Host) (b : Builtin) : b.codec.Typed H (.builtin b) := by
  cases b with
  | throwable | localDateTime | zonedDateTime | offsetTime | offsetDateTime | certPath
  | contractAttachment => exact composite_typed rfl
  | year => exact fun _ e => .bind_of (asSmall_gives e _ _ _) fun n hn => .ok (.year hn)
  | classRef =>
    refine fun known e => .bind fun name => .ite (fun _ => ?_) fun _ => .error _
    exact .bind fun n => .ok (.atom (.className n))
  | flowId | secureHash =>
    refine atomCodec_typed fun e => .bind fun bs => ?_
    split
    · exact .ok rfl
    · exact .error _
  | yearMonth | monthDay | period =>
    exact atomCodec_typed fun e => .bind fun _ => .bind fun _ => .bind fun _ => .bind fun _ => .ok rfl
  | currency | zoneId | certificate => exact atomCodec_typed fun e => .bind fun _ => .bind fun _ => .ok rfl
  | _ => exact atomCodec_typed fun e => .bind fun _ => .ok rfl

variable {v : Value} {write : Value → Except Abort Element}
  {read : (String → Bool) → Element → Except Abort Value}

theorem exists_write {b : Builtin} (hb : b.codec = .single write read) (hv : Value.Of H (.builtin b) v) :
    ∃ e, write v = .ok e := by
  cases hv with
  | atom a =>
    obtain ⟨write', read', e, hsingle, he⟩ := exists_codec_atom a
    rw [hsingle] at hb
    cases hb
    exact ⟨e, he⟩
  | year =>
    cases hb
    exact ⟨_, rfl⟩
  | composite hcomposite =>
    rw [hb] at hcomposite
    cases hcomposite

theorem exists_writeSimple {t : Ty} (ht : t ∈ boxedTypes) (hv : Value.Of H t v) :
    ∃ e, writeSimple t v = .ok e := by
  cases hv with
  | int hn =>
    rw [writeSimple, writeSimple?, if_pos hn]
    exact ⟨_, rfl⟩
  | boolean | double | char | string => exact ⟨_, rfl⟩
  | _ => simp [boxedTypes] at ht

end Builtin

namespace Registry

variable {s : Serializer}

theorem mem_library (h : s ∈ library) :
    (∃ b, s = Builtin.serializer b) ∨ ∃ t ∈ Builtin.boxedTypes, s = Builtin.boxed t := by
  simp only [library, Builtin.standard, Builtin.security, List.mem_append, List.mem_cons, List.mem_map] at h
  rcases h with (⟨b, -, rfl⟩ | ⟨t, ht, rfl⟩) | rfl | ⟨b, -, rfl⟩
  · exact .inl ⟨b, rfl⟩
  · exact .inr ⟨t, ht, rfl⟩
  · exact .inl ⟨_, rfl⟩
  · exact .inl ⟨b, rfl⟩

theorem typed_of_mem_library (H : Host) (h : s ∈ library) : s.Typed H := by
  rcases mem_library h with ⟨b, rfl⟩ | ⟨t, -, rfl⟩
  · exact Builtin.codec_typed H b
  · exact fun _ e => readSimple_gives H t e

theorem exists_write_of_mem_library {v : Value} {write : Value → Except Abort Element}
    {read : (String → Bool) → Element → Except Abort Value} (h : s ∈ library)
    (hs : s.codec = .single write read) (hv : Value.Of H s.target v) : ∃ e, write v = .ok e := by
  rcases mem_library h with ⟨b, rfl⟩ | ⟨t, ht, rfl⟩
  · exact Builtin.exists_write hs hv
  · cases hs
    exact Builtin.exists_writeSimple ht hv

end Registry

end DurableFlow
