import DurableFlow.Proofs.Environment.Factories
import DurableFlow.Proofs.Reading.Failing
import DurableFlow.Sample.Types

/-!
# Bytes that bear the blame themselves

Types made of simple types, collections, built-in types and object types that are loaded and admitted leave
nothing to the configuration: where only the serializers of the library are registered, whatever is wrong
with bytes that are read as such a type is an error of the data.
-/

namespace DurableFlow

/-- A type made of simple types, collections, built-in types and these object types. References to types
are left out, since they name what may not be known. -/
inductive Ty.Concrete (O : ObjectType → Prop) : Ty → Prop
  | int (kind : IntKind) : Concrete O (.int kind)
  | boolean : Concrete O .boolean
  | double : Concrete O .double
  | char : Concrete O .char
  | string : Concrete O .string
  | list {t : Ty} : Concrete O t → Concrete O (.list t)
  | optional {t : Ty} : Concrete O t → Concrete O (.optional t)
  | set {t : Ty} : Concrete O t → Concrete O (.set t)
  | map {k t : Ty} : Concrete O k → Concrete O t → Concrete O (.map k t)
  | hashmap {k t : Ty} : Concrete O k → Concrete O t → Concrete O (.hashmap k t)
  | pair {t t' : Ty} : Concrete O t → Concrete O t' → Concrete O (.pair t t')
  | builtin {b : Builtin} : b ≠ .classRef → Concrete O (.builtin b)
  | object {o : ObjectType} : O o → Concrete O o.type

/-- An error for which the bytes bear the blame. -/
def DataError (e : Abort) : Prop := ∃ cause, e = .error cause ∧ cause.isDataError = true

theorem DataFault.dataError {e : Abort} (h : DataFault e) : DataError e := by
  cases h with
  | mismatch expected found => exact ⟨_, rfl, rfl⟩
  | invalid cause => exact ⟨_, rfl, rfl⟩

theorem Envelope.isDataError_of_decode {m : Magic} {bs : Bytes} {e : SerializationError}
    (h : Envelope.decode m bs = .error e) : e.isDataError = true := by
  rw [Envelope.decode] at h
  by_cases hm : m.matchesFront bs = true
  · rw [if_pos hm] at h
    cases hread : Envelope.read (bs.drop m.bytes.length) with
    | error fault =>
      rw [hread] at h
      obtain rfl := Except.error.inj h
      rfl
    | ok r =>
      rw [hread] at h
      cases h
  · rw [if_neg hm] at h
    obtain rfl := Except.error.inj h
    rfl

namespace Builtin

variable {O : ObjectType → Prop} {b : Builtin}

theorem parts_concrete {what : String} {backward : Bool} {parts : List Part}
    {check : List Value → Except Abort Unit} (h : b.codec = .composite what backward parts check)
    {t : Ty} (ht : .value t ∈ parts) : t.Concrete O := by
  cases b with
  | throwable =>
    cases h
    simp only [List.mem_cons, Part.value.injEq, reduceCtorEq, false_or, List.not_mem_nil, or_false] at ht
    rcases ht with rfl | rfl
    · exact .optional .string
    · exact .optional (.builtin (by simp))
  | localDateTime | zonedDateTime =>
    cases h
    simp only [List.mem_cons, Part.value.injEq, reduceCtorEq, false_or, List.not_mem_nil, or_false] at ht
    rcases ht with rfl | rfl
    · exact .builtin (by simp)
    · exact .builtin (by simp)
  | offsetTime | offsetDateTime =>
    cases h
    simp only [List.mem_cons, Part.value.injEq, reduceCtorEq, List.not_mem_nil, or_false] at ht
    exact ht ▸ .builtin (by simp)
  | certPath =>
    cases h
    simp only [List.mem_cons, Part.value.injEq, reduceCtorEq, false_or, List.not_mem_nil, or_false] at ht
    exact ht ▸ .list (.builtin (by simp))
  | contractAttachment =>
    cases h
    simp only [List.mem_cons, Part.value.injEq, reduceCtorEq, false_or, List.not_mem_nil, or_false] at ht
    rcases ht with rfl | rfl
    · exact .builtin (by simp)
    · exact .list (.builtin (by simp))
  | _ => cases h

theorem codec_ne_proxy (b : Builtin) (standIn : Ty) (toProxy fromProxy : Value → Except HostFault Value) :
    b.codec ≠ .proxy standIn toProxy fromProxy := by
  intro h
  cases b <;> cases h

theorem codec_confined (hb : b ≠ .classRef) : b.codec.Confined DataError (Ty.Concrete O) := by
  have hdata := (codec_readFailsOnly_data hb).mono fun _ => DataFault.dataError
  cases hk : b.codec with
  | single write read =>
    rw [hk] at hdata
    exact hdata
  | composite what backward parts check =>
    rw [hk] at hdata
    exact ⟨hdata, fun t => parts_concrete hk⟩
  | proxy standIn toProxy fromProxy => exact absurd hk (b.codec_ne_proxy _ _ _)

theorem byType_standard (b : Builtin) :
    Registry.standard.byType.get? (.builtin b) = some (serializer b) := by
  have hmem : serializer b ∈ Registry.library := by
    cases b <;> simp [Registry.library, standard, security]
  exact (Registry.bound_of_mem hmem).1

end Builtin

namespace Setting

variable {c : Setting} {O : ObjectType → Prop} {t : Ty}

/-- These object types are loaded and admitted, and their fields leave no more open than they do. -/
structure Accepts (c : Setting) (O : ObjectType → Prop) : Prop where
  named : ∀ o, O o → ∃ name label, o.type = .named name label
  loaded : ∀ o, O o → c.scope.objectType? o.type = some o
  admitted : ∀ o, O o → c.policy.isAdmitted o.name = true
  fields : ∀ o, O o → ∀ f ∈ o.fields, f.type.Concrete O

theorem Accepts.members (hO : c.Accepts O) (ht : t.Concrete O) : ∀ t' ∈ t.members, t'.Concrete O := by
  cases ht with
  | int _ | boolean | double | char | string | builtin => exact List.forall_mem_nil _
  | list h | optional h | set h => exact List.forall_mem_singleton.2 h
  | map h h' | hashmap h h' | pair h h' =>
    exact List.forall_mem_cons.2 ⟨h, List.forall_mem_singleton.2 h'⟩
  | object ho =>
    obtain ⟨name, label, hname⟩ := hO.named _ ho
    rw [hname]
    exact List.forall_mem_nil _

theorem Accepts.not_any (hO : c.Accepts O) : ¬ Ty.Concrete O .any := by
  intro h
  generalize ht : Ty.any = t at h
  cases h with
  | object ho =>
    obtain ⟨name, label, hname⟩ := hO.named _ ho
    rw [← ht] at hname
    cases hname
  | _ => cases ht

/-- A type that is neither simple nor a collection has its serializer or its object type. -/
theorem Accepts.bound (hO : c.Accepts O) (ht : t.Concrete O) (hplain : t.isPlain = false) :
    (∃ b, b ≠ .classRef ∧ t = .builtin b) ∨
      ∃ o, O o ∧ t = o.type ∧ Registry.standard.byType.get? t = none := by
  cases ht with
  | builtin hb => exact .inl ⟨_, hb, rfl⟩
  | object ho =>
    obtain ⟨name, label, hname⟩ := hO.named _ ho
    refine .inr ⟨_, ho, rfl, ?_⟩
    rw [hname]
    exact Registry.byType_eq_none (fun b => by simp) (by simp [Builtin.boxedTypes])
  | _ => cases hplain

theorem Accepts.confines (hr : c.registry = .standard) (hO : c.Accepts O) :
    c.Confines DataError (Ty.Concrete O) where
  data _ h := h.dataError
  host h := by
    obtain ⟨cause, h, -⟩ := h
    cases h
  members t ht := hO.members ht
  natives hany := absurd hany hO.not_any
  serializers s hs := by
    rcases hs with ⟨t, ht, hplain, hs⟩ | ⟨hany, -⟩
    · rw [hr] at hs
      rcases hO.bound ht hplain with ⟨b, hb, rfl⟩ | ⟨o, -, rfl, hnone⟩
      · obtain rfl := Option.some.inj (b.byType_standard.symm.trans hs)
        exact Builtin.codec_confined hb
      · rw [hnone] at hs
        cases hs
    · exact absurd hany hO.not_any
  objects o ho := by
    rcases ho with ⟨t, ht, hplain, hnone, ho⟩ | ⟨hany, -⟩
    · rw [hr] at hnone
      rcases hO.bound ht hplain with ⟨b, hb, rfl⟩ | ⟨o', ho', rfl, -⟩
      · rw [b.byType_standard] at hnone
        cases hnone
      · obtain rfl := Option.some.inj ((hO.loaded o' ho').symm.trans ho)
        rw [Policy.check, if_pos (hO.admitted _ ho')]
        exact ⟨.ok (), hO.fields _ ho'⟩
    · exact absurd hany hO.not_any
  unknown name h := by
    rcases h with ⟨t, ht, hplain, hnone, hunloaded⟩ | hany
    · rw [hr] at hnone
      rcases hO.bound ht hplain with ⟨b, hb, rfl⟩ | ⟨o, ho, rfl, -⟩
      · rw [b.byType_standard] at hnone
        cases hnone
      · rw [hO.loaded o ho] at hunloaded
        cases hunloaded
    · exact absurd hany hO.not_any

theorem dataError_of_deserialize (hr : c.registry = .standard) (hO : c.Accepts O)
    (ht : t.Concrete O) (m : Magic) (bs : Bytes) : FailsOnly DataError (c.deserialize m t bs) := by
  intro e h
  cases hdecode : Envelope.decode m bs with
  | error cause =>
    rw [deserialize_of_decode_error hdecode] at h
    exact ⟨cause, (Except.error.inj h).symm, Envelope.isDataError_of_decode hdecode⟩
  | ok env =>
    rw [deserialize_of_decode hdecode] at h
    exact readElement_confined (hO.confines hr) env.body (.value t) ht e h

end Setting

namespace Call

variable {O : ObjectType → Prop} {st : Store} {f : Nat} {t : Ty} {p : Plugins} {d d' : Draft}

/-- Where registration without contributed serializers has made a factory ready, all bytes are read as a
value of a concrete type, or refused with an error for which the bytes bear the blame. -/
theorem isDataError_of_deserialize (hp : p.serializers = []) (hd : d.registry.Pristine)
    (hrun : runOn (p.apply (Builtin.serializer .publicKey)) d = (.ok (), d'))
    (hf : (st.factory f).registry = d'.registry) (hO : (st.setting f).Accepts O)
    (ht : t.Concrete O) (m : Magic) (bs : Bytes) :
    (∃ v, (runOn (deserializeWith f m t bs) st).1 = .ok v) ∨
      ∃ e, (runOn (deserializeWith f m t bs) st).1 = .error (.error e) ∧ e.isDataError = true := by
  obtain ⟨-, -, hnames, -⟩ := Plugins.of_runOn_apply hrun
  have hstandard := hrun.symm.trans (Plugins.runOn_apply_of_pristine hp hd hnames)
  have hr : (st.setting f).registry = .standard := by
    rw [(Prod.mk.inj hstandard).2] at hf
    exact hf
  have hfails := Setting.dataError_of_deserialize hr hO ht m bs
  rw [runOn_deserializeWith]
  cases h : (st.setting f).deserialize m t bs with
  | ok v => exact .inl ⟨v, rfl⟩
  | error e =>
    obtain ⟨cause, rfl, hcause⟩ := hfails e h
    exact .inr ⟨cause, rfl, hcause⟩

section

open Sample

def dueType : ObjectType := ⟨invoice, "app.Invoice", [field "due" (.builtin .localDate)]⟩

/-- A factory that registration has made ready, with a scope and a policy for the object type. -/
def office : Store :=
  { Store.empty [] with
    policies := [⟨1, false, ["app.Invoice"]⟩]
    scopes := [(Scope.new 1 "office").load dueType]
    factories := [⟨1, 1, .standard⟩] }

/-- The bytes of an invoice that is due in the thirteenth month of a year. -/
def overdue : Bytes :=
  Magic.bytes ⟨1, 0⟩ ++ Envelope.payload ⟨⟨[.composite "app.Invoice" ["due"]]⟩,
    .list [.described "app.Invoice" (.list [.described "time.LocalDate"
      (.list [.long 2024, .long 13, .long 1])])]⟩

theorem accepts_office : (office.setting 0).Accepts (· = dueType) where
  named _ h := by rw [h]; exact ⟨_, _, rfl⟩
  loaded _ h := by rw [h]; rfl
  admitted _ h := by rw [h]; rfl
  fields _ h := by
    rw [h]
    exact List.forall_mem_singleton.2 (.builtin (by simp))

theorem isDataError_of_deserialize_overdue :
    ∃ e, (runOn (deserializeWith 0 ⟨1, 0⟩ (.list invoice) overdue) office).1 = .error (.error e) ∧
      e.isDataError = true := by
  have hno : (runOn (deserializeWith 0 ⟨1, 0⟩ (.list invoice) overdue) office).1.isOk = false := by
    decide +kernel
  have hrun := Plugins.runOn_apply_of_pristine (p := .empty) (d := ⟨.empty, .new 1 false, []⟩) rfl .empty
    (List.forall_mem_nil _)
  have hconcrete : Ty.Concrete (· = dueType) (.list invoice) := .list (.object (o := dueType) rfl)
  rcases isDataError_of_deserialize rfl .empty hrun rfl accepts_office hconcrete ⟨1, 0⟩ overdue with
    ⟨v, hv⟩ | herror
  · rw [hv] at hno
    cases hno
  · exact herror

end

end Call

end DurableFlow
