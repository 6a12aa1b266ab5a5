import DurableFlow.Proofs.RoundTrip.Typed
import DurableFlow.Proofs.Writing.Within

/-!
# What writing a typed value fails with

The layout of an object is the list of the names that are written for it. A value of a type whose object
types are loaded and admitted is written unless the layout of an object in it repeats a name, or two objects of
one name in it have different layouts.
-/

namespace DurableFlow

/-- The names that are written for fields with these values. -/
def Field.present (ps : List (Field × Value)) : List String :=
  (ps.filter fun p => !p.1.skips p.2).map (·.1.name)

/-- The names that are written for an object with these values of its fields. -/
def ObjectType.layout (o : ObjectType) (vs : List Value) : List String := Field.present (o.fields.zip vs)

namespace Setting

variable {c : Setting} {S : Ty → Prop} {o : ObjectType} {vs : List Value}

/-- A closed set of types whose object types the policy admits. -/
structure Carries (c : Setting) (w : Value → Writer) (S : Ty → Prop) : Prop extends c.Closed w S where
  admits : ∀ o, S o.type → c.scope.objectType? o.type = some o → c.policy.isAdmitted o.name = true

/-- Objects of this type are written field by field. -/
structure ByField (c : Setting) (o : ObjectType) : Prop where
  loaded : c.scope.objectType? o.type = some o
  unbound : c.registry.byType.get? o.type = none

/-- Where a value of this type is written, an object with these fields is written field by field. -/
inductive Holds (c : Setting) (o : ObjectType) (vs : List Value) : Ty → Value → Prop
  | self : c.ByField o → Holds c o vs o.type (.seq vs)
  | item {t t' : Ty} {v : Value} {items : List Value} :
    t' = .list t ∨ t' = .set t → v ∈ items → Holds c o vs t v → Holds c o vs t' (.seq items)
  | some {t : Ty} {v : Value} : Holds c o vs t v → Holds c o vs (.optional t) (.some v)
  | first {t t' : Ty} {v v' : Value} : Holds c o vs t v → Holds c o vs (.pair t t') (.seq [v, v'])
  | second {t t' : Ty} {v v' : Value} : Holds c o vs t' v' → Holds c o vs (.pair t t') (.seq [v, v'])
  | key {k t t' : Ty} {e : Value × Value} {es : List (Value × Value)} :
    t' = .map k t ∨ t' = .hashmap k t → e ∈ es → Holds c o vs k e.1 → Holds c o vs t' (.entries es)
  | value {k t t' : Ty} {e : Value × Value} {es : List (Value × Value)} :
    t' = .map k t ∨ t' = .hashmap k t → e ∈ es → Holds c o vs t e.2 → Holds c o vs t' (.entries es)
  | field {o' : ObjectType} {vs' : List Value} {p : Field × Value} :
    c.ByField o' → p ∈ o'.fields.zip vs' → Holds c o vs p.1.slot p.2 → Holds c o vs o'.type (.seq vs')

variable {J : ObjectType → List Value → Prop}

/-- Among these objects a field is written twice, or two objects of one name have different layouts. -/
inductive LayoutFault (J : ObjectType → List Value → Prop) : Abort → Prop
  | twice {o : ObjectType} {vs : List Value} {name : String} (h : J o vs)
      (hname : 1 < (o.layout vs).count name) :
      LayoutFault J (.error (.mismatch "unique field names" s!"field {name} written twice"))
  | different {o o' : ObjectType} {vs vs' : List Value} (h : J o vs) (h' : J o' vs')
      (hname : o'.name = o.name) (hlayout : o'.layout vs' ≠ o.layout vs) :
      LayoutFault J (.error (.mismatch s!"consistent field layout for {o.name}" "a different layout"))

/-- The layouts in the schema are those of some of these objects. -/
def Recorded (J : ObjectType → List Value → Prop) (s : Schema) : Prop :=
  ∀ name names, s.fields? name = some names → ∃ o vs, J o vs ∧ o.name = name ∧ o.layout vs = names

theorem recorded_empty : Recorded J .empty := fun _ _ h => nomatch h

theorem fields?_add {s : Schema} {n : TypeNotation} {name : String} {names : List String}
    (h : (s.add n).fields? name = some names) : s.fields? name = some names ∨ n = .composite name names := by
  rw [Schema.fields?, Schema.get?_add] at h
  cases hget : s.get? name with
  | some m =>
    rw [hget, Option.some_or] at h
    rw [Schema.fields?, hget]
    exact .inl h
  | none =>
    rw [hget, Option.none_or] at h
    split_ifs at h with hname
    · cases n with
      | composite own fields =>
        obtain rfl : own = name := hname
        exact .inr (congrArg _ (Option.some.inj h))
      | restricted own id => cases h

theorem Recorded.add_composite {s : Schema} (hs : Recorded J s) (h : J o vs) :
    Recorded J (s.add (.composite o.name (o.layout vs))) := by
  intro name names hnames
  rcases fields?_add hnames with hold | hnew
  · exact hs name names hold
  · obtain ⟨hname, hlayout⟩ := TypeNotation.composite.inj hnew
    exact ⟨o, vs, h, hname, hlayout⟩

theorem Recorded.add_restricted {s : Schema} (hs : Recorded J s) (name id : String) :
    Recorded J (s.add (.restricted name id)) := by
  intro name' names hnames
  rcases fields?_add hnames with hold | hnew
  · exact hs name' names hold
  · cases hnew

theorem noteFields_within (h : J o vs) :
    Writing.Within (Recorded J) (LayoutFault J) (noteFields o.name (o.layout vs)) fun _ => True := by
  intro s hs
  rw [noteFields]
  cases hknown : s.fields? o.name with
  | none => exact ⟨hs.add_composite h, trivial⟩
  | some known =>
    obtain ⟨o', vs', h', hname, hlayout⟩ := hs _ _ hknown
    by_cases hsame : known = o.layout vs
    · simp only [if_pos hsame]
      exact ⟨hs, trivial⟩
    · simp only [if_neg hsame]
      refine .different h h' hname fun he => hsame ?_
      rw [← hlayout, he]

variable {I : Schema → Prop} {P : Abort → Prop} {w : Value → Writer}

theorem within_simple {t : Ty} (ht : t.IsSimple) {v : Value} (hv : v.IsLeaf) {e : Element}
    (h : writeSimple t v = .ok e) :
    Writing.Within I P (c.writeOver w v t .typed) fun _ => True := by
  rw [writeOver_simple ht hv]
  exact .lift_ok h trivial

theorem within_items {t t' : Ty} (ht : t' = .list t ∨ t' = .set t) {vs : List Value}
    (h : ∀ v ∈ vs, Writing.Within I P (c.writeOver w v t .typed) fun _ => True) :
    Writing.Within I P (c.writeOver w (.seq vs) t' .typed) fun _ => True := by
  rw [writeOver_items ht]
  exact (Writing.Within.mapM h).bind fun _ _ => .pure trivial

theorem within_entries {k t t' : Ty} (ht : t' = .map k t ∨ t' = .hashmap k t) {es : List (Value × Value)}
    (h : ∀ e ∈ es, Writing.Within I P (c.writeOver w e.1 k .typed) fun _ => True)
    (h' : ∀ e ∈ es, Writing.Within I P (c.writeOver w e.2 t .typed) fun _ => True) :
    Writing.Within I P (c.writeOver w (.entries es) t' .typed) fun _ => True := by
  rw [writeOver_map ht]
  refine (Writing.Within.mapM fun e he => ?_).bind fun _ _ => .pure trivial
  exact (h e he).bind fun _ _ => (h' e he).bind fun _ _ => .pure trivial

theorem writeField_some {f : Field} (hf : f.required = false) (label : String) (v : Value) :
    writeField label f (c.writeOver w (.some v)) = c.writeOver w v f.type .typed := by
  rw [writeField, if_neg (by rw [hf]; exact Bool.false_ne_true), writeOver_some, bind_assoc]
  simp only [pure_bind]
  exact bind_pure _

theorem writeFields_within {ps : List (Field × Value)} (label : String) (names : List String)
    (values : List Element)
    (h : ∀ p ∈ ps, p.1.skips p.2 = false →
      Writing.Within I P (writeField label p.1 (c.writeOver w p.2)) fun _ => True)
    (htwice : ∀ name, 1 < (names ++ Field.present ps).count name →
      P (.error (.mismatch "unique field names" s!"field {name} written twice"))) :
    Writing.Within I P
      (writeFields label names values (ps.map (·.1)) (ps.map (·.2)) (ps.map fun p => c.writeOver w p.2))
      fun out => out.1 = names ++ Field.present ps := by
  induction ps generalizing names values with
  | nil => exact .pure (List.append_nil _).symm
  | cons p ps ih =>
    have hps : ∀ q ∈ ps, q.1.skips q.2 = false →
        Writing.Within I P (writeField label q.1 (c.writeOver w q.2)) fun _ => True :=
      fun q hq => h q (List.mem_cons_of_mem _ hq)
    rw [List.map_cons, List.map_cons, List.map_cons]
    cases hskip : p.1.skips p.2 with
    | true =>
      have hpresent : Field.present (p :: ps) = Field.present ps := by
        simp only [Field.present, List.filter_cons, hskip, Bool.not_true, Bool.false_eq_true, if_false]
      rw [hpresent] at htwice ⊢
      rw [writeFields_cons_of_skips hskip]
      exact ih names values hps htwice
    | false =>
      have hpresent : Field.present (p :: ps) = p.1.name :: Field.present ps := by
        simp only [Field.present, List.filter_cons, hskip, Bool.not_false, if_true, List.map_cons]
      rw [hpresent] at htwice ⊢
      rw [writeFields_cons hskip]
      by_cases hmem : names.contains p.1.name = true
      · rw [if_pos hmem]
        refine .lift_error rfl (htwice _ ?_)
        have hcount : 0 < names.count p.1.name := List.count_pos_iff.2 (List.contains_iff_mem.1 hmem)
        rw [List.count_append, List.count_cons_self]
        omega
      · rw [if_neg hmem]
        refine (h p List.mem_cons_self hskip).bind fun e _ => ?_
        have happend : names ++ p.1.name :: Field.present ps =
            names ++ [p.1.name] ++ Field.present ps := List.append_cons _ _ _
        rw [happend] at htwice ⊢
        exact ih _ _ hps htwice

/-- An object of an admitted type is written if its fields are, apart from their layout. -/
theorem Stands.within_object (ho : c.Stands o) (hadmitted : c.policy.isAdmitted o.name = true)
    (h : J o vs) (hlength : vs.length = o.fields.length)
    (hfields : ∀ p ∈ o.fields.zip vs, p.1.skips p.2 = false →
      Writing.Within (Recorded J) (LayoutFault J) (writeField o.name p.1 (c.writeOver w p.2)) fun _ => True) :
    Writing.Within (Recorded J) (LayoutFault J) (c.writeOver w (.seq vs) o.type .typed) fun _ => True := by
  have hcheck : c.policy.check o.name = .ok () := if_pos hadmitted
  have htypes : (o.fields.zip vs).map (·.1) = o.fields := List.map_fst_zip (by omega)
  have hvalues : (o.fields.zip vs).map (·.2) = vs := List.map_snd_zip (by omega)
  have hwriters : (o.fields.zip vs).map (fun p => c.writeOver w p.2) = vs.map (c.writeOver w) :=
    List.map_map.symm.trans (congrArg (List.map (c.writeOver w)) hvalues)
  have hwrite := writeFields_within o.name [] [] hfields fun name hname => .twice h hname
  rw [htypes, hvalues, hwriters, List.nil_append] at hwrite
  rw [writeOver_object ho.named]
  simp only [writeDescribed, ho.unbound, ho.loaded]
  refine (Writing.Within.lift_ok (Q := fun _ => True) hcheck trivial).bind fun _ _ => ?_
  refine hwrite.bind fun out hout => ?_
  obtain ⟨names, values⟩ := out
  obtain rfl : names = o.layout vs := hout
  exact (noteFields_within h).bind fun _ _ => .pure trivial

theorem Served.within_object {x : Serializer} (hx : c.Served w o x)
    (hv : (Value.seq vs).HasType c.scope Value.Distinct o.type) :
    Writing.Within (Recorded J) P (c.writeOver w (.seq vs) o.type .typed) fun _ => True := by
  obtain ⟨body, hbody, -⟩ := hx.codes _ hv
  rw [hx.writeOver_eq hbody]
  exact fun s hs => ⟨hs.add_restricted _ _, trivial⟩

end Setting

namespace Value.HasType

open Setting (within_items within_entries writeField_some writeOver_some writeOver_pair)

variable {c : Setting} {w : Value → Writer} {S : Ty → Prop} {H : List Value → Prop} {t : Ty} {v : Value}

theorem optional_inv (hS : c.Closed w S) (ht : S (.optional t)) (h : v.HasType c.scope H (.optional t)) :
    v = .none ∨ ∃ v', v = .some v' ∧ v'.HasType c.scope H t := by
  generalize hopt : Ty.optional t = t' at h ht
  cases h with
  | none t => exact .inl rfl
  | some hv =>
    obtain rfl := Ty.optional.inj hopt
    exact .inr ⟨_, rfl, hv⟩
  | object ho =>
    obtain ⟨name, label, hname⟩ := hS.named ht ho
    cases hopt.trans hname
  | _ => cases hopt

theorem within_writeField (hS : c.Closed w S) {f : Field} (hf : S f.slot) (hv : v.HasType c.scope H f.slot)
    (hskip : f.skips v = false) {I : Schema → Prop} {P : Abort → Prop}
    (h : Writing.Within I P (c.writeOver w v f.slot .typed) fun _ => True) (label : String) :
    Writing.Within I P (Setting.writeField label f (c.writeOver w v)) fun _ => True := by
  rw [Field.slot] at hf hv h
  cases hrequired : f.required with
  | true =>
    rw [if_pos hrequired] at h
    rw [Setting.writeField, if_pos hrequired]
    exact h
  | false =>
    rw [if_neg (by rw [hrequired]; exact Bool.false_ne_true)] at hf hv h
    rcases hv.optional_inv hS hf with rfl | ⟨v', rfl, -⟩
    · rw [Value.none, Field.skips, hrequired] at hskip
      cases hskip
    · rw [writeField_some hrequired]
      rw [writeOver_some] at h
      exact h.of_map

/-- A value of a type that is carried is written, or the layouts of objects in it do not fit. -/
theorem within (hS : c.Carries w S) (ht : S t) (h : v.HasType c.scope H t) {J : ObjectType → List Value → Prop}
    (hJ : ∀ o vs, c.Holds o vs t v → J o vs) : (∀ ks, H ks → Distinct ks) →
    Writing.Within (Setting.Recorded J) (Setting.LayoutFault J) (c.writeOver w v t .typed) fun _ => True := by
  intro hH
  induction h with
  | @int _ kind n hn =>
    have hwrite : ∃ e, writeSimple (.int kind) (.int n) = .ok e :=
      ⟨_, by rw [writeSimple, writeSimple?, if_pos hn]⟩
    obtain ⟨e, he⟩ := hwrite
    exact Setting.within_simple (t := .int kind) trivial trivial he
  | boolean b => exact Setting.within_simple (t := .boolean) trivial trivial rfl
  | double bits => exact Setting.within_simple (t := .double) trivial trivial rfl
  | char c => exact Setting.within_simple (t := .char) trivial trivial rfl
  | string s => exact Setting.within_simple (t := .string) trivial trivial rfl
  | list _ ih =>
    have hitem := hS.members _ ht _ (.head _)
    exact within_items (.inl rfl) fun v hv => ih v hv hitem (fun o vs ho => hJ o vs (.item (.inl rfl) hv ho)) hH
  | set _ _ ih =>
    have hitem := hS.members _ ht _ (.head _)
    exact within_items (.inr rfl) fun v hv =>
      ih v hv hitem (fun o vs ho => hJ o vs (.item (.inr rfl) hv ho)) fun _ h => h.distinct
  | none t => exact .pure trivial
  | some _ ih =>
    have hitem := hS.members _ ht _ (.head _)
    rw [writeOver_some]
    exact (ih hitem (fun o vs ho => hJ o vs (.some ho)) hH).bind fun _ _ => .pure trivial
  | pair _ _ ih ih' =>
    have hfirst := hS.members _ ht _ (.head _)
    have hsecond := hS.members _ ht _ (.tail _ (.head _))
    rw [writeOver_pair]
    refine (ih hfirst (fun o vs ho => hJ o vs (.first ho)) hH).bind fun _ _ => ?_
    exact (ih' hsecond (fun o vs ho => hJ o vs (.second ho)) hH).bind fun _ _ => .pure trivial
  | map _ _ _ ih ih' =>
    have hkey := hS.members _ ht _ (.head _)
    have hvalue := hS.members _ ht _ (.tail _ (.head _))
    refine within_entries (.inl rfl) (fun e he => ?_) fun e he => ?_
    · exact ih e he hkey (fun o vs ho => hJ o vs (.key (.inl rfl) he ho)) fun _ h => h.distinct
    · exact ih' e he hvalue (fun o vs ho => hJ o vs (.value (.inl rfl) he ho)) hH
  | hashmap _ _ _ ih ih' =>
    have hkey := hS.members _ ht _ (.head _)
    have hvalue := hS.members _ ht _ (.tail _ (.head _))
    refine within_entries (.inr rfl) (fun e he => ?_) fun e he => ?_
    · exact ih e he hkey (fun o vs ho => hJ o vs (.key (.inr rfl) he ho)) fun _ h => h.distinct
    · exact ih' e he hvalue (fun o vs ho => hJ o vs (.value (.inr rfl) he ho)) hH
  | @object _ o vs ho hapart hlength hfields ih =>
    rcases hS.objects o ht ho with hstands | ⟨x, hserved⟩
    · have hbyField : c.ByField o := ⟨ho, hstands.unbound⟩
      refine hstands.within_object (hS.admits o ht ho) (hJ o vs (.self hbyField)) hlength fun p hp hskip => ?_
      have hslot : S p.1.slot := hS.fields o ht ho p.1 (List.of_mem_zip hp).1
      have hvalue := ih p hp hslot (fun o' vs' ho' => hJ o' vs' (.field hbyField hp ho')) hH
      exact (hfields p hp).within_writeField hS.toClosed hslot hskip hvalue o.name
    · exact hserved.within_object ((object ho hapart hlength hfields).mono hH)

end Value.HasType

end DurableFlow
