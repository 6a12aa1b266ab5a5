import DurableFlow.Proofs.RoundTrip.Layouts

/-!
# What a schema says of a body

A body encodes a value node by node. What is described by a serializer stands in the schema with the
serializer's id, and an object that no serializer writes stands there with the names of the fields that were
written for it, in their order. The whole encoding keeps to one list of fields for each name, whichever of
the objects of that name is written first.
-/

namespace DurableFlow

/-- Are values of this type described in this slot? Simple values and collections are not where their type
is known. -/
def Slot.Describes (slot : Slot) (t : Ty) : Prop := slot = .typed → t.isPlain = false ∧ t ≠ .any

namespace Field

/-- The fields that something is written for, with their values. -/
def given (fs : List Field) (vs : List Value) : List (Field × Value) :=
  (fs.zip vs).filter fun p => !p.1.skips p.2

/-- The element of the value of the field, if this one is written for it. -/
def held (f : Field) (e : Element) : Element := if f.required then e else .list [e]

end Field

namespace Setting

/-- The element encodes a value of this type in this slot, and the schema tells how. -/
inductive Encodes (c : Setting) (schema : Schema) : Ty → Slot → Value → Element → Prop
  | simple {t : Ty} {v : Value} {e : Element} (h : writeSimple t v = .ok e) :
    Encodes c schema t .typed v e
  | items {t item : Ty} {vs : List Value} {es : List Element} (ht : t = .list item ∨ t = .set item)
      (hlength : vs.length = es.length) (h : ∀ p ∈ vs.zip es, Encodes c schema item .typed p.1 p.2) :
    Encodes c schema t .typed (.seq vs) (.list es)
  | none (item : Ty) : Encodes c schema (.optional item) .typed .none .null
  | some {item : Ty} {v : Value} {e : Element} (h : Encodes c schema item .typed v e) :
    Encodes c schema (.optional item) .typed (.some v) (.list [e])
  | pair {first second : Ty} {v v' : Value} {e e' : Element} (h : Encodes c schema first .typed v e)
      (h' : Encodes c schema second .typed v' e') :
    Encodes c schema (.pair first second) .typed (.seq [v, v']) (.list [e, e'])
  | entries {t key value : Ty} {vs : List (Value × Value)} {es : List (Element × Element)}
      (ht : t = .map key value ∨ t = .hashmap key value) (hlength : vs.length = es.length)
      (hkeys : ∀ p ∈ vs.zip es, Encodes c schema key .typed p.1.1 p.2.1)
      (hvalues : ∀ p ∈ vs.zip es, Encodes c schema value .typed p.1.2 p.2.2) :
    Encodes c schema t .typed (.entries vs) (.map es)
  | erased {type : Ty} {name : String} {native : Bool} {v : Value} {e : Element}
      (h : Encodes c schema type (.erased name native) v e) :
    Encodes c schema .any .typed (.erased type name native v) e
  /-- By a serializer that writes one element. -/
  | single {t : Ty} {slot : Slot} {s : Serializer} {v : Value} {body : Element}
      {write : Value → Except Abort Element} {read : (String → Bool) → Element → Except Abort Value}
      (hs : c.registry.byType.get? t = some s) (hslot : slot.Describes t)
      (hcodec : s.codec = .single write read)
      (hnote : schema.get? s.descriptor = some (.restricted s.descriptor s.id))
      (h : write v = .ok body) :
    Encodes c schema t slot v (.described s.descriptor body)
  /-- By a serializer that writes the parts of a value. -/
  | composite {t : Ty} {slot : Slot} {s : Serializer} {what : String} {backward : Bool}
      {parts : List Part} {check : List Value → Except Abort Unit} {vs : List Value} {es : List Element}
      (hs : c.registry.byType.get? t = some s) (hslot : slot.Describes t)
      (hcodec : s.codec = .composite what backward parts check)
      (hnote : schema.get? s.descriptor = some (.restricted s.descriptor s.id))
      (hvalues : parts.length = vs.length) (hlength : (parts.zip vs).length = es.length)
      (h : ∀ q ∈ (parts.zip vs).zip es, ∀ type, q.1.1 = .value type →
        Encodes c schema type .typed q.1.2 q.2) :
    Encodes c schema t slot (.seq vs) (.described s.descriptor (.list es))
  /-- By a serializer that writes another value in place of the value. -/
  | proxy {t standIn : Ty} {slot : Slot} {s : Serializer} {v v' : Value} {body : Element}
      {toProxy fromProxy : Value → Except HostFault Value}
      (hs : c.registry.byType.get? t = some s) (hslot : slot.Describes t)
      (hcodec : s.codec = .proxy standIn toProxy fromProxy)
      (hnote : schema.get? s.descriptor = some (.restricted s.descriptor s.id))
      (hv : toProxy v = .ok v') (h : Encodes c schema standIn .typed v' body) :
    Encodes c schema t slot v (.described s.descriptor body)
  /-- As an object, by the name of its type. -/
  | object {t : Ty} {slot : Slot} {o : ObjectType} {vs : List Value} {es : List Element}
      (hunbound : c.registry.byType.get? t = Option.none) (ho : c.scope.objectType? t = some o)
      (hslot : slot.Describes t)
      (hnote : schema.get? o.name = some (.composite o.name (o.layout vs)))
      (hvalues : o.fields.length = vs.length) (hlength : (o.layout vs).length = es.length)
      (h : ∀ q ∈ (Field.given o.fields vs).zip es,
        Encodes c schema q.1.1.slot .typed q.1.2 (q.1.1.held q.2)) :
    Encodes c schema t slot (.seq vs) (.described o.name (.list es))
  /-- By the descriptor of its own type. -/
  | native {t : Ty} {name d : String} {v : Value} {body : Element}
      (hunbound : c.registry.byType.get? t = Option.none)
      (hnone : c.scope.objectType? t = Option.none) (hd : t.nativeDescriptor = some d)
      (h : Encodes c schema t .typed v body) :
    Encodes c schema t (.erased name true) v (.described d body)

/-- Every serializer is found by its descriptor, and no object type that is written has the name of one. -/
structure Unambiguous (c : Setting) : Prop where
  registered : ∀ t s, c.registry.byType.get? t = some s →
    c.registry.byDescriptor.get? s.descriptor = some s
  unregistered : ∀ t o, c.scope.objectType? t = some o → c.registry.byDescriptor.get? o.name = none

/-- The notations have different names, and those of descriptors are of their serializers. -/
structure Truthful (c : Setting) (schema : Schema) : Prop where
  nodup : (schema.types.map (·.name)).Nodup
  restricted : ∀ name own id, schema.get? name = some (.restricted own id) →
    ∃ s, c.registry.byDescriptor.get? name = some s ∧ s.id = id
  composite : ∀ name own fields, schema.get? name = some (.composite own fields) →
    c.registry.byDescriptor.get? name = none

variable {c : Setting} {schema : Schema} {t : Ty} {slot : Slot} {v : Value} {s : Serializer}
  {items : List Writer} {entries : List (Writer × Writer)} {standIns : Value → Writer}

theorem truthful_empty : c.Truthful .empty where
  nodup := List.nodup_nil
  restricted _ _ _ h := nomatch h
  composite _ _ _ h := nomatch h

theorem nodup_add (h : (schema.types.map (·.name)).Nodup) (n : TypeNotation) :
    ((schema.add n).types.map (·.name)).Nodup := by
  rw [Schema.add]
  split_ifs with hfree
  · exact h
  · rw [Schema.get?, List.find?_isSome] at hfree
    rw [List.map_append, List.map_singleton, List.nodup_append]
    refine ⟨h, List.pairwise_singleton _ _, fun a ha b hb hab => hfree ?_⟩
    obtain ⟨m, hm, rfl⟩ := List.mem_map.1 ha
    exact ⟨m, hm, decide_eq_true (hab.trans (List.mem_singleton.1 hb))⟩

theorem Truthful.add_restricted (h : c.Truthful schema)
    (hs : c.registry.byDescriptor.get? s.descriptor = some s) :
    c.Truthful (schema.add (.restricted s.descriptor s.id)) where
  nodup := nodup_add h.nodup _
  restricted name own id hget := by
    rw [Schema.get?_add, Option.or_eq_some_iff] at hget
    rcases hget with hget | ⟨-, hget⟩
    · exact h.restricted name own id hget
    · split_ifs at hget with hname
      obtain ⟨rfl, rfl⟩ := TypeNotation.restricted.inj (Option.some.inj hget)
      exact ⟨s, hname ▸ hs, rfl⟩
  composite name own fields hget := by
    rw [Schema.get?_add, Option.or_eq_some_iff] at hget
    rcases hget with hget | ⟨-, hget⟩
    · exact h.composite name own fields hget
    · split_ifs at hget
      cases hget

theorem Truthful.add_composite (h : c.Truthful schema) {name : String}
    (hname : c.registry.byDescriptor.get? name = none) (fields : List String) :
    c.Truthful (schema.add (.composite name fields)) where
  nodup := nodup_add h.nodup _
  restricted name' own id hget := by
    rw [Schema.get?_add, Option.or_eq_some_iff] at hget
    rcases hget with hget | ⟨-, hget⟩
    · exact h.restricted name' own id hget
    · split_ifs at hget
      cases hget
  composite name' own fields' hget := by
    rw [Schema.get?_add, Option.or_eq_some_iff] at hget
    rcases hget with hget | ⟨-, hget⟩
    · exact h.composite name' own fields' hget
    · split_ifs at hget with hown
      exact hown ▸ hname

theorem yields_note (hs : c.registry.byDescriptor.get? s.descriptor = some s) :
    Writing.Yields c.Truthful (.note (.restricted s.descriptor s.id)) fun schema _ =>
      schema.get? s.descriptor = some (.restricted s.descriptor s.id) := by
  intro schema u schema' hschema hw
  obtain ⟨-, rfl⟩ := Prod.mk.inj (Except.ok.inj hw)
  refine ⟨hschema.add_restricted hs, schema.extends_add _, fun s' hs' => hs' _ _ ?_⟩
  rw [Schema.get?_add]
  cases hget : schema.get? s.descriptor with
  | none => rw [Option.none_or, if_pos (by rw [TypeNotation.name])]
  | some n =>
    rw [Option.some_or]
    have hname := Schema.name_of_get? hget
    cases n with
    | composite own fields =>
      have hnone := hschema.composite _ _ _ hget
      rw [hs] at hnone
      cases hnone
    | restricted own id =>
      obtain ⟨s', hs', rfl⟩ := hschema.restricted _ _ _ hget
      obtain rfl := Option.some.inj (hs.symm.trans hs')
      rw [show own = s.descriptor from hname]

/-- Where it succeeds the writer encodes the value. -/
def Writes (c : Setting) (w : Writer) (v : Value) : Prop :=
  ∀ t slot, Writing.Yields c.Truthful (w t slot) fun schema e => c.Encodes schema t slot v e

structure WritesMembers (c : Setting) (v : Value) (items : List Writer)
    (entries : List (Writer × Writer)) : Prop where
  items : ∀ vs, v = .seq vs → List.Forall₂ (fun v w => c.Writes w v) vs items
  entries : ∀ es, v = .entries es →
    List.Forall₂ (fun e w => c.Writes w.1 e.1 ∧ c.Writes w.2 e.2) es entries

theorem yields_writePlain (h : c.WritesMembers v items entries) (t : Ty) :
    Writing.Yields c.Truthful (writePlain t v items entries) fun schema e =>
      c.Encodes schema t .typed v e := by
  unfold writePlain
  split
  case h_1 item vs | h_2 item vs =>
    have hitems := (h.items vs rfl).imp fun v w hw => hw item .typed
    refine (Writing.Yields.mapM_forall₂ hitems).bind fun es => .pure fun schema hes => ?_
    obtain ⟨hlength, hzip⟩ := List.forall₂_iff_zip.1 hes
    exact .items (by first | exact .inl rfl | exact .inr rfl) hlength fun p hp => hzip hp
  case h_3 item vs =>
    have hitems := h.items vs rfl
    split
    · cases hitems
      exact .pure fun schema => .none item
    · cases hitems with
      | cons hw hnil =>
        cases hnil
        exact (hw item .typed).bind fun e => .pure fun schema he => .some he
    · exact .lift_error
  case h_4 first second vs =>
    have hitems := h.items vs rfl
    split
    · cases hitems with
      | cons hw hitems =>
        cases hitems with
        | cons hw' hnil =>
          cases hnil
          refine (hw first .typed).bind fun e => (hw' second .typed).bind fun e' => ?_
          exact .pure fun schema he' he => .pair he he'
    · exact .lift_error
  case h_5 key value es | h_6 key value es =>
    have hentry : List.Forall₂ (fun e w => Writing.Yields c.Truthful
        (do return (← w.1 key .typed, ← w.2 value .typed)) fun schema r =>
          c.Encodes schema key .typed e.1 r.1 ∧ c.Encodes schema value .typed e.2 r.2) es entries :=
      (h.entries es rfl).imp fun e w hw => (hw.1 key .typed).bind fun k =>
        (hw.2 value .typed).bind fun r => .pure fun schema hr hk => ⟨hk, hr⟩
    refine (Writing.Yields.mapM_forall₂ hentry).bind fun rs => .pure fun schema hrs => ?_
    obtain ⟨hlength, hzip⟩ := List.forall₂_iff_zip.1 hrs
    exact .entries (by first | exact .inl rfl | exact .inr rfl) hlength
      (fun p hp => (hzip hp).1) fun p hp => (hzip hp).2
  case h_7 => exact .lift fun e he schema => .simple he

theorem yields_writePart {label : String} {p : Part} {w : Writer} (h : c.Writes w v) :
    Writing.Yields c.Truthful (writePart label p v w) fun schema e =>
      ∀ type, p = .value type → c.Encodes schema type .typed v e := by
  unfold writePart
  split
  · exact .pure fun schema type hp => nomatch hp
  · exact .pure fun schema type hp => nomatch hp
  · refine (h _ .typed).mono fun schema e he type hp => ?_
    rw [← Part.value.inj hp]
    exact he
  · exact .lift_error

theorem yields_writeParts {label : String} {parts : List Part} {vs : List Value}
    (h : List.Forall₂ (fun v w => c.Writes w v) vs items) :
    Writing.Yields c.Truthful (writeParts label parts vs items) fun schema es =>
      parts.length = vs.length ∧ List.Forall₂ (fun p e => ∀ type, p.1 = .value type →
        c.Encodes schema type .typed p.2 e) (parts.zip vs) es := by
  induction parts generalizing vs items with
  | nil =>
    cases h with
    | nil => exact .pure fun schema => ⟨rfl, .nil⟩
    | cons => exact .lift_error
  | cons p parts ih =>
    cases h with
    | nil => exact .lift_error
    | cons hw h =>
      rw [writeParts]
      refine (yields_writePart hw).bind fun e => (ih h).bind fun es => .pure fun schema hes he => ?_
      exact ⟨congrArg (· + 1) hes.1, .cons he hes.2⟩

/-- The body that a serializer writes encodes the value if the schema has the notation. -/
theorem yields_writeBody (hstand : ∀ v, c.Writes (standIns v) v)
    (h : ∀ vs, v = .seq vs → List.Forall₂ (fun v w => c.Writes w v) vs items) :
    Writing.Yields c.Truthful (writeBody standIns s v items) fun schema body =>
      ∀ t slot, c.registry.byType.get? t = some s → slot.Describes t →
        schema.get? s.descriptor = some (.restricted s.descriptor s.id) →
          c.Encodes schema t slot v (.described s.descriptor body) := by
  unfold writeBody
  split
  case h_1 write read hcodec =>
    exact .lift fun body hbody schema t slot hs hslot hnote => .single hs hslot hcodec hnote hbody
  case h_2 what backward parts check hcodec =>
    split
    · refine (yields_writeParts (h _ rfl)).bind fun es => .pure fun schema hes t slot hs hslot hnote => ?_
      obtain ⟨hlength, hzip⟩ := List.forall₂_iff_zip.1 hes.2
      exact .composite hs hslot hcodec hnote hes.1 hlength fun q hq => hzip hq
    · exact .lift_error
  case h_3 standIn toProxy fromProxy hcodec =>
    have hreport : Writing.Yields c.Truthful (.lift (s.report (toProxy v))) fun _ v' =>
        toProxy v = .ok v' := by
      refine .lift fun v' hv' schema => ?_
      cases hv : toProxy v with
      | ok v'' =>
        rw [hv] at hv'
        exact congrArg Except.ok (Except.ok.inj hv')
      | error e =>
        rw [hv] at hv'
        cases e <;> cases hv'
    refine hreport.bind fun v' => (hstand v' standIn .typed).mono ?_
    exact fun schema body hbody hv t slot hs hslot hnote => .proxy hs hslot hcodec hnote hv hbody

theorem yields_field {f : Field} {w : Writer} (label : String) (h : c.Writes w v) :
    Writing.Yields c.Truthful (writeField label f w) fun schema e =>
      c.Encodes schema f.slot .typed v (f.held e) := by
  rw [writeField, Field.slot]
  unfold Field.held
  split_ifs
  · exact h f.type .typed
  · refine (h (.optional f.type) .typed).bind fun e => ?_
    split
    · exact .pure fun schema he => he
    · exact .lift_error

theorem yields_fields {label : String} {fs : List Field} {vs : List Value}
    (h : List.Forall₂ (fun v w => c.Writes w v) vs items) (names : List String) (values : List Element) :
    Writing.Yields c.Truthful (writeFields label names values fs vs items) fun schema out =>
      fs.length = vs.length ∧ ∃ es, out = (names ++ Field.present (fs.zip vs), values ++ es) ∧
        List.Forall₂ (fun p e => c.Encodes schema p.1.slot .typed p.2 (p.1.held e))
          (Field.given fs vs) es := by
  induction fs generalizing vs items names values with
  | nil =>
    cases h with
    | nil =>
      refine .pure fun schema => ⟨rfl, [], ?_, .nil⟩
      rw [List.append_nil]
      exact congrArg (·, values) (List.append_nil names).symm
    | cons => exact .lift_error
  | cons f fs ih =>
    cases h with
    | nil => exact .lift_error
    | @cons v w vs items hw h =>
      cases hskip : f.skips v with
      | true =>
        rw [writeFields_cons_of_skips hskip]
        refine (ih h names values).mono fun schema out hout => ?_
        obtain ⟨hlength, es, rfl, hes⟩ := hout
        refine ⟨congrArg (· + 1) hlength, es, ?_, ?_⟩
        · simp [Field.present, hskip]
        · simpa [Field.given, hskip] using hes
      | false =>
        rw [writeFields_cons hskip]
        split_ifs
        · exact .lift_error
        · refine (yields_field label hw).bind fun e => (ih h _ _).mono fun schema out hout he => ?_
          obtain ⟨hlength, es, rfl, hes⟩ := hout
          refine ⟨congrArg (· + 1) hlength, e :: es, ?_, ?_⟩
          · simp [Field.present, hskip]
          · simpa [Field.given, hskip] using ⟨he, hes⟩

theorem yields_object (hc : c.Unambiguous) {o : ObjectType} (ho : c.scope.objectType? t = some o)
    (hunbound : c.registry.byType.get? t = none) (hslot : slot.Describes t) {vs : List Value}
    (h : List.Forall₂ (fun v w => c.Writes w v) vs items) :
    Writing.Yields c.Truthful (do
      let (names, values) ← writeFields o.name [] [] o.fields vs items
      noteFields o.name names
      return .described o.name (.list values)) fun schema e =>
        c.Encodes schema t slot (.seq vs) e := by
  have hname := hc.unregistered t o ho
  refine (yields_fields h [] []).bind fun out => ?_
  obtain ⟨names, values⟩ := out
  have hclear : ∀ schema, c.Truthful schema → ∀ own id,
      schema.get? o.name ≠ some (.restricted own id) := by
    intro schema hschema own id hget
    obtain ⟨s, hs, -⟩ := hschema.restricted _ _ _ hget
    rw [hname] at hs
    cases hs
  refine (Writing.Yields.noteFields names (fun schema hschema => hschema.add_composite hname _)
    hclear).bind fun _ => .pure fun schema hnote hout => ?_
  obtain ⟨hvalues, es, hout, hes⟩ := hout
  obtain ⟨rfl, rfl⟩ := Prod.mk.inj hout
  obtain ⟨hlength, hzip⟩ := List.forall₂_iff_zip.1 hes
  refine .object hunbound ho hslot hnote hvalues ?_ fun q hq => hzip hq
  exact (List.length_map _).trans hlength

theorem yields_described (hc : c.Unambiguous) (hstand : ∀ v, c.Writes (standIns v) v)
    (h : c.WritesMembers v items entries) (hslot : slot.Describes t) :
    Writing.Yields c.Truthful (c.writeDescribed standIns v items entries t slot) fun schema e =>
      c.Encodes schema t slot v e := by
  cases hs : c.registry.byType.get? t with
  | some s =>
    simp only [writeDescribed, hs]
    refine (Writing.Yields.guard "write" (yields_writeBody hstand h.items)).bind fun body => ?_
    refine (yields_note (hc.registered t s hs)).bind fun _ => ?_
    exact .pure fun schema hnote hbody => hbody t slot hs hslot hnote
  | none =>
    cases ho : c.scope.objectType? t with
    | some o =>
      simp only [writeDescribed, hs, ho]
      refine Writing.Yields.bind (Q := fun _ _ => True) (.lift fun _ _ _ => trivial) fun _ => ?_
      split
      · exact (yields_object hc ho hs hslot (h.items _ rfl)).mono fun schema e he _ => he
      · exact .lift_error
    | none =>
      cases slot with
      | typed =>
        simp only [writeDescribed, hs, ho]
        exact .fail
      | erased name native =>
        simp only [writeDescribed, hs, ho]
        split
        · rename_i d hd
          exact (yields_writePlain h t).bind fun body => .pure fun schema hbody => .native hs ho hd hbody
        · exact .fail

theorem writes_node (hc : c.Unambiguous) (hstand : ∀ v, c.Writes (standIns v) v)
    (h : c.WritesMembers v items entries) : c.Writes (c.writeNode standIns v items entries) v := by
  intro t slot
  cases slot with
  | typed =>
    simp only [writeNode]
    split_ifs with hplain hany
    · exact yields_writePlain h t
    · exact .lift_error
    · exact yields_described hc hstand h fun _ => ⟨Bool.not_eq_true _ ▸ hplain, hany⟩
  | erased name native => exact yields_described hc hstand h fun hslot => nomatch hslot

/-- What a value is written as encodes it, if what its stand-ins are written as encodes these. -/
theorem writes_over (hc : c.Unambiguous) (hstand : ∀ v, c.Writes (standIns v) v) (v : Value) :
    c.Writes (c.writeOver standIns v) v := by
  induction v using Value.member_induction with
  | leaf v hv =>
    rw [writeOver_leaf c standIns hv]
    exact writes_node hc hstand ⟨by rintro vs rfl; exact hv.elim, by rintro es rfl; exact hv.elim⟩
  | seq vs ih =>
    rw [writeOver_seq]
    refine writes_node hc hstand ⟨fun vs' he => ?_, fun es he => nomatch he⟩
    obtain rfl := Value.seq.inj he
    exact List.forall₂_map_right_iff.2 (List.forall₂_same.2 ih)
  | entries es ih =>
    rw [writeOver_entries]
    refine writes_node hc hstand ⟨(fun vs he => nomatch he), fun es' he => ?_⟩
    obtain rfl := Value.entries.inj he
    exact List.forall₂_map_right_iff.2 (List.forall₂_same.2 ih)
  | erased type name native v ih =>
    intro t slot
    have hnode : c.Writes (c.writeNode standIns (.erased type name native v) [] [])
        (.erased type name native v) :=
      writes_node hc hstand ⟨(fun vs he => nomatch he), fun es he => nomatch he⟩
    simp only [writeOver]
    split
    · exact (ih type (.erased name native)).mono fun schema e he => .erased he
    · exact hnode t slot

theorem writes_within (hc : c.Unambiguous) (nesting : Nat) (v : Value) :
    c.Writes (c.writeWithin nesting v) v := by
  induction nesting generalizing v with
  | zero => exact fun t slot => .fail
  | succ nesting ih => exact fun t slot => writes_over hc ih v t slot

end Setting

end DurableFlow
