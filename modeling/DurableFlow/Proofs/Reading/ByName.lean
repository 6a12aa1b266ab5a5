import DurableFlow.Builtin.Standard
import DurableFlow.Proofs.Reading.Relaid

/-!
# Fields are read by name

The object in a body is read field by field in the order in which its type asks for them, each from the value
that has its name. Where the values stand and what else there is makes no difference. A field that is not
there is absent if it may be; if it may not, that is the error, unless a field that is asked for before
gives one.
-/

namespace DurableFlow

/-- What comes of a field that is asked for and is not there. -/
def ObjectType.missing (o : ObjectType) (f : Field) : Except Abort Value :=
  if f.required then Abort.mismatch s!"field {f.name} of {o.name}" "absent" else .ok .none

/-- What comes of values that are not as many as their names. -/
def miscounted (names : List String) (values : List Element) : Except Abort Value :=
  Abort.mismatch s!"{names.length} fields" s!"{values.length} values"

namespace Setting

variable {c : Setting} {s s' : Schema} {o : ObjectType} {ns ns' : List String} {es es' : List Element}

/-- The object of this type that a body with these values is read as. -/
def decodeObject (c : Setting) (s : Schema) (o : ObjectType) (es : List Element) : Except Abort Value :=
  c.readObject o (c.readElement s (.list es))

/-- What a field is read as from the value that has its name. -/
def fieldValue (c : Setting) (s : Schema) (o : ObjectType) (ns : List String) (es : List Element)
    (f : Field) : Except Abort Value :=
  readField o.name ns (es.map (c.readElement s)) f

/-- What has this name among the first values has it among the second, and no object of the type is in it. -/
def Kept (type : String) (ns : List String) (es : List Element) (ns' : List String) (es' : List Element)
    (x : String) : Prop :=
  ∀ e, (x, e) ∈ ns.zip es → (x, e) ∈ ns'.zip es' ∧ type ∉ e.descriptors

theorem decodeObject_of_length (hadmitted : c.policy.isAdmitted o.name = true)
    (hs : s.fields? o.name = some ns) (hlength : es.length = ns.length) :
    c.decodeObject s o es = do return .seq (← o.fields.mapM (c.fieldValue s o ns es)) := by
  rw [decodeObject, readObject_list (if_pos hadmitted) hs hlength, readFields_eq_mapM]
  rfl

theorem decodeObject_of_ne_length (hadmitted : c.policy.isAdmitted o.name = true)
    (hs : s.fields? o.name = some ns) (hlength : es.length ≠ ns.length) :
    c.decodeObject s o es = miscounted ns es := by
  rw [decodeObject, readObject, readElement_fields hs, if_pos hlength]
  rw [show c.policy.check o.name = .ok () from if_pos hadmitted]
  rfl

theorem fieldValue_of_not_mem {f : Field} (hf : f.name ∉ ns) : c.fieldValue s o ns es f = o.missing f := by
  have hnone : (ns.zip (es.map (c.readElement s))).find? (·.1 = f.name) = none := by
    rw [List.find?_eq_none]
    intro p hp hpf
    exact hf (of_decide_eq_true hpf ▸ (List.of_mem_zip hp).1)
  rw [fieldValue, readField, hnone, ObjectType.missing]

theorem Grown.resolved (hc : c.Grown) (ho : c.Loads o) : (c.scope.resolve? o.name).isSome := by
  rcases ho with ⟨t, ho⟩ | ⟨name, ho⟩
  · exact hc.indexed.name t o ho
  · rw [hc.name_of_resolve? ho, ho]
    rfl

/-- An element without objects of the name is not changed by relisting the fields of the name. -/
theorem relaid_of_not_mem {name : String} {e : Element} (h : name ∉ e.descriptors) :
    c.Relaid name ns ns' e e := by
  induction e using Element.member_induction with
  | leaf e he => exact .leaf he
  | list es ih =>
    rw [Element.descriptors_list, List.mem_flatMap] at h
    exact .list (List.forall₂_same.2 fun e he => ih e he fun hmem => h ⟨e, he, hmem⟩)
  | map es ih =>
    rw [Element.descriptors_map, List.mem_flatMap] at h
    have hkeys : ∀ e ∈ es, c.Relaid name ns ns' e.1 e.1 := fun e he =>
      (ih e he).1 fun hmem => h ⟨e, he, List.mem_append_left _ hmem⟩
    have hvalues : ∀ e ∈ es, c.Relaid name ns ns' e.2 e.2 := fun e he =>
      (ih e he).2 fun hmem => h ⟨e, he, List.mem_append_right _ hmem⟩
    exact .map (List.forall₂_same.2 (List.forall_mem_map.2 hkeys))
      (List.forall₂_same.2 (List.forall_mem_map.2 hvalues))
  | described d body ih =>
    rw [Element.descriptors, List.mem_cons, not_or] at h
    exact .described (Ne.symm h.1) (ih h.2) fun _ _ _ _ _ => rfl

theorem exists_mem_zip (hlength : es.length = ns.length) {x : String} (hx : x ∈ ns) :
    ∃ e, (x, e) ∈ ns.zip es := by
  rw [← List.map_fst_zip (show ns.length ≤ es.length by omega)] at hx
  obtain ⟨⟨_, e⟩, hp, rfl⟩ := List.mem_map.1 hx
  exact ⟨e, hp⟩

theorem find?_zip_of_mem (hn : ns.Nodup) (hlength : es.length = ns.length) {x : String} {e : Element}
    (h : (x, e) ∈ ns.zip es) : (ns.zip es).find? (·.1 = x) = some (x, e) :=
  Bindings.find?_of_mem (nodup_fst_zip hn hlength) h

/-- A field with the same value in both is read the same from both, if no object of the type is in it. -/
theorem fieldValue_of_kept (hc : c.Grown) (ho : c.Loads o) (hs : s.Relists s' o.name ns ns')
    (hlength : es.length = ns.length) (hlength' : es'.length = ns'.length) {f : Field}
    (hf : f.name ∈ ns' → f.name ∈ ns) (hkept : Kept o.name ns es ns' es' f.name) :
    c.fieldValue s' o ns' es' f = c.fieldValue s o ns es f := by
  by_cases hmem : f.name ∈ ns
  · obtain ⟨e, he⟩ := exists_mem_zip hlength hmem
    obtain ⟨he', hplain⟩ := hkept e he
    have hfound : Option.Rel (fun p q => c.ReadAlike s s' o.name p.2 q.2)
        ((ns.zip es).find? (·.1 = f.name)) ((ns'.zip es').find? (·.1 = f.name)) := by
      rw [find?_zip_of_mem hs.nodup hlength he, find?_zip_of_mem hs.nodup' hlength' he']
      exact .some ((relaid_of_not_mem hplain).readAlike hc hs (hc.resolved ho))
    exact (readField_alike o.name hfound).symm
  · rw [fieldValue_of_not_mem hmem, fieldValue_of_not_mem fun h => hmem (hf h)]

theorem mapM_blanked {g : Field → Except Abort Value} {x : String} {fs : List Field} {vs : List Value}
    (h : fs.mapM g = .ok vs) :
    (fs.mapM fun f => if f.name = x then .ok .none else g f) =
      .ok (List.zipWith (fun f v => if f.name = x then .none else v) fs vs) := by
  induction fs generalizing vs with
  | nil =>
    obtain rfl := Except.ok.inj h
    rfl
  | cons f fs ih =>
    rw [List.mapM_cons] at h ⊢
    cases hf : g f with
    | error e =>
      rw [hf] at h
      cases h
    | ok v =>
      cases hfs : fs.mapM g with
      | error e =>
        rw [hf, hfs] at h
        cases h
      | ok vs' =>
        rw [hf, hfs] at h
        obtain rfl := Except.ok.inj h
        rw [ih hfs, List.zipWith_cons_cons]
        split_ifs <;> rfl

theorem decodeObject_of_absent (hadmitted : c.policy.isAdmitted o.name = true)
    (hs : s.fields? o.name = some ns) (hlength : es.length = ns.length) {before after : List Field}
    {f : Field} (hfields : o.fields = before ++ f :: after) (hrequired : f.required = true)
    (hf : f.name ∉ ns) :
    c.decodeObject s o es = (do
      let _ ← before.mapM (c.fieldValue s o ns es)
      Abort.mismatch s!"field {f.name} of {o.name}" "absent") := by
  have habsent : c.fieldValue s o ns es f =
      Abort.mismatch s!"field {f.name} of {o.name}" "absent" := by
    rw [fieldValue_of_not_mem hf, ObjectType.missing, if_pos hrequired]
  rw [decodeObject_of_length hadmitted hs hlength, hfields, List.mapM_append, List.mapM_cons, habsent]
  cases before.mapM (c.fieldValue s o ns es) with
  | error e => rfl
  | ok vs => rfl

/-- An object is read the same from values that are rearranged, along with their names. -/
theorem decodeObject_rearranged (hc : c.Grown) (ho : c.Loads o) (hs : s.Relists s' o.name ns ns')
    (hlength : es.length = ns.length) (hlength' : es'.length = ns'.length) {moved : List Element}
    {more : List (String × Element)} (hmoved : List.Forall₂ (c.Relaid o.name ns ns') es moved)
    (hperm : (ns'.zip es').Perm (ns.zip moved ++ more)) (hmore : ∀ f ∈ o.fields, f.name ∉ more.map (·.1)) :
    c.decodeObject s' o es' = c.decodeObject s o es := by
  have hmoved' := hmoved.imp fun e e' he => he.readAlike hc hs (hc.resolved ho)
  exact (readObject_alike (readFields_rearranged hs rfl hlength hlength' hmoved' hperm hmore)).symm

/-- Without one of its values, an object is read as without the field of that name. -/
theorem decodeObject_removed (hc : c.Grown) (ho : c.Loads o) (hadmitted : c.policy.isAdmitted o.name = true)
    (hs : s.Relists s' o.name ns ns') (hlength : es.length = ns.length) (hlength' : es'.length = ns'.length)
    {x : String} (hremoved : ns.Perm (x :: ns'))
    (hkept : ∀ f ∈ o.fields, f.name ≠ x → Kept o.name ns es ns' es' f.name) :
    c.decodeObject s' o es' = (do return .seq (← o.fields.mapM fun f =>
      if f.name = x then o.missing f else c.fieldValue s o ns es f)) := by
  have hx : x ∉ ns' := (List.nodup_cons.1 (hremoved.nodup_iff.1 hs.nodup)).1
  have hfields : o.fields.mapM (c.fieldValue s' o ns' es') = o.fields.mapM fun f =>
      if f.name = x then o.missing f else c.fieldValue s o ns es f := by
    refine mapM_congr_mem fun f hf => ?_
    split_ifs with hfx
    · exact fieldValue_of_not_mem (hfx ▸ hx)
    · have hnames : f.name ∈ ns' → f.name ∈ ns := fun h => hremoved.mem_iff.2 (List.mem_cons_of_mem x h)
      exact fieldValue_of_kept hc ho hs hlength hlength' hnames (hkept f hf hfx)
  rw [decodeObject_of_length hadmitted hs.after hlength', hfields]

/-- An optional field whose value is taken out is absent, and the others are what they were. -/
theorem decodeObject_blanked (hc : c.Grown) (ho : c.Loads o) (hadmitted : c.policy.isAdmitted o.name = true)
    (hs : s.Relists s' o.name ns ns') (hlength : es.length = ns.length) (hlength' : es'.length = ns'.length)
    {x : String} (hremoved : ns.Perm (x :: ns'))
    (hkept : ∀ f ∈ o.fields, f.name ≠ x → Kept o.name ns es ns' es' f.name)
    (hoptional : ∀ f ∈ o.fields, f.name = x → f.required = false) {vs : List Value}
    (hvs : c.decodeObject s o es = .ok (.seq vs)) :
    c.decodeObject s' o es' =
      .ok (.seq (List.zipWith (fun f v => if f.name = x then .none else v) o.fields vs)) := by
  have hblank : (o.fields.mapM fun f => if f.name = x then o.missing f else c.fieldValue s o ns es f) =
      o.fields.mapM fun f => if f.name = x then .ok .none else c.fieldValue s o ns es f := by
    refine mapM_congr_mem fun f hf => ?_
    split_ifs with hfx
    · rw [ObjectType.missing, hoptional f hf hfx, if_neg Bool.false_ne_true]
    · rfl
  rw [decodeObject_of_length hadmitted hs.before hlength] at hvs
  cases hread : o.fields.mapM (c.fieldValue s o ns es) with
  | error e =>
    rw [hread] at hvs
    cases hvs
  | ok vs' =>
    rw [hread] at hvs
    obtain rfl := Value.seq.inj (Except.ok.inj hvs)
    rw [decodeObject_removed hc ho hadmitted hs hlength hlength' hremoved hkept, hblank,
      mapM_blanked hread]
    rfl

/-- The fields of an admitted object are read by their names, and by nothing else. The schema may list the
fields in another order, and more of them that the type does not ask for, where the values of the object do:
what is read stays the same, values and errors. So it does for the objects of the name in its values, at any
depth, if there is no serializer of the name and none of the loaded types of the name asks for more. A field that is taken out is absent for the type, and a field
whose value stays is what it was if no object of the type is in it. A required field that is taken out is
the error, or a field that the type asks for before it is. And the values have to be as many as the names. -/
theorem fields_by_name (hc : c.Grown) (ho : c.Loads o) (hadmitted : c.policy.isAdmitted o.name = true)
    (hs : s.Relists s' o.name ns ns') (hlength : es.length = ns.length) :
    (es'.length ≠ ns'.length →
      c.decodeObject s' o es' = miscounted ns' es') ∧
    (es'.length = ns'.length →
      c.decodeObject s' o es' = (do return .seq (← o.fields.mapM (c.fieldValue s' o ns' es')))) ∧
    (∀ moved more, es'.length = ns'.length → List.Forall₂ (c.Relaid o.name ns ns') es moved →
      (ns'.zip es').Perm (ns.zip moved ++ more) → (∀ f ∈ o.fields, f.name ∉ more.map (·.1)) →
      c.decodeObject s' o es' = c.decodeObject s o es) ∧
    (∀ e e' t, c.Relaid o.name ns ns' e e' →
      c.readElement s' e' (.value t) = c.readElement s e (.value t)) ∧
    ∀ x, es'.length = ns'.length → ns.Perm (x :: ns') →
      (∀ f, f.name = x → c.fieldValue s' o ns' es' f = o.missing f) ∧
      (∀ f, f.name ≠ x → Kept o.name ns es ns' es' f.name →
        c.fieldValue s' o ns' es' f = c.fieldValue s o ns es f) ∧
      (∀ vs, (∀ f ∈ o.fields, f.name = x → f.required = false) →
        (∀ f ∈ o.fields, f.name ≠ x → Kept o.name ns es ns' es' f.name) →
        c.decodeObject s o es = .ok (.seq vs) →
        c.decodeObject s' o es' =
          .ok (.seq (List.zipWith (fun f v => if f.name = x then .none else v) o.fields vs))) ∧
      ∀ before f after, o.fields = before ++ f :: after → f.required = true → f.name = x →
        c.decodeObject s' o es' = (do
          let _ ← before.mapM (c.fieldValue s' o ns' es')
          Abort.mismatch s!"field {f.name} of {o.name}" "absent") := by
  refine ⟨decodeObject_of_ne_length hadmitted hs.after, decodeObject_of_length hadmitted hs.after,
    fun moved more hlength' hmoved hperm hmore =>
      decodeObject_rearranged hc ho hs hlength hlength' hmoved hperm hmore,
    fun e e' t he => ((he.readAlike hc hs (hc.resolved ho)).value t).symm,
    fun x hlength' hremoved => ?_⟩
  have hx : x ∉ ns' := (List.nodup_cons.1 (hremoved.nodup_iff.1 hs.nodup)).1
  refine ⟨fun f hf => fieldValue_of_not_mem (hf ▸ hx), fun f hf hkept => ?_,
    fun vs hoptional hkept hvs =>
      decodeObject_blanked hc ho hadmitted hs hlength hlength' hremoved hkept hoptional hvs,
    fun before f after hfields hrequired hf =>
      decodeObject_of_absent hadmitted hs.after hlength' hfields hrequired (hf ▸ hx)⟩
  have hnames : f.name ∈ ns' → f.name ∈ ns := fun h => hremoved.mem_iff.2 (List.mem_cons_of_mem x h)
  exact fieldValue_of_kept hc ho hs hlength hlength' hnames hkept

section

open Sample

def listed (name : String) (fields : List String) : Schema := ⟨[.composite name fields]⟩

theorem relists_listed {name : String} (hn : ns.Nodup) (hn' : ns'.Nodup) :
    (listed name ns).Relists (listed name ns') name ns ns' := by
  have hfields : ∀ fields, (listed name fields).fields? name = some fields := fun fields => by
    simp [listed, Schema.fields?, Schema.get?, TypeNotation.name]
  refine ⟨hfields ns, hfields ns', fun d hd => ?_, hn, hn'⟩
  simp [listed, Schema.fields?, Schema.get?, TypeNotation.name, Ne.symm hd]

theorem Loads.mem {natives : List Ty} {r : Registry} {os : List ObjectType} {id : Nat} {label : String}
    {policy : Policy} (h : (⟨natives, r, os.foldl Scope.load (.new id label), policy⟩ : Setting).Loads o) :
    o ∈ os := by
  rcases h with ⟨t, ho⟩ | ⟨name, ho⟩
  · exact (Scope.mem_of_loadAll ho).resolve_right fun h => nomatch h
  · exact (Scope.resolved_of_loadAll ho).resolve_right fun h => nomatch h

/-- A bill with a total, and not only the date when it is due. -/
def bill : ObjectType := ⟨invoice, "app.Invoice", [field "total" (.builtin .decimal),
  field "currency" (.builtin .currency), field "due" (.builtin .localDate), field "payments" (.list payment)]⟩

def chain : ObjectType :=
  ⟨type "app.Chain" "Chain", "app.Chain", [optionalField "label" .string,
    field "rest" (.list (type "app.Chain" "Chain"))]⟩

def ledger : Setting :=
  ⟨[], Registry.empty.bind (Builtin.serializer .decimal), ((Scope.new 1 "ledger").load bill).load chain,
    .new 1 true⟩

def undated : List String := ["total", "currency", "payments"]

/-- The values of a bill without its date, whose total is no number. -/
def garbled : List Element :=
  [.described "math.BigDecimal" (.list [.text "abc", .long 0]), .described "money.Currency" (.text "CHF"),
    .list []]

def link : Element := .described "app.Chain" (.list [.text "end", .list []])

/-- The last link of a chain, with its fields in another order and one more. -/
def relaidLink : Element := .described "app.Chain" (.list [.null, .list [], .text "end"])

theorem grown_ledger : ledger.Grown :=
  have hadd : Registry.empty.add true (Builtin.serializer .decimal) =
      .ok (Registry.empty.bind (Builtin.serializer .decimal), .added) := rfl
  (((Grown.empty [] 1 "ledger" (.new 1 true)).load bill).load chain).add hadd

def rent : List Element := [.text "bob", .long 7, .text "rent"]

/-- The memo of a payment stands elsewhere, next to something that nobody reads, or is missing. And each link of a
chain has its label last. -/
theorem fields_by_name_memo :
    till.decodeObject (listed "app.Payment" ["junk", "memo", "cents", "payee"]) memoType
        [.described "app.Junk" .null, .text "rent", .long 7, .text "bob"] =
      till.decodeObject (listed "app.Payment" ["payee", "cents", "memo"]) memoType rent ∧
    till.decodeObject (listed "app.Payment" ["payee", "cents"]) memoType [.text "bob", .long 7] =
      .ok (.seq [.text "bob", .int 7, .none]) ∧
    ledger.decodeObject (listed "app.Chain" ["junk", "rest", "label"]) chain
        [.null, .list [relaidLink], .text "start"] =
      ledger.decodeObject (listed "app.Chain" ["label", "rest"]) chain
        [.text "start", .list [link]] := by
  have hgrown : till.Grown := ((Grown.empty [] 1 "till" (.new 1 true)).load memoType).load plainType
  have hloads : till.Loads memoType := .inl ⟨paymentMemo, rfl⟩
  have hnodup : ["payee", "cents", "memo"].Nodup := by decide
  have hkept : ∀ x, x ≠ "memo" → Kept "app.Payment" ["payee", "cents", "memo"] rent ["payee", "cents"]
      [.text "bob", .long 7] x := by
    intro x hx e he
    simp only [rent, List.zip_cons_cons, List.zip_nil_left, List.mem_cons, Prod.mk.injEq,
      List.not_mem_nil, or_false] at he ⊢
    rcases he with ⟨rfl, rfl⟩ | ⟨rfl, rfl⟩ | ⟨rfl, -⟩
    · exact ⟨.inl ⟨rfl, rfl⟩, by decide⟩
    · exact ⟨.inr ⟨rfl, rfl⟩, by decide⟩
    · exact absurd rfl hx
  have hread : till.decodeObject (listed "app.Payment" ["payee", "cents", "memo"]) memoType rent =
      .ok (.seq [.text "bob", .int 7, .some (.text "rent")]) := rfl
  obtain ⟨-, -, hmoved, -⟩ := @fields_by_name till _ _ memoType _ _ rent
    [.described "app.Junk" .null, .text "rent", .long 7, .text "bob"] hgrown hloads rfl
    (relists_listed hnodup (by decide : ["junk", "memo", "cents", "payee"].Nodup)) rfl
  obtain ⟨-, -, -, -, hremoved⟩ := @fields_by_name till _ _ memoType _ _ rent [.text "bob", .long 7] hgrown
    hloads rfl (relists_listed hnodup (by decide : ["payee", "cents"].Nodup)) rfl
  obtain ⟨-, -, hlinks, -⟩ := @fields_by_name ledger _ _ chain _ _ [.text "start", .list [link]]
    [.null, .list [relaidLink], .text "start"]
    grown_ledger (.inl ⟨chain.type, rfl⟩) rfl (relists_listed (by decide : ["label", "rest"].Nodup)
      (by decide : ["junk", "rest", "label"].Nodup)) rfl
  have hignores : ledger.Ignores "app.Chain" ["junk"] := by
    intro o ho _
    have hasks : ∀ o ∈ [bill, chain], ∀ f ∈ o.fields, f.name ∉ ["junk"] := by decide
    exact hasks o (Loads.mem ho)
  have hmovedLink : (["junk", "rest", "label"].zip [.null, .list [], .text "end"]).Perm
      (["label", "rest"].zip [Element.text "end", .list []] ++ [("junk", Element.null)]) :=
    List.reverse_perm (["label", "rest"].zip [Element.text "end", .list []] ++ [("junk", Element.null)])
  have hlink : ledger.Relaid "app.Chain" ["label", "rest"] ["junk", "rest", "label"] link relaidLink :=
    .object rfl rfl rfl (.cons (.leaf trivial) (.cons (.list .nil) .nil)) hmovedLink hignores
  refine ⟨hmoved rent [("junk", .described "app.Junk" .null)] rfl ?_ ?_ ?_, ?_, ?_⟩
  · exact .cons (.leaf trivial) (.cons (.leaf trivial) (.cons (.leaf trivial) .nil))
  · exact List.reverse_perm (["payee", "cents", "memo"].zip rent ++ [("junk", .described "app.Junk" .null)])
  · decide
  · refine (hremoved "memo" rfl (by decide)).2.2.1 _ ?_ ?_ hread
    · decide
    · exact fun f _ => hkept f.name
  · refine hlinks [.text "start", .list [relaidLink]] [("junk", .null)] rfl ?_ ?_ ?_
    · exact .cons (.leaf trivial) (.cons (.list (.cons hlink .nil)) .nil)
    · exact List.reverse_perm
        (["label", "rest"].zip [Element.text "start", .list [relaidLink]] ++ [("junk", Element.null)])
    · decide

def bond : ObjectType :=
  ⟨type "app.Bond" "Bond", "app.Bond", [field "sheets" (.list (type "app.Sheet" "Sheet"))]⟩

/-- Another type of the same name, whose objects may have a note. -/
def sheet : ObjectType := ⟨type "app.Sheet" "Sheet", "app.Bond", [optionalField "note" .string]⟩

/-- An object type with the name of a serializer. -/
def amount : ObjectType := ⟨type "app.Sum" "Sum", "math.BigDecimal", [field "text" .any]⟩

def vault : Setting :=
  ⟨[], Registry.empty.bind (Builtin.serializer .decimal),
    (((Scope.new 1 "vault").load sheet).load bond).load amount, .new 1 true⟩

/-- A bill whose date is taken out, which is required, fails for its total. And if the first link of a chain
loses its label, which is optional, what follows it does not fit any more. A note that is added to a bond and to
the sheets in it, for which bonds do not ask, changes what the bond is read as. And a decimal in an object of its
name cannot be read with its parts in another order. -/
theorem fails_otherwise_of_removed :
    (ledger.Grown ∧ ledger.Loads bill ∧ ledger.policy.isAdmitted bill.name = true ∧
      (listed bill.name ("due" :: undated)).Relists (listed bill.name undated) bill.name
        ("due" :: undated) undated ∧
      field "due" (.builtin .localDate) ∈ bill.fields ∧ garbled.length = undated.length ∧
      ∀ expected found,
        ledger.decodeObject (listed bill.name undated) bill garbled ≠ Abort.mismatch expected found) ∧
    (ledger.Loads chain ∧ ledger.policy.isAdmitted chain.name = true ∧
      (listed chain.name ["label", "rest"]).Relists (listed chain.name ["rest"]) chain.name
        ["label", "rest"] ["rest"] ∧
      ledger.decodeObject (listed chain.name ["label", "rest"]) chain [.text "start", .list [link]] =
        .ok (.seq [.some (.text "start"), .seq [.seq [.some (.text "end"), .seq []]]]) ∧
      ledger.decodeObject (listed chain.name ["rest"]) chain [.list [link]] =
        Abort.mismatch "1 fields" "2 values") ∧
    (vault.Grown ∧ vault.Loads bond ∧ vault.policy.isAdmitted bond.name = true ∧
      (listed bond.name ["sheets"]).Relists (listed bond.name ["sheets", "note"]) bond.name
        ["sheets"] ["sheets", "note"] ∧
      (∀ f ∈ bond.fields, f.name ≠ "note") ∧
      vault.decodeObject (listed bond.name ["sheets"]) bond
          [.list [.described bond.name (.list [.list []])]] =
        .ok (.seq [.seq [.seq [.none]]]) ∧
      vault.decodeObject (listed bond.name ["sheets", "note"]) bond
          [.list [.described bond.name (.list [.list [], .text "paid"])], .text "paid"] =
        .ok (.seq [.seq [.seq [.some (.text "paid")]]])) ∧
    vault.Loads amount ∧ vault.policy.isAdmitted amount.name = true ∧
      (listed amount.name ["text", "scale"]).Relists (listed amount.name ["scale", "text"]) amount.name
        ["text", "scale"] ["scale", "text"] ∧
      (vault.decodeObject (listed amount.name ["text", "scale"]) amount
        [.described amount.name (.list [.text "15", .long 1]), .null]).isOk = true ∧
      (vault.decodeObject (listed amount.name ["scale", "text"]) amount
        [.null, .described amount.name (.list [.long 1, .text "15"])]).isOk = false := by
  have hgarbled : ∃ cause, ledger.decodeObject (listed bill.name undated) bill garbled =
      .error (.error (.invalidValue cause)) := ⟨_, rfl⟩
  have hadd : Registry.empty.add true (Builtin.serializer .decimal) =
      .ok (Registry.empty.bind (Builtin.serializer .decimal), .added) := rfl
  have hvault : vault.Grown :=
    ((((Grown.empty [] 1 "vault" (.new 1 true)).load sheet).load bond).load amount).add hadd
  refine ⟨⟨grown_ledger, .inl ⟨invoice, rfl⟩, rfl, relists_listed (by decide) (by decide), ?_, rfl, ?_⟩,
    ⟨.inl ⟨chain.type, rfl⟩, rfl, relists_listed (by decide) (by decide), rfl, rfl⟩,
    ⟨hvault, .inl ⟨bond.type, rfl⟩, rfl, relists_listed (by decide) (by decide), by decide, rfl, rfl⟩,
    .inl ⟨amount.type, rfl⟩, rfl, relists_listed (by decide) (by decide), rfl, rfl⟩
  · simp [bill]
  · intro expected found hmismatch
    obtain ⟨cause, hcause⟩ := hgarbled
    rw [hmismatch] at hcause
    cases hcause

end

end Setting

end DurableFlow
