import DurableFlow.Proofs.RoundTrip.Recovered

/-!
# Bodies laid out by other names

The schema may list the fields of an object type in another order, and more of them, if the values of each
object of the type are in that order too. Wherever such an object is in a body, it is read as before: the
values stand in the places of their names, and nobody asks for the others.
-/

namespace DurableFlow

namespace Schema

/-- Two schemas that differ in the fields of one name only, none of which is listed twice. -/
structure Relists (s s' : Schema) (name : String) (ns ns' : List String) : Prop where
  before : s.fields? name = some ns
  after : s'.fields? name = some ns'
  others : ∀ d, d ≠ name → s'.fields? d = s.fields? d
  nodup : ns.Nodup
  nodup' : ns'.Nodup

end Schema

namespace Setting

/-- The object type is loaded. -/
def Loads (c : Setting) (o : ObjectType) : Prop :=
  (∃ t, c.scope.objectType? t = some o) ∨ ∃ name, c.scope.resolve? name = some o

/-- No loaded type of this name asks for one of these fields. -/
def Ignores (c : Setting) (name : String) (fields : List String) : Prop :=
  ∀ o, c.Loads o → o.name = name → ∀ f ∈ o.fields, f.name ∉ fields

/-- The second element is the first one with the values of each object of this name laid out by `ns'` in
place of `ns`: in any order, as long as each keeps its name, and with any values for further names, which no
loaded type asks for. Any of the loaded types may be the one that it is read as, and a serializer of the name
would go by the places of the values. What a serializer reads as it is has to be the same. -/
inductive Relaid (c : Setting) (name : String) (ns ns' : List String) : Element → Element → Prop
  | leaf {e : Element} (h : e.IsLeaf) : Relaid c name ns ns' e e
  | list {es es' : List Element} (h : List.Forall₂ (Relaid c name ns ns') es es') :
    Relaid c name ns ns' (.list es) (.list es')
  | map {es es' : List (Element × Element)}
      (hkeys : List.Forall₂ (Relaid c name ns ns') (es.map (·.1)) (es'.map (·.1)))
      (hvalues : List.Forall₂ (Relaid c name ns ns') (es.map (·.2)) (es'.map (·.2))) :
    Relaid c name ns ns' (.map es) (.map es')
  | described {d : String} {body body' : Element} (hd : d ≠ name)
      (h : Relaid c name ns ns' body body')
      (hsame : ∀ s write read, c.registry.byDescriptor.get? d = some s →
        s.codec = .single write read → body' = body) :
    Relaid c name ns ns' (.described d body) (.described d body')
  | object {es es' moved : List Element} {more : List (String × Element)}
      (hname : c.registry.byDescriptor.get? name = none)
      (hlength : es.length = ns.length) (hlength' : es'.length = ns'.length)
      (hmoved : List.Forall₂ (Relaid c name ns ns') es moved)
      (hperm : (ns'.zip es').Perm (ns.zip moved ++ more)) (hmore : c.Ignores name (more.map (·.1))) :
    Relaid c name ns ns' (.described name (.list es)) (.described name (.list es'))

/-- Does the goal ask for the fields of another type than those of this name? -/
def Avoids (name : String) : Goal → Prop
  | .fields o => o.name ≠ name
  | _ => True

/-- What the elements are read as, for whatever is asked for but the fields of a type of this name. -/
structure ReadAlike (c : Setting) (s s' : Schema) (name : String) (e e' : Element) : Prop where
  read : ∀ goal, Avoids name goal → c.readElement s e goal = c.readElement s' e' goal
  text : ∀ what, e.asText what = e'.asText what
  long : ∀ what, e.asLong what = e'.asLong what

variable {c : Setting} {s s' : Schema} {name : String} {ns ns' : List String} {e e' : Element}
  {es es' : List Element}

theorem ReadAlike.value (h : c.ReadAlike s s' name e e') (t : Ty) :
    c.readElement s e (.value t) = c.readElement s' e' (.value t) := h.read (.value t) trivial

theorem mapM_congr_forall₂ {α β γ : Type} {f : α → Except Abort γ} {g : β → Except Abort γ} {as : List α}
    {bs : List β} (h : List.Forall₂ (fun a b => f a = g b) as bs) : as.mapM f = bs.mapM g := by
  induction h with
  | nil => rfl
  | cons hab _ ih => rw [List.mapM_cons, List.mapM_cons, hab, ih]

theorem mapM_congr_mem {α β : Type} {g g' : α → Except Abort β} {as : List α}
    (h : ∀ a ∈ as, g a = g' a) : as.mapM g = as.mapM g' :=
  mapM_congr_forall₂ (List.forall₂_same.2 h)

theorem forall₂_of_mem {α β : Type} {R Q : α → β → Prop} {as : List α} {bs : List β}
    (h : List.Forall₂ R as bs) (hQ : ∀ a ∈ as, ∀ b, R a b → Q a b) : List.Forall₂ Q as bs := by
  induction h with
  | nil => exact .nil
  | cons hab _ ih =>
    exact .cons (hQ _ List.mem_cons_self _ hab) (ih fun a ha => hQ a (List.mem_cons_of_mem _ ha))

theorem asTuple_list_bind {α : Type} (es : List Element) (what : String) (n : Nat)
    (f : List Element → Except Abort α) :
    ((Element.list es).asTuple what n >>= f) =
      if es.length = n then f es
      else Abort.mismatch s!"{what} with {n} parts" s!"{es.length} parts" := by
  have htuple : (Element.list es).asTuple what n = if es.length = n then .ok es
      else Abort.mismatch s!"{what} with {n} parts" s!"{es.length} parts" := rfl
  rw [htuple]
  split_ifs <;> rfl

theorem readPlain_list_alike (h : List.Forall₂ (c.ReadAlike s s' name) es es') (t : Ty) :
    readPlain t (.list es) (es.map (c.readElement s)) [] =
      readPlain t (.list es') (es'.map (c.readElement s')) [] := by
  have hlength := h.length_eq
  have hitems : ∀ item : Ty, (es.map (c.readElement s)).mapM (fun r => r (.value item)) =
      (es'.map (c.readElement s')).mapM fun r => r (.value item) := by
    intro item
    rw [List.mapM_map, List.mapM_map]
    exact mapM_congr_forall₂ (h.imp fun _ _ he => he.value item)
  cases t with
  | list item | set item =>
    simp only [readPlain, hitems]
    rfl
  | optional item =>
    simp only [readPlain, asTuple_list_bind, hitems, hlength]
  | pair first second =>
    simp only [readPlain, asTuple_list_bind, hlength]
    cases h with
    | nil => rfl
    | cons he h =>
      cases h with
      | nil => rfl
      | cons he' h =>
        cases h with
        | nil => simp only [List.map_cons, List.map_nil, he.value, he'.value]
        | cons _ _ => rfl
  | _ => rfl

theorem readPlain_map_alike {es es' : List (Element × Element)}
    (h : List.Forall₂ (fun e e' => c.ReadAlike s s' name e.1 e'.1 ∧ c.ReadAlike s s' name e.2 e'.2) es es')
    (t : Ty) :
    readPlain t (.map es) [] (es.map fun e => (c.readElement s e.1, c.readElement s e.2)) =
      readPlain t (.map es') [] (es'.map fun e => (c.readElement s' e.1, c.readElement s' e.2)) := by
  have hentries : ∀ key value : Ty,
      (es.map fun e => (c.readElement s e.1, c.readElement s e.2)).mapM
        (fun r => do return (← r.1 (.value key), ← r.2 (.value value))) =
      (es'.map fun e => (c.readElement s' e.1, c.readElement s' e.2)).mapM
        fun r => do return (← r.1 (.value key), ← r.2 (.value value)) := by
    intro key value
    rw [List.mapM_map, List.mapM_map]
    refine mapM_congr_forall₂ (h.imp fun e e' he => ?_)
    change (do return (← c.readElement s e.1 (.value key), ← c.readElement s e.2 (.value value)) :
      Except Abort (Value × Value)) = _
    rw [he.1.value, he.2.value]
    rfl
  cases t with
  | map key value | hashmap key value => simp only [readPlain, hentries]
  | _ => rfl

theorem readParts_alike (h : List.Forall₂ (c.ReadAlike s s' name) es es') (backward : Bool)
    (parts : List Part) :
    readParts backward parts es (es.map (c.readElement s)) =
      readParts backward parts es' (es'.map (c.readElement s')) := by
  induction h generalizing parts with
  | nil => cases parts <;> rfl
  | @cons e e' _ _ he _ ih =>
    cases parts with
    | nil => rfl
    | cons p parts =>
      have hpart : readPart p e (c.readElement s e) = readPart p e' (c.readElement s' e') := by
        cases p with
        | text what => simp only [readPart, he.text]
        | offset => simp only [readPart, readOffset, he.long]
        | value t => exact he.value t
      simp only [List.map_cons, readParts, hpart, ih]

theorem readField_alike {names names' : List String} {f : Field} (type : String)
    (h : Option.Rel (fun p q => c.ReadAlike s s' name p.2 q.2) ((names.zip es).find? (·.1 = f.name))
      ((names'.zip es').find? (·.1 = f.name))) :
    readField type names (es.map (c.readElement s)) f =
      readField type names' (es'.map (c.readElement s')) f := by
  simp only [readField, List.zip_map_right, List.find?_map, Function.comp_def, Prod.map_fst, id_eq]
  generalize (names.zip es).find? _ = found, (names'.zip es').find? _ = found' at h
  cases h with
  | none => rfl
  | some he => simp only [Option.map_some, Prod.map, he.value]

theorem readFields_eq_mapM (type : String) (names : List String) (rs : List Reader) (fs : List Field) :
    readFields type names rs fs = fs.mapM (readField type names rs) := by
  induction fs with
  | nil => rfl
  | cons f fs ih => rw [readFields_cons, List.mapM_cons, ih]

theorem readFields_congr {type : String} {names names' : List String} {rs rs' : List Reader}
    {fs : List Field} (h : ∀ f ∈ fs, readField type names rs f = readField type names' rs' f) :
    readFields type names rs fs = readFields type names' rs' fs := by
  rw [readFields_eq_mapM, readFields_eq_mapM, mapM_congr_mem h]

theorem find?_zip_forall₂ {R : Element → Element → Prop} (h : List.Forall₂ R es es') (names : List String)
    (x : String) :
    Option.Rel (fun p q => R p.2 q.2) ((names.zip es).find? (·.1 = x))
      ((names.zip es').find? (·.1 = x)) := by
  induction h generalizing names with
  | nil =>
    rw [List.zip_nil_right]
    exact .none
  | cons hr _ ih =>
    cases names with
    | nil => exact .none
    | cons n names =>
      rw [List.zip_cons_cons, List.zip_cons_cons, List.find?_cons, List.find?_cons]
      cases decide (n = x) with
      | true => exact .some hr
      | false => exact ih names

theorem nodup_fst_zip (hn : ns.Nodup) (hlength : es.length = ns.length) :
    ((ns.zip es).map (·.1)).Nodup := by
  rw [List.map_fst_zip (by omega)]
  exact hn

theorem find?_rearranged {R : Element → Element → Prop} {moved : List Element}
    {more : List (String × Element)} {x : String} (hn' : ns'.Nodup) (hlength' : es'.length = ns'.length)
    (hmoved : List.Forall₂ R es moved) (hperm : (ns'.zip es').Perm (ns.zip moved ++ more))
    (hx : x ∉ more.map (·.1)) :
    Option.Rel (fun p q => R p.2 q.2) ((ns.zip es).find? (·.1 = x))
      ((ns'.zip es').find? (·.1 = x)) := by
  have hnone : more.find? (·.1 = x) = none := by
    rw [List.find?_eq_none]
    intro p hp hpx
    exact hx (of_decide_eq_true hpx ▸ List.mem_map_of_mem hp)
  rw [Bindings.find?_perm hperm (nodup_fst_zip hn' hlength') x, List.find?_append, hnone, Option.or_none]
  exact find?_zip_forall₂ hmoved ns x

/-- The fields of an object are read alike where its values are rearranged, and its type does not ask for those
that are added. -/
theorem readFields_rearranged (hs : s.Relists s' name ns ns') {o : ObjectType} (hname : o.name = name)
    {moved : List Element} {more : List (String × Element)} (hlength : es.length = ns.length)
    (hlength' : es'.length = ns'.length) (hmoved : List.Forall₂ (c.ReadAlike s s' name) es moved)
    (hperm : (ns'.zip es').Perm (ns.zip moved ++ more)) (hmore : ∀ f ∈ o.fields, f.name ∉ more.map (·.1)) :
    c.readElement s (.list es) (.fields o) = c.readElement s' (.list es') (.fields o) := by
  have hfields : ∀ f ∈ o.fields, readField o.name ns (es.map (c.readElement s)) f =
      readField o.name ns' (es'.map (c.readElement s')) f := fun f hf =>
    readField_alike o.name (find?_rearranged hs.nodup' hlength' hmoved hperm (hmore f hf))
  subst hname
  rw [readElement_fields hs.before, readElement_fields hs.after, if_neg (not_not_intro hlength),
    if_neg (not_not_intro hlength'), readFields_congr hfields]

theorem readElement_list_alike (hs : s.Relists s' name ns ns')
    (h : List.Forall₂ (c.ReadAlike s s' name) es es') (goal : Goal) (hgoal : Avoids name goal) :
    c.readElement s (.list es) goal = c.readElement s' (.list es') goal := by
  cases goal with
  | value t =>
    rw [readElement_list, readElement_list]
    simp only [readNode, readPlain_list_alike h t]
    rfl
  | parts what backward parts =>
    rw [readElement_list, readElement_list]
    simp only [readNode, asTuple_list_bind, h.length_eq, readParts_alike h]
  | fields o =>
    have hfields : s'.fields? o.name = s.fields? o.name := hs.others o.name hgoal
    cases hlisted : s.fields? o.name with
    | none =>
      rw [readElement_list, readElement_list]
      simp only [readNode, hfields, hlisted]
    | some names =>
      have hread : ∀ f ∈ o.fields, readField o.name names (es.map (c.readElement s)) f =
          readField o.name names (es'.map (c.readElement s')) f :=
        fun f _ => readField_alike o.name (find?_zip_forall₂ h names f.name)
      rw [readElement_fields hlisted, readElement_fields (hfields.trans hlisted), h.length_eq,
        readFields_congr hread]

theorem readElement_map_alike (hs : s.Relists s' name ns ns') {es es' : List (Element × Element)}
    (h : List.Forall₂ (fun e e' => c.ReadAlike s s' name e.1 e'.1 ∧ c.ReadAlike s s' name e.2 e'.2) es es')
    (goal : Goal) (hgoal : Avoids name goal) :
    c.readElement s (.map es) goal = c.readElement s' (.map es') goal := by
  rw [readElement_map, readElement_map]
  cases goal with
  | value t =>
    simp only [readNode, readPlain_map_alike h t]
    rfl
  | parts what backward parts => rfl
  | fields o =>
    simp only [readNode, hs.others o.name hgoal]
    rfl

theorem readNode_described_alike (hs : s.Relists s' name ns ns') (d : String) (e e' : Element)
    (goal : Goal) (hgoal : Avoids name goal) :
    readNode s (.described d e) [] [] goal = readNode s' (.described d e') [] [] goal := by
  cases goal with
  | value t => cases t <;> rfl
  | parts what backward parts => rfl
  | fields o =>
    simp only [readNode, hs.others o.name hgoal]
    rfl

theorem readBody_alike {x : Serializer} {body body' : Element} {r r' : Reader}
    (hsame : ∀ write read, x.codec = .single write read → body' = body)
    (hr : ∀ goal, Avoids name goal → r goal = r' goal) : c.readBody x body r = c.readBody x body' r' := by
  rw [readBody, readBody]
  cases hcodec : x.codec with
  | single write read => rw [hsame write read hcodec]
  | composite what backward parts check => simp only [hr (.parts what backward parts) trivial]
  | proxy standIn toProxy fromProxy => simp only [hr (.value standIn) trivial]

theorem readObject_alike {o : ObjectType} {r r' : Reader} (h : r (.fields o) = r' (.fields o)) :
    c.readObject o r = c.readObject o r' := by
  rw [readObject, readObject, h]

/-- A described element is read alike for a type if its body is read alike by whoever goes by its
descriptor: the serializer that is registered, the object types, or the native type if there are none. -/
theorem readElement_described_value (hc : c.Grown) (hs : s.Relists s' name ns ns') {d : String}
    {body body' : Element}
    (hregistered : ∀ x, c.registry.byDescriptor.get? d = some x →
      c.readBody x body (c.readElement s body) = c.readBody x body' (c.readElement s' body'))
    (hobject : ∀ o, c.Loads o → o.name = d →
      c.readObject o (c.readElement s body) = c.readObject o (c.readElement s' body'))
    (hnative : c.scope.resolve? d = none →
      ∀ t, c.readElement s body (.value t) = c.readElement s' body' (.value t)) (t : Ty) :
    c.readElement s (.described d body) (.value t) = c.readElement s' (.described d body') (.value t) := by
  have hdynamic : c.readDynamic d body (c.readElement s body) =
      c.readDynamic d body' (c.readElement s' body') := by
    rw [readDynamic, readDynamic]
    cases hx : c.registry.byDescriptor.get? d with
    | some x => simp only [hregistered x hx]
    | none =>
      cases ho : c.scope.resolve? d with
      | some o => simp only [hobject o (.inr ⟨d, ho⟩) (hc.name_of_resolve? ho)]
      | none => simp only [hnative ho]
  have htyped : c.readTyped t d body (c.readElement s body) =
      c.readTyped t d body' (c.readElement s' body') := by
    rw [readTyped, readTyped]
    cases hx : c.registry.byType.get? t with
    | some x =>
      by_cases hdescriptor : x.descriptor = d
      · have hbound := hc.consistent.byDescriptor_of_byType hx
        simp only [if_pos hdescriptor, hregistered x (hdescriptor ▸ hbound)]
      · simp only [if_neg hdescriptor]
    | none =>
      cases ho : c.scope.objectType? t with
      | none => rfl
      | some o =>
        by_cases hdescriptor : o.name = d
        · simp only [if_pos hdescriptor, hobject o (.inl ⟨t, ho⟩) hdescriptor]
        · simp only [if_neg hdescriptor]
  rw [readElement_described, readElement_described, readNode_described_alike hs d body body' (.value t) trivial,
    hdynamic, htyped]

theorem readElement_described_alike (hc : c.Grown) (hs : s.Relists s' name ns ns') {d : String}
    {body body' : Element} (hd : d ≠ name)
    (hsame : ∀ x write read, c.registry.byDescriptor.get? d = some x →
      x.codec = .single write read → body' = body)
    (hr : ∀ goal, Avoids name goal → c.readElement s body goal = c.readElement s' body' goal)
    (goal : Goal) (hgoal : Avoids name goal) :
    c.readElement s (.described d body) goal = c.readElement s' (.described d body') goal := by
  cases goal with
  | parts what backward parts => rfl
  | fields o => exact readNode_described_alike hs d body body' (.fields o) hgoal
  | value t =>
    refine readElement_described_value hc hs (fun x hx => ?_) (fun o _ hname => ?_) (fun _ t => ?_) t
    · exact readBody_alike (fun write read => hsame x write read hx) hr
    · have hother : o.name ≠ name := by rwa [hname]
      exact readObject_alike (hr (.fields o) hother)
    · exact hr (.value t) trivial

theorem readElement_object_alike (hc : c.Grown) (hs : s.Relists s' name ns ns')
    (hunregistered : c.registry.byDescriptor.get? name = none)
    (hresolved : (c.scope.resolve? name).isSome)
    (hfields : ∀ o, c.Loads o → o.name = name →
      c.readElement s (.list es) (.fields o) = c.readElement s' (.list es') (.fields o))
    (goal : Goal) (hgoal : Avoids name goal) :
    c.readElement s (.described name (.list es)) goal =
      c.readElement s' (.described name (.list es')) goal := by
  cases goal with
  | parts what backward parts => rfl
  | fields o => exact readNode_described_alike hs name _ _ (.fields o) hgoal
  | value t =>
    refine readElement_described_value hc hs (fun x hx => ?_) (fun o ho hname => ?_) (fun hnone => ?_) t
    · rw [hunregistered] at hx
      cases hx
    · exact readObject_alike (hfields o ho hname)
    · rw [hnone] at hresolved
      cases hresolved

/-- An element is read alike if the values in it are rearranged, and so are the members of a list, which
may be the values of an object. -/
theorem readAlike_of_relaid (hc : c.Grown) (hs : s.Relists s' name ns ns')
    (hresolved : (c.scope.resolve? name).isSome) (e : Element) :
    (∀ e', c.Relaid name ns ns' e e' → c.ReadAlike s s' name e e') ∧
      ∀ es, e = .list es → ∀ m ∈ es, ∀ m', c.Relaid name ns ns' m m' →
        c.ReadAlike s s' name m m' := by
  induction e using Element.member_induction with
  | leaf e he =>
    refine ⟨fun e' h => ?_, fun es hes => ?_⟩
    · cases h with
      | leaf =>
        refine ⟨fun goal hgoal => ?_, fun _ => rfl, fun _ => rfl⟩
        rw [readElement_leaf c s he, readElement_leaf c s' he]
        cases goal with
        | value t => rfl
        | parts what backward parts => rfl
        | fields o => simp only [readNode, hs.others o.name hgoal]
      | list | map | described | object => exact he.elim
    · rw [hes] at he
      exact he.elim
  | list es ih =>
    refine ⟨fun e' h => ?_, fun es' hes m hm => ?_⟩
    · cases h with
      | leaf he => exact he.elim
      | list h =>
        have hes := forall₂_of_mem h fun m hm m' hr => (ih m hm).1 m' hr
        exact ⟨readElement_list_alike hs hes, fun _ => rfl, fun _ => rfl⟩
    · rw [← Element.list.inj hes] at hm
      exact (ih m hm).1
  | map es ih =>
    refine ⟨fun e' h => ?_, by rintro _ ⟨⟩⟩
    cases h with
    | leaf he => exact he.elim
    | map hkeys hvalues =>
      rw [List.forall₂_map_left_iff, List.forall₂_map_right_iff] at hkeys hvalues
      have hkeys' := forall₂_of_mem hkeys fun m hm m' hr => (ih m hm).1.1 m'.1 hr
      have hvalues' := forall₂_of_mem hvalues fun m hm m' hr => (ih m hm).2.1 m'.2 hr
      obtain ⟨hlength, hkeys'⟩ := List.forall₂_iff_zip.1 hkeys'
      obtain ⟨-, hvalues'⟩ := List.forall₂_iff_zip.1 hvalues'
      refine ⟨readElement_map_alike hs ?_, fun _ => rfl, fun _ => rfl⟩
      exact List.forall₂_iff_zip.2 ⟨hlength, fun hp => ⟨hkeys' hp, hvalues' hp⟩⟩
  | described d body ih =>
    refine ⟨fun e' h => ?_, by rintro _ ⟨⟩⟩
    cases h with
    | leaf he => exact he.elim
    | described hd h hsame =>
      exact ⟨readElement_described_alike hc hs hd hsame (ih.1 _ h).read, fun _ => rfl, fun _ => rfl⟩
    | object hunregistered hlength hlength' hmoved hperm hmore =>
      have hmoved' := forall₂_of_mem hmoved (ih.2 _ rfl)
      refine ⟨readElement_object_alike hc hs hunregistered hresolved fun o ho hname => ?_, fun _ => rfl,
        fun _ => rfl⟩
      exact readFields_rearranged hs hname hlength hlength' hmoved' hperm (hmore o ho hname)

theorem Relaid.readAlike (hc : c.Grown) (hs : s.Relists s' name ns ns')
    (hresolved : (c.scope.resolve? name).isSome) (h : c.Relaid name ns ns' e e') :
    c.ReadAlike s s' name e e' := (readAlike_of_relaid hc hs hresolved e).1 e' h

end Setting

end DurableFlow
