import DurableFlow.Proofs.Admission.Gated
import DurableFlow.Proofs.Reading.Members

/-!
# Reading under two policies

The same for reading, on any bytes: neither policy has a say in how parts, members and fields are read, and
every way to the fields of an object leads past the check of its type.
-/

namespace DurableFlow.Setting

variable {c : Setting} {p : Policy} {fields : ObjectType → List Field}

def GatedReader (c : Setting) (r r' : Reader) : Prop := ∀ goal, c.Gated (r goal) (r' goal)

variable {items items' : List Reader} {entries entries' : List (Reader × Reader)}

theorem readPlain_gated (t : Ty) (e : Element) (hi : List.Forall₂ c.GatedReader items items')
    (he : List.Forall₂ (fun x y => c.GatedReader x.1 y.1 ∧ c.GatedReader x.2 y.2) entries entries') :
    c.Gated (readPlain t e items entries) (readPlain t e items' entries') := by
  have hlist : ∀ item : Ty,
      c.Gated (items.mapM fun r => r (.value item)) (items'.mapM fun r => r (.value item)) :=
    fun item => .mapM (hi.imp fun _ _ h => h (.value item))
  have hmap : ∀ key value : Ty, c.Gated
      (entries.mapM fun r => do return (← r.1 (.value key), ← r.2 (.value value)))
      (entries'.mapM fun r => do return (← r.1 (.value key), ← r.2 (.value value))) :=
    fun key value => .mapM (he.imp fun _ _ h => .bind (h.1 (.value key)) fun _ =>
      .bind_left (h.2 (.value value)))
  rw [readPlain.eq_def, readPlain.eq_def]
  split
  · exact .bind_right _ fun _ => .bind_left (hlist _)
  · exact .bind_right _ fun _ => .bind_left (hlist _)
  · split
    · exact .refl _
    · exact .bind_right _ fun _ => .bind_left (hlist _)
  · refine .bind_right _ fun _ => ?_
    cases hi with
    | nil => exact .refl _
    | cons hr hi =>
      cases hi with
      | nil => exact .refl _
      | cons hr' hi =>
        cases hi with
        | nil => exact .bind (hr _) fun _ => .bind_left (hr' _)
        | cons _ _ => exact .refl _
  · split
    · exact .bind_left (hmap _ _)
    · exact .refl _
  · split
    · exact .bind_left (hmap _ _)
    · exact .refl _
  · exact .refl _

theorem readPart_gated (part : Part) (e : Element) {r r' : Reader} (h : c.GatedReader r r') :
    c.Gated (readPart part e r) (readPart part e r') := by
  cases part with
  | text what => exact .refl _
  | offset => exact .refl _
  | value t => exact h _

theorem readParts_gated (backward : Bool) (parts : List Part) (es : List Element)
    (hi : List.Forall₂ c.GatedReader items items') :
    c.Gated (readParts backward parts es items) (readParts backward parts es items') := by
  induction hi generalizing parts es with
  | nil =>
    cases parts with
    | nil => exact .refl _
    | cons part parts => cases es <;> exact .refl _
  | cons hr _ ih =>
    cases parts with
    | nil => exact .refl _
    | cons part parts =>
      cases es with
      | nil => exact .refl _
      | cons e es =>
        cases backward with
        | true => exact .bind (ih parts es) fun _ => .bind_left (readPart_gated part e hr)
        | false => exact .bind (readPart_gated part e hr) fun _ => .bind_left (ih parts es)

theorem find?_zip_gated (q : String → Bool) (names : List String)
    (hi : List.Forall₂ c.GatedReader items items') :
    Option.Rel (fun x y => c.GatedReader x.2 y.2) ((names.zip items).find? fun x => q x.1)
      ((names.zip items').find? fun x => q x.1) := by
  induction hi generalizing names with
  | nil =>
    rw [List.zip_nil_right]
    exact .none
  | cons hr _ ih =>
    cases names with
    | nil => exact .none
    | cons name names =>
      rw [List.zip_cons_cons, List.zip_cons_cons, List.find?_cons, List.find?_cons]
      cases q name with
      | true => exact .some hr
      | false => exact ih names

theorem readField_gated (type : String) (names : List String) (f : Field)
    (hi : List.Forall₂ c.GatedReader items items') :
    c.Gated (readField type names items f) (readField type names items' f) := by
  have hfind := find?_zip_gated (fun name => decide (name = f.name)) names hi
  rw [readField, readField]
  generalize (names.zip items).find? _ = found, (names.zip items').find? _ = found' at hfind
  cases hfind with
  | none => exact .refl _
  | some hr =>
    cases hf : f.required with
    | true => exact hr _
    | false => exact .bind_left (hr _)

theorem readFields_gated (type : String) (names : List String) (fs : List Field)
    (hi : List.Forall₂ c.GatedReader items items') :
    c.Gated (readFields type names items fs) (readFields type names items' fs) := by
  induction fs with
  | nil => exact .refl _
  | cons f fs ih =>
    rw [readFields_cons, readFields_cons]
    exact .bind (readField_gated type names f hi) fun _ => .bind_left ih

theorem readNode_gated (schema : Schema) (e : Element) (hi : List.Forall₂ c.GatedReader items items')
    (he : List.Forall₂ (fun x y => c.GatedReader x.1 y.1 ∧ c.GatedReader x.2 y.2) entries entries') :
    c.GatedReader (readNode schema e items entries) (readNode schema e items' entries') := by
  intro goal
  rw [readNode.eq_def, readNode.eq_def]
  cases goal with
  | value t =>
    dsimp only
    split
    · exact readPlain_gated t e hi he
    · exact .refl _
  | parts what backward parts =>
    exact .bind_right _ fun es => .bind_left (readParts_gated backward parts es hi)
  | fields o =>
    dsimp only
    split
    · exact .refl _
    · refine .bind_right _ fun es => ?_
      split
      · exact .refl _
      · exact .bind_left (readFields_gated o.name _ o.fields hi)

variable {r r' : Reader}

theorem readObject_gated (hp : c.Widens p fields) {o : ObjectType}
    (ho : (∃ t, c.scope.objectType? t = some o) ∨ ∃ name, c.scope.resolve? name = some o)
    (hr : c.GatedReader r r') :
    c.Gated (c.readObject o r) ((c.under p fields).readObject (o.recast fields) r') :=
  .check (x := fun o => r (.fields o)) (y := fun o => r' (.fields o)) hp ho (hr (.fields o))

theorem readBody_gated (s : Serializer) (body : Element) (hr : c.GatedReader r r') :
    c.Gated (c.readBody s body r) ((c.under p fields).readBody s body r') := by
  rw [readBody, readBody, knows_under]
  refine .guard s "read" ?_
  cases s.codec with
  | single write read => exact .refl _
  | composite what backward parts check => exact .bind_left (hr _)
  | proxy standIn toProxy fromProxy => exact .bind_left (hr _)

theorem readDynamic_gated (hp : c.Widens p fields) (descriptor : String) (body : Element)
    (hr : c.GatedReader r r') :
    c.Gated (c.readDynamic descriptor body r) ((c.under p fields).readDynamic descriptor body r') := by
  have hregistry : (c.under p fields).registry = c.registry := rfl
  have hnatives : (c.under p fields).natives = c.natives := rfl
  have hscope : (c.under p fields).scope.resolve? descriptor =
      (c.scope.resolve? descriptor).map (.recast fields) := c.scope.resolve?_recast fields descriptor
  rw [readDynamic, readDynamic, hregistry, hnatives, hscope]
  cases c.registry.byDescriptor.get? descriptor with
  | some s => exact .bind_left (readBody_gated s body hr)
  | none =>
    cases ho : c.scope.resolve? descriptor with
    | some o => exact .bind_left (readObject_gated hp (.inr ⟨descriptor, ho⟩) hr)
    | none =>
      cases Ty.ofDescriptor? c.natives descriptor with
      | some t => exact .bind_left (hr _)
      | none => exact .refl _

theorem readTyped_gated (hp : c.Widens p fields) (t : Ty) (descriptor : String) (body : Element)
    (hr : c.GatedReader r r') :
    c.Gated (c.readTyped t descriptor body r) ((c.under p fields).readTyped t descriptor body r') := by
  have hregistry : (c.under p fields).registry = c.registry := rfl
  have hscope : (c.under p fields).scope.objectType? t = (c.scope.objectType? t).map (.recast fields) :=
    c.scope.objectType?_recast fields t
  rw [readTyped, readTyped, hregistry, hscope]
  cases c.registry.byType.get? t with
  | some s =>
    by_cases hs : s.descriptor = descriptor
    · simp only [if_pos hs]
      exact readBody_gated s body hr
    · simp only [if_neg hs]
      exact .refl _
  | none =>
    cases ho : c.scope.objectType? t with
    | none => exact .refl _
    | some o =>
      have hname : (o.recast fields).name = o.name := rfl
      simp only [Option.map_some, hname]
      split
      · exact readObject_gated hp (.inl ⟨t, ho⟩) hr
      · exact .refl _

theorem readElement_gated (hp : c.Widens p fields) (schema : Schema) (e : Element) :
    c.GatedReader (c.readElement schema e) ((c.under p fields).readElement schema e) := by
  induction e using Element.member_induction with
  | leaf e h =>
    rw [readElement_leaf c schema h, readElement_leaf _ schema h]
    exact readNode_gated schema e .nil .nil
  | list es ih =>
    rw [readElement_list, readElement_list]
    refine readNode_gated schema _ ?_ .nil
    rw [List.forall₂_map_left_iff, List.forall₂_map_right_iff, List.forall₂_same]
    exact ih
  | map es ih =>
    rw [readElement_map, readElement_map]
    refine readNode_gated schema _ .nil ?_
    rw [List.forall₂_map_left_iff, List.forall₂_map_right_iff, List.forall₂_same]
    exact ih
  | described d body ih =>
    intro goal
    cases goal with
    | parts what backward parts => exact .refl _
    | fields o => exact .refl _
    | value t =>
      rw [readElement_described, readElement_described]
      split
      · exact .refl _
      · split
        · exact readDynamic_gated hp d body ih
        · exact readTyped_gated hp t d body ih

theorem read_gated (hp : c.Widens p fields) (env : Envelope) (t : Ty) :
    c.Gated (c.read env t) ((c.under p fields).read env t) :=
  readElement_gated hp env.schema env.body (.value t)

end DurableFlow.Setting
