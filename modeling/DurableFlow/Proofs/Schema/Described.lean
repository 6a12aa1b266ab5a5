import DurableFlow.Proofs.RoundTrip.Recovered
import DurableFlow.Proofs.Schema.Encodes
import DurableFlow.Sample.Serializers

/-!
# Schemas of what is written

What writing adds to the schema are notations of descriptors in the body that it comes to. In a factory
where no object type has the name of a descriptor, the schema has one notation for each name, and tells of
everything in the body how it is encoded.
-/

namespace DurableFlow

namespace Writing

variable {α β : Type}

/-- Where writing succeeds, the names of the outcome are at least the known ones, and each notation that is
new has one of them. -/
def Notes (known : List String) (w : Writing α) (names : α → List String) : Prop :=
  ∀ s a s', w s = .ok (a, s') → known ⊆ names a ∧ ∀ n ∈ s'.types, n ∈ s.types ∨ n.name ∈ names a

namespace Notes

variable {known : List String} {w : Writing α} {names : α → List String}

theorem pure {a : α} (h : known ⊆ names a) : Notes known (Pure.pure a) names := by
  intro s b s' hw
  obtain ⟨rfl, rfl⟩ := Prod.mk.inj (Except.ok.inj hw)
  exact ⟨h, fun n hn => .inl hn⟩

theorem lift {x : Except Abort α} (h : ∀ a, x = .ok a → known ⊆ names a) :
    Notes known (Writing.lift x) names := by
  intro s b s' hw
  cases x with
  | error e => cases hw
  | ok a =>
    obtain ⟨rfl, rfl⟩ := Prod.mk.inj (Except.ok.inj hw)
    exact ⟨h a rfl, fun n hn => .inl hn⟩

theorem lift_error {e : Abort} : Notes known (Writing.lift (.error e)) names := lift fun _ h => nomatch h

theorem fail {e : Abort} : Notes known (Writing.fail e) names := fun _ _ _ hw => nomatch hw

theorem bind {f : α → Writing β} {names' : β → List String} (h : Notes known w names)
    (hf : ∀ a, Notes (names a) (f a) names') : Notes known (w >>= f) names' := by
  intro s b s₂ hw
  obtain ⟨a, s₁, hw, hfa⟩ := Writing.bind_eq_ok.1 hw
  obtain ⟨hknown, hnew⟩ := h s a s₁ hw
  obtain ⟨hkept, hnew'⟩ := hf a s₁ b s₂ hfa
  refine ⟨List.Subset.trans hknown hkept, fun n hn => ?_⟩
  rcases hnew' n hn with hn | hn
  · exact (hnew n hn).imp_right fun h => hkept h
  · exact .inr hn

theorem note (n : TypeNotation) : Notes known (Writing.note n) fun _ => n.name :: known := by
  intro s u s' hw
  obtain ⟨-, rfl⟩ := Prod.mk.inj (Except.ok.inj hw)
  refine ⟨List.subset_cons_self _ _, fun m hm => ?_⟩
  rw [Schema.add] at hm
  split_ifs at hm
  · exact .inl hm
  · rcases List.mem_append.1 hm with hm | hm
    · exact .inl hm
    · rw [List.mem_singleton.1 hm]
      exact .inr List.mem_cons_self

theorem noteFields (name : String) (fields : List String) :
    Notes known (Setting.noteFields name fields) fun _ => name :: known := by
  intro s u s' hw
  rw [Setting.noteFields] at hw
  split at hw
  · split_ifs at hw
    · obtain ⟨-, rfl⟩ := Prod.mk.inj (Except.ok.inj hw)
      exact ⟨List.subset_cons_self _ _, fun n hn => .inl hn⟩
    · cases hw
  · exact note (.composite name fields) s u s' hw

theorem guard {s : Serializer} {x : Writing Element} {names : Element → List String} (operation : String)
    (h : Notes known x names) : Notes known (fun schema => s.guard operation (x schema)) names := by
  intro schema e schema' hw
  refine h schema e schema' ?_
  change s.guard operation (x schema) = _ at hw
  rw [Serializer.guard.eq_def] at hw
  split at hw
  · split_ifs at hw
  · exact hw

theorem mapM {f : α → Writing β} {names : β → List String} {as : List α}
    (h : ∀ a ∈ as, ∀ known, Notes known (f a) fun b => known ++ names b) :
    Notes known (as.mapM f) fun bs => known ++ bs.flatMap names := by
  induction as generalizing known with
  | nil => exact pure (List.subset_append_left _ _)
  | cons a as ih =>
    rw [List.mapM_cons]
    refine (h a List.mem_cons_self known).bind fun b => ?_
    refine (ih fun a ha => h a (List.mem_cons_of_mem _ ha)).bind fun bs => pure ?_
    rw [List.flatMap_cons, List.append_assoc]
    exact List.Subset.refl _

end Notes

end Writing

namespace Setting

open Writing (Notes)

variable {c : Setting} {t : Ty} {v : Value} {e : Element} {schema : Schema}
  {items : List Writer} {entries : List (Writer × Writer)} {standIns : Value → Writer}

/-- What the writer adds to the schema are notations of descriptors in what it writes. -/
def NotesOwn (w : Writer) : Prop :=
  ∀ known t slot, Notes known (w t slot) fun e => known ++ e.descriptors

theorem notes_writePlain (hitems : ∀ w ∈ items, NotesOwn w)
    (hentries : ∀ w ∈ entries, NotesOwn w.1 ∧ NotesOwn w.2) (known : List String) (t : Ty) (v : Value) :
    Notes known (writePlain t v items entries) fun e => known ++ e.descriptors := by
  unfold writePlain
  split
  case h_1 item vs | h_2 item vs =>
    refine (Notes.mapM fun w hw known => hitems w hw known item .typed).bind fun es => .pure ?_
    rw [Element.descriptors_list]
    exact List.Subset.refl _
  case h_3 item vs =>
    split
    · exact .pure (List.subset_append_left _ _)
    · refine (hitems _ List.mem_cons_self known item .typed).bind fun e => .pure ?_
      rw [Element.descriptors_list, List.flatMap_singleton]
      exact List.Subset.refl _
    · exact .lift_error
  case h_4 first second vs =>
    split
    · refine (hitems _ List.mem_cons_self known first .typed).bind fun e => ?_
      refine (hitems _ (.tail _ List.mem_cons_self) _ second .typed).bind fun e' => .pure ?_
      rw [Element.descriptors_list, List.flatMap_cons, List.flatMap_singleton, List.append_assoc]
      exact List.Subset.refl _
    · exact .lift_error
  case h_5 key value es | h_6 key value es =>
    have hentry : ∀ w ∈ entries, ∀ known,
        Notes known (do return (← w.1 key .typed, ← w.2 value .typed)) fun r =>
          known ++ (r.1.descriptors ++ r.2.descriptors) := by
      intro w hw known
      refine ((hentries w hw).1 known key .typed).bind fun k => ?_
      refine ((hentries w hw).2 _ value .typed).bind fun r => .pure ?_
      rw [List.append_assoc]
      exact List.Subset.refl _
    refine (Notes.mapM hentry).bind fun rs => .pure ?_
    rw [Element.descriptors_map]
    exact List.Subset.refl _
  case h_7 => exact .lift fun e _ => List.subset_append_left _ _

theorem notes_writePart {w : Writer} (h : NotesOwn w) (known : List String) (label : String) (p : Part)
    (v : Value) : Notes known (writePart label p v w) fun e => known ++ e.descriptors := by
  unfold writePart
  split
  · exact .pure (List.subset_append_left _ _)
  · exact .pure (List.subset_append_left _ _)
  · exact h known _ .typed
  · exact .lift_error

theorem notes_writeParts (h : ∀ w ∈ items, NotesOwn w) (known : List String) (label : String)
    (parts : List Part) (vs : List Value) :
    Notes known (writeParts label parts vs items) fun es => known ++ es.flatMap (·.descriptors) := by
  induction items generalizing known parts vs with
  | nil =>
    unfold writeParts
    split
    · exact .pure (List.subset_append_left _ _)
    · contradiction
    · exact .lift_error
  | cons w items ih =>
    unfold writeParts
    split
    · contradiction
    · rename_i hw
      obtain ⟨rfl, rfl⟩ := List.cons.inj hw
      refine (notes_writePart (h w List.mem_cons_self) known label _ _).bind fun e => ?_
      refine (ih (fun w hw => h w (List.mem_cons_of_mem _ hw)) _ _ _).bind fun es => .pure ?_
      rw [List.flatMap_cons, List.append_assoc]
      exact List.Subset.refl _
    · exact .lift_error

theorem notes_writeBody (hstand : ∀ v, NotesOwn (standIns v)) (h : ∀ w ∈ items, NotesOwn w)
    (known : List String) (s : Serializer) (v : Value) :
    Notes known (writeBody standIns s v items) fun e => known ++ e.descriptors := by
  unfold writeBody
  split
  · exact .lift fun e _ => List.subset_append_left _ _
  · split
    · refine (notes_writeParts h known _ _ _).bind fun es => .pure ?_
      rw [Element.descriptors_list]
      exact List.Subset.refl _
    · exact .lift_error
  · exact (Notes.lift fun v' _ => List.Subset.refl known).bind fun v' => hstand v' known _ .typed

theorem notes_writeField {w : Writer} (h : NotesOwn w) (known : List String) (label : String)
    (f : Field) : Notes known (writeField label f w) fun e => known ++ e.descriptors := by
  rw [writeField]
  split_ifs
  · exact h known f.type .typed
  · refine (h known (.optional f.type) .typed).bind fun e => ?_
    split
    · refine .pure ?_
      rw [Element.descriptors_list, List.flatMap_singleton]
      exact List.Subset.refl _
    · exact .lift_error

theorem notes_writeFields (h : ∀ w ∈ items, NotesOwn w) (known : List String) (label : String)
    (names : List String) (values : List Element) (fs : List Field) (vs : List Value) :
    Notes (known ++ values.flatMap (·.descriptors)) (writeFields label names values fs vs items)
      fun out => known ++ out.2.flatMap (·.descriptors) := by
  induction fs generalizing names values vs items with
  | nil =>
    unfold writeFields
    split
    · exact .pure (List.Subset.refl _)
    · contradiction
    · exact .lift_error
  | cons f fs ih =>
    rcases vs with _ | ⟨v, vs⟩
    · exact .lift_error
    rcases items with _ | ⟨w, items⟩
    · exact .lift_error
    have hitems : ∀ w ∈ items, NotesOwn w := fun w hw => h w (List.mem_cons_of_mem _ hw)
    cases hskip : f.skips v with
    | true =>
      rw [writeFields_cons_of_skips hskip]
      exact ih hitems names values vs
    | false =>
      rw [writeFields_cons hskip]
      split_ifs
      · exact .lift_error
      · refine (notes_writeField (h w List.mem_cons_self) _ label f).bind fun e => ?_
        have hrest := ih hitems (names ++ [f.name]) (values ++ [e]) vs
        rw [List.flatMap_append, List.flatMap_singleton, ← List.append_assoc] at hrest
        exact hrest

theorem notes_described (hstand : ∀ v, NotesOwn (standIns v)) (hitems : ∀ w ∈ items, NotesOwn w)
    (hentries : ∀ w ∈ entries, NotesOwn w.1 ∧ NotesOwn w.2) (v : Value) :
    NotesOwn (c.writeDescribed standIns v items entries) := by
  intro known t slot
  cases hs : c.registry.byType.get? t with
  | some s =>
    simp only [writeDescribed, hs]
    refine (Notes.guard "write" (notes_writeBody hstand hitems known s v)).bind fun body => ?_
    refine (Notes.note _).bind fun _ => .pure ?_
    rw [Element.descriptors]
    exact List.perm_middle.symm.subset
  | none =>
    cases ho : c.scope.objectType? t with
    | some o =>
      simp only [writeDescribed, hs, ho]
      refine (Notes.lift fun _ _ => List.Subset.refl known).bind fun _ => ?_
      cases v with
      | seq vs =>
        have hfields := notes_writeFields hitems known o.name [] [] o.fields vs
        rw [List.flatMap_nil, List.append_nil] at hfields
        refine hfields.bind fun out => (Notes.noteFields o.name out.1).bind fun _ => .pure ?_
        rw [Element.descriptors, Element.descriptors_list]
        exact List.perm_middle.symm.subset
      | _ => exact .lift_error
    | none =>
      cases slot with
      | typed =>
        simp only [writeDescribed, hs, ho]
        exact .fail
      | erased name native =>
        simp only [writeDescribed, hs, ho]
        split
        · refine (notes_writePlain hitems hentries known t v).bind fun body => .pure ?_
          rw [Element.descriptors]
          exact ((List.sublist_cons_self _ _).append_left known).subset
        · exact .fail

theorem notes_node (hstand : ∀ v, NotesOwn (standIns v)) (hitems : ∀ w ∈ items, NotesOwn w)
    (hentries : ∀ w ∈ entries, NotesOwn w.1 ∧ NotesOwn w.2) (v : Value) :
    NotesOwn (c.writeNode standIns v items entries) := by
  intro known t slot
  have hdescribed := notes_described (c := c) hstand hitems hentries v known t slot
  cases slot with
  | typed =>
    simp only [writeNode]
    split_ifs
    · exact notes_writePlain hitems hentries known t v
    · exact .lift_error
    · exact hdescribed
  | erased name native => exact hdescribed

theorem notes_over (hstand : ∀ v, NotesOwn (standIns v)) (v : Value) :
    NotesOwn (c.writeOver standIns v) := by
  have hempty : ∀ w ∈ ([] : List Writer), NotesOwn w := fun w hw => nomatch hw
  have hnone : ∀ w ∈ ([] : List (Writer × Writer)), NotesOwn w.1 ∧ NotesOwn w.2 :=
    fun w hw => nomatch hw
  induction v using Value.member_induction with
  | leaf v hv =>
    rw [writeOver_leaf c standIns hv]
    exact notes_node hstand hempty hnone v
  | seq vs ih =>
    rw [writeOver_seq]
    exact notes_node hstand (List.forall_mem_map.2 ih) hnone _
  | entries es ih =>
    rw [writeOver_entries]
    exact notes_node hstand hempty (List.forall_mem_map.2 ih) _
  | erased type name native v ih =>
    intro known t slot
    have hnode := notes_node (c := c) hstand hempty hnone (.erased type name native v) known t slot
    simp only [writeOver]
    split
    · exact ih known type (.erased name native)
    · exact hnode

theorem notes_within (nesting : Nat) (v : Value) : NotesOwn (c.writeWithin nesting v) := by
  induction nesting generalizing v with
  | zero => exact fun known t slot => .fail
  | succ nesting ih => exact fun known t slot => notes_over ih v known t slot

theorem Grown.unambiguous (h : c.Grown)
    (hnames : ∀ t o, c.scope.objectType? t = some o → c.registry.byDescriptor.get? o.name = none) :
    c.Unambiguous where
  registered _ _ hs := h.consistent.byDescriptor_of_byType hs
  unregistered := hnames

/-- Where no object type has the name of a descriptor and a value is written, the schema has one notation for
each name, each is of something in the body, and together they tell how the body encodes the value: what a
serializer writes by its id, and objects by the fields that were written, as many as there are values. -/
theorem encodes_of_write (hc : c.Grown)
    (hnames : ∀ t o, c.scope.objectType? t = some o → c.registry.byDescriptor.get? o.name = none)
    (hw : c.write t v = .ok (e, schema)) :
    (schema.types.map (·.name)).Nodup ∧ c.Encodes schema t .typed v e ∧
      ∀ n ∈ schema.types, n.name ∈ e.descriptors := by
  have hwrites := writes_within (hc.unambiguous hnames) maxStandIns v t .typed
  obtain ⟨htruthful, -, hencodes⟩ := hwrites .empty e schema truthful_empty hw
  obtain ⟨-, hnotes⟩ := notes_within maxStandIns v [] t .typed .empty e schema hw
  refine ⟨htruthful.nodup, hencodes schema (.refl schema), fun n hn => ?_⟩
  exact (hnotes n hn).resolve_left List.not_mem_nil

section

open Sample

def holderType : ObjectType := ⟨holder, "app.Holder", [field "slot" .any]⟩

def counter : Setting :=
  ⟨[], Registry.empty.bind (receiptSerializer "app"),
    ((Scope.new 1 "counter").load plainType).load holderType, .new 1 true⟩

/-- Holders of a receipt and of a payment. -/
def held : Value :=
  .seq [.seq [.erase receipt (.seq [.seq [.text "bob", .int 7]])],
    .seq [.erase payment (.seq [.text "eve", .int 9])]]

theorem encodes_of_write_held :
    ∃ e schema, counter.write (.list holder) held = .ok (e, schema) ∧
      schema.types.map (·.name) = ["app.Payment", "app.Receipt", "app.Holder"] ∧
      (schema.types.map (·.name)).Nodup ∧ counter.Encodes schema (.list holder) .typed held e ∧
      ∀ n ∈ schema.types, n.name ∈ e.descriptors := by
  have hadd : Registry.empty.add true (receiptSerializer "app") =
      .ok (Registry.empty.bind (receiptSerializer "app"), .added) := rfl
  have hgrown : counter.Grown :=
    (((Grown.empty [] 1 "counter" (.new 1 true)).load plainType).load holderType).add hadd
  have hnames : ∀ t o, counter.scope.objectType? t = some o →
      counter.registry.byDescriptor.get? o.name = none := by
    intro t o ho
    have hloaded : o = holderType ∨ o = plainType := by
      simp only [counter, Scope.objectType?_load] at ho
      split_ifs at ho
      · exact .inl (Option.some.inj ho).symm
      · exact .inr (Option.some.inj ho).symm
      · cases ho
    rcases hloaded with rfl | rfl
    · decide +kernel
    · decide +kernel
  have hwritten : (counter.write (.list holder) held).map (fun r => r.2.types.map (·.name)) =
      .ok ["app.Payment", "app.Receipt", "app.Holder"] := by decide +kernel
  cases hw : counter.write (.list holder) held with
  | error e =>
    rw [hw] at hwritten
    cases hwritten
  | ok r =>
    rw [hw] at hwritten
    exact ⟨r.1, r.2, rfl, Except.ok.inj hwritten, encodes_of_write hgrown hnames hw⟩

end

end Setting

end DurableFlow
