import DurableFlow.Proofs.Typing.Agreement
import DurableFlow.Proofs.Values.Ordered

/-!
# Reading values of types

Whatever the bytes are, what is read as a value of a type is one, and so is all that is read on the way:
what a serializer is given to check or to turn back is of the type it is made for. So factories that are set
up alike read alike.
-/

namespace DurableFlow

namespace Element

def items : Element → List Element
  | list es => es
  | _ => []

def pairs : Element → List (Element × Element)
  | map es => es
  | _ => []

theorem IsLeaf.items {e : Element} (h : e.IsLeaf) : e.items = [] := by
  cases e <;> first | exact h.elim | rfl

theorem asTuple_gives (e : Element) (expected : String) (n : Nat) :
    Gives (fun es => e = .list es ∧ es.length = n) (e.asTuple expected n) := by
  cases e with
  | list es => exact .ite (fun h => .ok ⟨rfl, h⟩) fun _ => .error _
  | _ => exact .error _

end Element

def Goal.Of (H : Host) : Goal → Value → Prop
  | .value t, v => Value.Of H t v
  | .parts _ _ ps, v => ∃ vs, v = .seq vs ∧ PartsOf H ps vs
  | .fields o, v => ∃ vs, v = .seq vs ∧ FieldsOf H o.fields vs

/-- The reader gives what it is asked for. -/
def Reader.Typed (H : Host) (r : Reader) : Prop := ∀ g, Gives (Goal.Of H g) (r g)

theorem Reader.Typed.value {H : Host} {r : Reader} (hr : r.Typed H) (t : Ty) :
    Gives (Value.Of H t) (r (.value t)) := hr (.value t)

theorem Gives.mapM {α β : Type} {Q : β → Prop} {f : α → Except Abort β} {as : List α}
    (h : ∀ a ∈ as, Gives Q (f a)) : Gives (fun bs => bs.length = as.length ∧ ∀ b ∈ bs, Q b) (as.mapM f) := by
  induction as with
  | nil => exact .ok ⟨rfl, List.forall_mem_nil _⟩
  | cons a as ih =>
    rw [List.mapM_cons]
    refine .bind_of (h a List.mem_cons_self) fun b hb => ?_
    refine .bind_of (ih fun a' ha => h a' (List.mem_cons_of_mem a ha)) fun bs hbs => ?_
    exact .ok ⟨congrArg (· + 1) hbs.1, List.forall_mem_cons.2 ⟨hb, hbs.2⟩⟩

namespace Setting

variable {H : Host} {c c' : Setting} {schema : Schema} {items : List Reader}
  {entries : List (Reader × Reader)}

theorem readItems_gives (hi : ∀ r ∈ items, r.Typed H) (t : Ty) :
    Gives (fun vs => vs.length = items.length ∧ ∀ v ∈ vs, Value.Of H t v)
      (items.mapM fun r => r (.value t)) :=
  .mapM fun r hr => (hi r hr).value t

theorem readEntries_gives (he : ∀ r ∈ entries, r.1.Typed H ∧ r.2.Typed H) (k t : Ty) :
    Gives (fun es => ∀ e ∈ es, Value.Of H k e.1 ∧ Value.Of H t e.2)
      (entries.mapM fun r => do return (← r.1 (.value k), ← r.2 (.value t))) := by
  refine fun es hes => (Gives.mapM (fun r hr => ?_) es hes).2
  exact .bind_of ((he r hr).1.value k) fun a ha => .bind_of ((he r hr).2.value t) fun b hb => .ok ⟨ha, hb⟩

theorem readPlain_gives {t : Ty} {e : Element} {read : Element → Reader}
    (hi : ∀ x ∈ e.items, (read x).Typed H) (he : ∀ r ∈ entries, r.1.Typed H ∧ r.2.Typed H) :
    Gives (Value.Of H t) (readPlain t e (e.items.map read) entries) := by
  have hitems : ∀ r ∈ e.items.map read, Reader.Typed H r := List.forall_mem_map.2 hi
  rw [readPlain.eq_def]
  split
  · exact .bind fun _ => .bind_of (readItems_gives hitems _) fun vs hvs => .ok (.list hvs.2)
  · refine .bind fun _ => .bind_of (readItems_gives hitems _) fun vs hvs => .ok (.set ?_)
    exact Ordered.forall_mem_ofList hvs.2
  · split
    · exact .ok (.none _)
    · refine .bind_of (e.asTuple_gives _ _) fun es hes => ?_
      obtain ⟨rfl, hlength⟩ := hes
      refine .bind_of (readItems_gives hitems _) fun vs hvs => .ok ?_
      obtain ⟨v, rfl⟩ := List.length_eq_one_iff.1 (hvs.1.trans ((List.length_map _).trans hlength))
      exact .some (hvs.2 v List.mem_cons_self)
  · refine .bind fun _ => ?_
    split
    · rename_i r₁ r₂ hpair
      rw [hpair] at hitems
      refine .bind_of ((hitems r₁ (by simp)).value _) fun v hv => ?_
      exact .bind_of ((hitems r₂ (by simp)).value _) fun v' hv' => .ok (.pair hv hv')
    · exact .error _
  · split
    · refine .bind_of (readEntries_gives he _ _) fun es hes => ?_
      obtain hes := Ordered.forall_mem_ofEntries hes
      exact .ok (.map (fun e he => (hes e he).1) fun e he => (hes e he).2)
    · exact .error _
  · split
    · refine .bind_of (readEntries_gives he _ _) fun es hes => ?_
      obtain hes := Ordered.forall_mem_ofEntries hes
      exact .ok (.hashmap (fun e he => (hes e he).1) fun e he => (hes e he).2)
    · exact .error _
  · exact readSimple_gives H _ e

theorem readPart_gives {p : Part} {e : Element} {r : Reader} (hr : r.Typed H) :
    Gives (Part.Of H p) (readPart p e r) := by
  cases p with
  | text what => exact .bind fun s => .ok (.text what s)
  | offset =>
    refine .bind fun n => .ite (fun _ => ?_) fun _ => .error _
    rw [Offset.check]
    split
    · rename_i hn
      exact .ok (.offset (if_pos hn))
    · exact .error _
  | value t => exact fun v hv => .value (hr (.value t) v hv)

theorem readParts_gives (backward : Bool) {ps : List Part} {es : List Element} {rs : List Reader}
    (hes : es.length = ps.length) (hrs : rs.length = ps.length) (hr : ∀ r ∈ rs, r.Typed H) :
    Gives (PartsOf H ps) (readParts backward ps es rs) := by
  induction ps generalizing es rs with
  | nil => exact .ok .nil
  | cons p ps ih =>
    obtain ⟨e, es, rfl⟩ := List.exists_of_length_succ es hes
    obtain ⟨r, rs, rfl⟩ := List.exists_of_length_succ rs hrs
    obtain ⟨hfirst, hrest⟩ := List.forall_mem_cons.1 hr
    have hvs := ih (Nat.succ.inj hes) (Nat.succ.inj hrs) hrest
    rw [readParts]
    refine .ite (fun _ => ?_) fun _ => ?_
    · exact .bind_of hvs fun vs hvs => .bind_of (readPart_gives hfirst) fun v hv => .ok (.cons hv hvs)
    · exact .bind_of (readPart_gives hfirst) fun v hv => .bind_of hvs fun vs hvs => .ok (.cons hv hvs)

theorem readField_gives (type : String) (names : List String) {values : List Reader}
    (hr : ∀ r ∈ values, r.Typed H) (f : Field) :
    Gives (Value.Of H f.slot) (readField type names values f) := by
  rw [readField]
  split
  · rename_i name r hfound
    have hv := (hr r (List.of_mem_zip (List.mem_of_find?_eq_some hfound)).2).value f.type
    refine .ite (fun hf => ?_) fun hf => ?_
    · rwa [Field.slot, if_pos hf]
    · rw [Field.slot, if_neg hf]
      exact .bind_of hv fun v hv => .ok (.some hv)
  · refine .ite (fun _ => .error _) fun hf => .ok ?_
    rw [Field.slot, if_neg hf]
    exact .none _

theorem readFields_gives (type : String) (names : List String) {values : List Reader}
    (hr : ∀ r ∈ values, r.Typed H) (fs : List Field) :
    Gives (FieldsOf H fs) (readFields type names values fs) := by
  induction fs with
  | nil => exact .ok .nil
  | cons f fs ih =>
    rw [readFields_cons]
    exact .bind_of (readField_gives type names hr f) fun v hv => .bind_of ih fun vs hvs => .ok (.cons hv hvs)

theorem readNode_typed (e : Element) (read : Element → Reader) (hi : ∀ x ∈ e.items, (read x).Typed H)
    (he : ∀ r ∈ entries, r.1.Typed H ∧ r.2.Typed H) :
    (readNode schema e (e.items.map read) entries).Typed H := by
  intro g
  cases g with
  | value t => exact .ite (fun _ => readPlain_gives hi he) fun _ => .error _
  | parts what backward ps =>
    refine .bind_of (e.asTuple_gives _ _) fun es hes => ?_
    obtain ⟨rfl, hlength⟩ := hes
    have hrs : (es.map read).length = ps.length := (List.length_map _).trans hlength
    exact .bind_of (readParts_gives backward hlength hrs (List.forall_mem_map.2 hi)) fun vs hvs =>
      .ok ⟨vs, rfl, hvs⟩
  | fields o =>
    rw [readNode]
    split
    · exact .error _
    · refine .bind fun es => .ite (fun _ => .error _) fun _ => ?_
      exact .bind_of (readFields_gives _ _ (List.forall_mem_map.2 hi) _) fun vs hvs => .ok ⟨vs, rfl, hvs⟩

theorem guard_gives {α : Type} {Q : α → Prop} {s : Serializer} (operation : String) {x : Except Abort α}
    (h : Gives Q x) : Gives Q (s.guard operation x) := by
  rw [Serializer.guard.eq_def]
  split
  · exact .ite (fun _ => .error _) fun _ => .error _
  · exact h

variable (hc : c.Typed H) (hcc : c.Agrees H c')

include hcc in
theorem knows_agrees : c.knows = c'.knows := by
  funext name
  have hbound := hcc.registry.byDescriptor name
  rw [knows, knows, ← hcc.scope]
  generalize c.registry.byDescriptor.get? name = o at hbound ⊢
  generalize c'.registry.byDescriptor.get? name = o' at hbound ⊢
  cases hbound <;> rfl

include hc in
theorem readBody_gives {s : Serializer} (hs : c.registry.Binds s) (body : Element) {r : Reader}
    (hr : r.Typed H) : Gives (Value.Of H s.target) (c.readBody s body r) := by
  have htyped := hc.serializers s hs
  rw [Serializer.Typed] at htyped
  refine guard_gives "read" ?_
  generalize s.codec = k at htyped ⊢
  cases k with
  | single write read => exact htyped c.knows body
  | composite what backward parts check =>
    refine .bind_of (hr (.parts what backward parts)) fun v hv => ?_
    obtain ⟨vs, rfl, hvs⟩ := hv
    refine .bind_of (Q := fun _ => check vs = .ok ()) (fun _ hcheck => hcheck) fun _ hcheck => .ok ?_
    exact (htyped _).2 ⟨vs, rfl, hvs, hcheck⟩
  | proxy standIn toProxy fromProxy =>
    exact .bind_of (hr.value standIn) fun v' hv' => s.report_gives fun v hv => htyped.2 v' v hv' hv

include hcc in
theorem readBody_agrees {s s' : Serializer} (hss : s.Agrees H s') (body : Element) {r : Reader}
    (hr : r.Typed H) : c.readBody s body r = c'.readBody s' body r := by
  have hcodec := hss.codec
  rw [readBody, readBody, ← hss.guard_eq, ← knows_agrees hcc]
  refine congrArg _ ?_
  generalize s.codec = k at hcodec ⊢
  generalize s'.codec = k' at hcodec ⊢
  cases hcodec with
  | single => rfl
  | @composite what backward parts check check' hcheck =>
    have hv := hr (.parts what backward parts)
    dsimp only
    cases hx : r (.parts what backward parts) with
    | error e => rfl
    | ok v =>
      obtain ⟨vs, rfl, hvs⟩ := hv v hx
      change (check vs >>= fun _ => Except.ok (Value.seq vs)) = (check' vs >>= fun _ => .ok (.seq vs))
      rw [hcheck vs hvs]
  | @proxy standIn toProxy toProxy' fromProxy fromProxy' hto hfrom =>
    dsimp only
    cases hx : r (.value standIn) with
    | error e => rfl
    | ok v' =>
      change s.report (fromProxy v') = s'.report (fromProxy' v')
      rw [← hfrom v' (hr.value standIn v' hx), hss.report_eq]

theorem readObject_gives {o : ObjectType} (ho : ∃ name label, o.type = .named name label)
    (hobject : H.object? o.type = some o) {r : Reader} (hr : r.Typed H) :
    Gives (Value.Of H o.type) (c.readObject o r) := by
  obtain ⟨name, label, htype⟩ := ho
  refine .bind fun _ v hv => ?_
  rw [htype] at hobject ⊢
  exact (Value.of_named_iff hobject).2 (hr (.fields o) v hv)

include hc in
theorem readDynamic_gives (d : String) (body : Element) {r : Reader} (hr : r.Typed H) :
    Gives (Value.Of H .any) (c.readDynamic d body r) := by
  rw [readDynamic]
  split
  · rename_i s hs
    exact .bind_of (readBody_gives hc (.inr ⟨d, hs⟩) body hr) fun v hv => .ok (.erased d false hv)
  · split
    · rename_i o ho
      obtain ⟨hnamed, hobject⟩ := hc.resolved d o ho
      exact .bind_of (readObject_gives hnamed hobject hr) fun v hv => .ok (.erased d false hv)
    · split
      · rename_i t ht
        exact .bind_of (hr.value t) fun v hv => .ok (.erased d true hv)
      · exact .error _

include hc in
theorem readTyped_gives (t : Ty) (d : String) (body : Element) {r : Reader} (hr : r.Typed H) :
    Gives (Value.Of H t) (c.readTyped t d body r) := by
  rw [readTyped]
  split
  · rename_i s hs
    refine .ite (fun _ => ?_) fun _ => .error _
    rw [← hc.grown.consistent.target t s hs]
    exact readBody_gives hc (.inl ⟨t, hs⟩) body hr
  · split
    · exact .error _
    · rename_i o ho
      obtain ⟨htype, hnamed, hobject⟩ := hc.objects t o ho
      refine .ite (fun _ => ?_) fun _ => .error _
      rw [← htype] at hnamed hobject ⊢
      exact readObject_gives hnamed hobject hr

include hcc in
theorem readObject_agrees : c.readObject = c'.readObject := by
  funext o r
  rw [readObject, readObject, hcc.policy]

include hcc in
theorem readDynamic_agrees (d : String) (body : Element) {r : Reader} (hr : r.Typed H) :
    c.readDynamic d body r = c'.readDynamic d body r := by
  have hbound := hcc.registry.byDescriptor d
  rw [readDynamic, readDynamic, ← readObject_agrees hcc, ← hcc.scope, ← hcc.natives]
  generalize c.registry.byDescriptor.get? d = o at hbound ⊢
  generalize c'.registry.byDescriptor.get? d = o' at hbound ⊢
  cases hbound with
  | none => rfl
  | @some s s' hss =>
    dsimp only
    rw [readBody_agrees hcc hss body hr, hss.target]

include hcc in
theorem readTyped_agrees (t : Ty) (d : String) (body : Element) {r : Reader} (hr : r.Typed H) :
    c.readTyped t d body r = c'.readTyped t d body r := by
  have hbound := hcc.registry.byType t
  rw [readTyped, readTyped, ← readObject_agrees hcc, ← hcc.scope]
  generalize c.registry.byType.get? t = o at hbound ⊢
  generalize c'.registry.byType.get? t = o' at hbound ⊢
  cases hbound with
  | none => rfl
  | @some s s' hss =>
    dsimp only
    rw [readBody_agrees hcc hss body hr, hss.descriptor]

include hc in
/-- Whatever the element is, what is read from it is what was asked for. -/
theorem readElement_typed (schema : Schema) (e : Element) : (c.readElement schema e).Typed H := by
  induction e using Element.member_induction with
  | leaf e h =>
    rw [readElement_leaf c schema h]
    have hnode : (readNode schema e (e.items.map (c.readElement schema)) []).Typed H :=
      readNode_typed e _ (by simp [h.items]) (List.forall_mem_nil _)
    rwa [h.items] at hnode
  | list es ih =>
    rw [readElement_list]
    exact readNode_typed (.list es) _ ih (List.forall_mem_nil _)
  | map es ih =>
    rw [readElement_map]
    exact readNode_typed (.map es) (c.readElement schema) (List.forall_mem_nil _)
      (List.forall_mem_map.2 ih)
  | described d body ih =>
    have hnode : (readNode schema (.described d body) [] []).Typed H :=
      readNode_typed (.described d body) (c.readElement schema) (List.forall_mem_nil _)
        (List.forall_mem_nil _)
    intro g
    cases g with
    | value t =>
      rw [readElement_described]
      refine .ite (fun _ => hnode _) fun _ => .ite (fun hany => ?_) fun _ => ?_
      · rw [hany]
        exact readDynamic_gives hc d body ih
      · exact readTyped_gives hc t d body ih
    | parts what backward ps => exact hnode _
    | fields o => exact hnode _

include hc hcc in
/-- Factories that are set up alike read alike. -/
theorem readElement_agrees (schema : Schema) (e : Element) :
    c.readElement schema e = c'.readElement schema e := by
  induction e using Element.member_induction with
  | leaf e h => rw [readElement_leaf c schema h, readElement_leaf c' schema h]
  | list es ih => rw [readElement_list, readElement_list, List.map_congr_left ih]
  | map es ih =>
    rw [readElement_map, readElement_map]
    refine congrArg _ (List.map_congr_left fun e he => ?_)
    rw [(ih e he).1, (ih e he).2]
  | described d body ih =>
    have hr := readElement_typed hc schema body
    funext g
    cases g with
    | value t =>
      rw [readElement_described, readElement_described, ← ih, readDynamic_agrees hcc d body hr,
        readTyped_agrees hcc t d body hr]
    | parts what backward ps => rfl
    | fields o => rfl

end Setting

end DurableFlow
