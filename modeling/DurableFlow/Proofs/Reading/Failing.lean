import DurableFlow.Proofs.Reading.Faults
import DurableFlow.Proofs.Reading.Members

/-!
# Reading fails for reasons of its own or of a serializer

What values of some types are read with is confined to these types if their members, their parts and their
fields are of such types again. The reader of elements fails because of the data, a name, a policy or the
code of the host; any other fault comes from the code of a serializer among those it may come to.
-/

namespace DurableFlow

/-- What the reader of elements fails with where no serializer fails. -/
inductive ReadFault : Abort → Prop
  | name {e : Abort} (h : NameFault e) : ReadFault e
  | unadmitted (name : String) (policy : Nat) : ReadFault (.error (.unadmittedType name policy))
  | host (id reason : String) : ReadFault (.error (.customSerializer id reason))
  | panic : ReadFault .panic

def Registry.Binds (r : Registry) (s : Serializer) : Prop :=
  (∃ t, r.byType.get? t = some s) ∨ ∃ d, r.byDescriptor.get? d = some s

/-- A reader that fails only for reasons in `P`, whatever it is asked for. -/
def Reader.FailsOnly (P : Abort → Prop) (r : Reader) : Prop := ∀ g, DurableFlow.FailsOnly P (r g)

/-- Only values of these types are asked for. -/
def Goal.Within (T : Ty → Prop) : Goal → Prop
  | .value t => T t
  | .parts _ _ ps => ∀ t, .value t ∈ ps → T t
  | .fields o => ∀ f ∈ o.fields, T f.type

/-- A reader that fails only for reasons in `P` where it is asked for values of these types. -/
def Reader.Confined (P : Abort → Prop) (T : Ty → Prop) (r : Reader) : Prop :=
  ∀ g, Goal.Within T g → DurableFlow.FailsOnly P (r g)

/-- The codec asks for values of these types, and its own code fails only for reasons in `P`. -/
def Codec.Confined (P : Abort → Prop) (T : Ty → Prop) : Codec → Prop
  | .single _ read => ∀ known e, FailsOnly P (read known e)
  | .composite _ _ parts check => (∀ vs, FailsOnly P (check vs)) ∧ ∀ t, .value t ∈ parts → T t
  | .proxy standIn _ _ => P .panic ∧ T standIn

namespace Setting

variable {P : Abort → Prop} {T : Ty → Prop} {c : Setting} {schema : Schema}

/-- Reading values of these types asks for values of these types only, and fails only for reasons in `P`:
the serializers and object types that it comes to are confined likewise. -/
structure Confines (c : Setting) (P : Abort → Prop) (T : Ty → Prop) : Prop where
  data : ∀ e, DataFault e → P e
  host : P .panic → ∀ id reason, P (.error (.customSerializer id reason))
  members : ∀ t, T t → ∀ t' ∈ t.members, T t'
  natives : T .any → ∀ d t, Ty.ofDescriptor? c.natives d = some t → T t
  serializers : ∀ s, (∃ t, T t ∧ t.isPlain = false ∧ c.registry.byType.get? t = some s) ∨
    (T .any ∧ ∃ d, c.registry.byDescriptor.get? d = some s) → s.codec.Confined P T
  objects : ∀ o, (∃ t, T t ∧ t.isPlain = false ∧ c.registry.byType.get? t = none ∧
    c.scope.objectType? t = some o) ∨ (T .any ∧ ∃ d, c.scope.resolve? d = some o) →
      FailsOnly P (c.policy.check o.name) ∧ ∀ f ∈ o.fields, T f.type
  unknown : ∀ name, (∃ t, T t ∧ t.isPlain = false ∧ c.registry.byType.get? t = none ∧
    c.scope.objectType? t = none) ∨ T .any → P (.error (.unknownType name))

section

variable (hc : c.Confines P T)

include hc

theorem Confines.mismatch {α : Type} (expected found : String) :
    FailsOnly P (Abort.mismatch expected found : Except Abort α) :=
  (mismatch_failsOnly expected found).mono hc.data

theorem Confines.of_data {α : Type} {x : Except Abort α} (h : FailsOnly DataFault x) : FailsOnly P x :=
  h.mono hc.data

theorem readPlain_confined {t : Ty} (ht : T t) (e : Element) {items : List Reader}
    {entries : List (Reader × Reader)} (hi : ∀ r ∈ items, r.Confined P T)
    (he : ∀ r ∈ entries, r.1.Confined P T ∧ r.2.Confined P T) :
    FailsOnly P (readPlain t e items entries) := by
  have hm := hc.members t ht
  rw [readPlain.eq_def]
  split
  · refine .bind (hc.of_data (e.asList_failsOnly _)) fun _ => ?_
    exact .bind (.mapM fun r hr => hi r hr _ (hm _ (by simp [Ty.members]))) fun _ => .ok _
  · refine .bind (hc.of_data (e.asList_failsOnly _)) fun _ => ?_
    exact .bind (.mapM fun r hr => hi r hr _ (hm _ (by simp [Ty.members]))) fun _ => .ok _
  · split
    · exact .ok _
    · refine .bind (hc.of_data (Element.asTuple_failsOnly _ _ _)) fun _ => ?_
      exact .bind (.mapM fun r hr => hi r hr _ (hm _ (by simp [Ty.members]))) fun _ => .ok _
  · refine .bind (hc.of_data (e.asTuple_failsOnly _ _)) fun _ => ?_
    split
    · rename_i r r'
      refine .bind (hi r (by simp) _ (hm _ (by simp [Ty.members]))) fun _ => ?_
      exact .bind (hi r' (by simp) _ (hm _ (by simp [Ty.members]))) fun _ => .ok _
    · exact hc.mismatch _ _
  all_goals first | exact hc.of_data (readSimple_failsOnly _ _) | skip
  all_goals
    split
    · refine .bind (.mapM fun r hr => ?_) fun _ => .ok _
      refine .bind ((he r hr).1 _ (hm _ (by simp [Ty.members]))) fun _ => ?_
      exact .bind ((he r hr).2 _ (hm _ (by simp [Ty.members]))) fun _ => .ok _
    · exact hc.mismatch _ _

theorem readPart_confined {p : Part} (hp : ∀ t, p = .value t → T t) (e : Element) {r : Reader}
    (hr : r.Confined P T) : FailsOnly P (readPart p e r) := by
  cases p with
  | text what => exact .bind (hc.of_data (e.asText_failsOnly what)) fun _ => .ok _
  | offset =>
    refine .bind (hc.of_data (e.asLong_failsOnly _)) fun n => .ite ?_ (hc.mismatch _ _)
    exact .bind (hc.of_data (lift_failsOnly _)) fun _ => .ok _
  | value t => exact hr _ (hp t rfl)

theorem readParts_confined (backward : Bool) {ps : List Part} (hps : ∀ t, .value t ∈ ps → T t)
    (es : List Element) {rs : List Reader} (hr : ∀ r ∈ rs, r.Confined P T) :
    FailsOnly P (readParts backward ps es rs) := by
  induction ps generalizing es rs with
  | nil => exact .ok []
  | cons p ps ih =>
    cases es with
    | nil => exact .ok []
    | cons e es =>
      cases rs with
      | nil => exact .ok []
      | cons r rs =>
        have hfirst := readPart_confined hc (fun t ht => hps t (ht ▸ List.mem_cons_self)) e
          (hr r List.mem_cons_self)
        have hrest := ih (fun t ht => hps t (List.mem_cons_of_mem p ht)) es
          fun r' h => hr r' (List.mem_cons_of_mem r h)
        rw [readParts]
        exact .ite (.bind hrest fun _ => .bind hfirst fun _ => .ok _)
          (.bind hfirst fun _ => .bind hrest fun _ => .ok _)

theorem readFields_confined (type : String) (names : List String) {values : List Reader}
    {fs : List Field} (hfs : ∀ f ∈ fs, T f.type) (hv : ∀ r ∈ values, r.Confined P T) :
    FailsOnly P (readFields type names values fs) := by
  induction fs with
  | nil => exact .ok []
  | cons f fs ih =>
    rw [readFields_cons, readField]
    refine .bind ?_ fun v => .bind (ih fun f' hf' => hfs f' (List.mem_cons_of_mem f hf')) fun _ => .ok _
    split
    · rename_i n r hn
      have hr := hv r (List.of_mem_zip (List.mem_of_find?_eq_some hn)).2 (.value f.type)
        (hfs f List.mem_cons_self)
      exact .ite hr (.bind hr fun _ => .ok _)
    · exact .ite (hc.mismatch _ _) (.ok _)

theorem readNode_confined (e : Element) {items : List Reader} {entries : List (Reader × Reader)}
    (hi : ∀ r ∈ items, r.Confined P T) (he : ∀ r ∈ entries, r.1.Confined P T ∧ r.2.Confined P T) :
    (readNode schema e items entries).Confined P T := by
  intro g hg
  cases g with
  | value t => exact .ite (readPlain_confined hc hg e hi he) (hc.mismatch _ _)
  | parts what backward parts =>
    refine .bind (hc.of_data (e.asTuple_failsOnly _ _)) fun es => ?_
    exact .bind (readParts_confined hc backward hg es hi) fun _ => .ok _
  | fields o =>
    rw [readNode]
    split
    · exact hc.mismatch _ _
    · refine .bind (hc.of_data (e.asList_failsOnly _)) fun es => .ite (hc.mismatch _ _) ?_
      exact .bind (readFields_confined hc _ _ hg hi) fun _ => .ok _

theorem readBody_confined {s : Serializer} (hs : s.codec.Confined P T) (body : Element)
    {r : Reader} (hr : r.Confined P T) : FailsOnly P (c.readBody s body r) := by
  refine .guard "read" ?_ hc.host
  cases hk : s.codec with
  | single write read =>
    rw [hk] at hs
    exact hs _ _
  | composite what backward parts check =>
    rw [hk] at hs
    refine .bind (hr _ hs.2) fun v => ?_
    split
    · exact .bind (hs.1 _) fun _ => .ok _
    · exact .ok _
  | proxy standIn toProxy fromProxy =>
    rw [hk] at hs
    exact .bind (hr _ hs.2) fun _ => .report hs.1 (hc.host hs.1)

omit hc in
theorem readObject_confined {o : ObjectType}
    (ho : FailsOnly P (c.policy.check o.name) ∧ ∀ f ∈ o.fields, T f.type) {r : Reader}
    (hr : r.Confined P T) : FailsOnly P (c.readObject o r) :=
  .bind ho.1 fun _ => hr _ ho.2

theorem readDynamic_confined (hany : T .any) (d : String) (body : Element) {r : Reader}
    (hr : r.Confined P T) : FailsOnly P (c.readDynamic d body r) := by
  rw [readDynamic]
  split
  · rename_i s hs
    exact .bind (readBody_confined hc (hc.serializers s (.inr ⟨hany, d, hs⟩)) body hr) fun _ => .ok _
  · split
    · rename_i o ho
      exact .bind (readObject_confined (hc.objects o (.inr ⟨hany, d, ho⟩)) hr) fun _ => .ok _
    · split
      · rename_i t ht
        exact .bind (hr _ (hc.natives hany d t ht)) fun _ => .ok _
      · exact .error (hc.unknown _ (.inr hany))

theorem readTyped_confined {t : Ty} (ht : T t) (hplain : t.isPlain = false) (d : String)
    (body : Element) {r : Reader} (hr : r.Confined P T) : FailsOnly P (c.readTyped t d body r) := by
  rw [readTyped]
  split
  · rename_i s hs
    exact .ite (readBody_confined hc (hc.serializers s (.inl ⟨t, ht, hplain, hs⟩)) body hr)
      (hc.mismatch _ _)
  · rename_i hs
    split
    · rename_i ho
      exact .error (hc.unknown _ (.inl ⟨t, ht, hplain, hs, ho⟩))
    · rename_i o ho
      exact .ite (readObject_confined (hc.objects o (.inl ⟨t, ht, hplain, hs, ho⟩)) hr) (hc.mismatch _ _)

theorem readElement_confined (e : Element) : (c.readElement schema e).Confined P T := by
  induction e using Element.member_induction with
  | leaf e h =>
    rw [readElement_leaf c schema h]
    exact readNode_confined hc e (by simp) (by simp)
  | list es ih =>
    rw [readElement_list]
    exact readNode_confined hc _ (List.forall_mem_map.2 ih) (by simp)
  | map es ih =>
    rw [readElement_map]
    exact readNode_confined hc _ (by simp) (List.forall_mem_map.2 ih)
  | described d body ih =>
    have hn : (readNode schema (.described d body) [] []).Confined P T :=
      readNode_confined hc _ (by simp) (by simp)
    intro g hg
    cases g with
    | value t =>
      rw [readElement_described]
      by_cases hplain : t.isPlain = true
      · rw [if_pos hplain]
        exact hn _ hg
      · rw [if_neg hplain]
        by_cases hany : t = .any
        · rw [if_pos hany]
          exact readDynamic_confined hc (hany ▸ hg) d body ih
        · rw [if_neg hany]
          exact readTyped_confined hc hg (Bool.eq_false_iff.2 hplain) d body ih
    | parts what backward parts =>
      rw [readElement_described_parts]
      exact hn _ hg
    | fields o =>
      rw [readElement_described_fields]
      exact hn _ hg

end

variable (hP : ∀ e, ReadFault e → P e) (hc : ∀ s, c.registry.Binds s → s.codec.ReadFailsOnly P)

include hP hc

theorem confines_all : c.Confines P fun _ => True where
  data _ h := hP _ (.name (.data h))
  host _ id reason := hP _ (.host id reason)
  members _ _ _ _ := trivial
  natives _ _ _ _ := trivial
  serializers s hs := by
    have hs := hc s (hs.imp (fun ⟨t, _, _, h⟩ => ⟨t, h⟩) And.right)
    cases hk : s.codec with
    | single write read =>
      rw [hk] at hs
      exact hs
    | composite what backward parts check =>
      rw [hk] at hs
      exact ⟨hs, fun _ _ => trivial⟩
    | proxy standIn toProxy fromProxy => exact ⟨hP _ .panic, trivial⟩
  objects _ _ := ⟨.ite (.ok ()) (.error (hP _ (.unadmitted _ _))), fun _ _ => trivial⟩
  unknown name _ := hP _ (.name (.unknown name))

/-- Whatever else reading fails with is reported by the code of a registered serializer. -/
theorem readElement_failsOnly (e : Element) : (c.readElement schema e).FailsOnly P := by
  intro g
  refine readElement_confined (confines_all hP hc) e g ?_
  cases g with
  | value t => trivial
  | parts what backward parts => exact fun _ _ => trivial
  | fields o => exact fun _ _ => trivial

end Setting

end DurableFlow
