import DurableFlow.Proofs.Calendar.Bodies
import DurableFlow.Proofs.Environment.Calls
import DurableFlow.Proofs.Environment.Defaults
import DurableFlow.Proofs.RoundTrip.Erased
import DurableFlow.Proofs.Wire.Envelope

/-!
# The elements of built-in values

Where a built-in type has the serializer of the library, what is written for a value of it can be told from
what its codec writes, whatever has been written before. Reading does with the body what the codec does.
-/

namespace DurableFlow

namespace Wire

theorem notationsSize_append (ns ns' : List TypeNotation) :
    notationsSize (ns ++ ns') = notationsSize ns + notationsSize ns' := by
  induction ns with
  | nil => exact (Nat.zero_add _).symm
  | cons n ns ih => rw [List.cons_append, notationsSize, ih, notationsSize, Nat.add_assoc]

theorem schemaSize_add (s : Schema) (n : TypeNotation) :
    schemaSize (s.add n) ≤ schemaSize s + notationSize n := by
  rw [Schema.add]
  split_ifs
  · exact Nat.le_add_right _ _
  · rw [schemaSize, notationsSize_append, notationsSize, notationsSize, schemaSize]
    omega

theorem schemaSize_foldl_add (ns : List TypeNotation) (s : Schema) :
    schemaSize (ns.foldl Schema.add s) ≤ schemaSize s + notationsSize ns := by
  induction ns generalizing s with
  | nil => exact Nat.le_add_right _ _
  | cons n ns ih =>
    have hrest := ih (s.add n)
    have hadd := schemaSize_add s n
    rw [List.foldl_cons, notationsSize]
    omega

end Wire

/-- The schema takes no more than all the notations that were added to it. -/
theorem Envelope.payloadSize_le (ns : List TypeNotation) (e : Element) :
    payloadSize ⟨ns.foldl Schema.add .empty, e⟩ ≤ 8 + Wire.notationsSize ns + Wire.elementSize e := by
  have hschema := Wire.schemaSize_foldl_add ns .empty
  have hempty : Wire.schemaSize .empty = 8 := rfl
  rw [hempty] at hschema
  exact Nat.add_le_add_right hschema _

/-- The notation that describes how a built-in type is written. -/
def Builtin.schemaEntry (b : Builtin) : TypeNotation := .restricted b.name b.serializer.id

namespace Setting

variable {c : Setting} {b : Builtin}

def Serves (c : Setting) (b : Builtin) : Prop := c.registry.byType.get? (.builtin b) = some b.serializer

/-- The value is written as this element, and after it the schema has these notations. -/
def WritesAs (c : Setting) (t : Ty) (v : Value) (e : Element) (ns : List TypeNotation) : Prop :=
  ∀ w s, c.writeOver w v t .typed s = .ok (e, ns.foldl Schema.add s)

/-- The parts are written as these elements, and after them the schema has these notations. -/
inductive PartsWritten (c : Setting) :
    List Part → List Value → List Element → List TypeNotation → Prop
  | nil : PartsWritten c [] [] [] []
  | offset (n : Int) {ps : List Part} {vs : List Value} {es : List Element} {ns : List TypeNotation}
    (later : PartsWritten c ps vs es ns) :
    PartsWritten c (.offset :: ps) (.int n :: vs) (.ofInt n :: es) ns
  | text (what text : String) {ps : List Part} {vs : List Value} {es : List Element}
    {ns : List TypeNotation} (later : PartsWritten c ps vs es ns) :
    PartsWritten c (.text what :: ps) (.text text :: vs) (.text text :: es) ns
  | value {t : Ty} {v : Value} {e : Element} {ns : List TypeNotation} (first : c.WritesAs t v e ns)
    {ps : List Part} {vs : List Value} {es : List Element} {ns' : List TypeNotation}
    (later : PartsWritten c ps vs es ns') :
    PartsWritten c (.value t :: ps) (v :: vs) (e :: es) (ns ++ ns')

theorem writeParts_eq {ps : List Part} {vs : List Value} {es : List Element} {ns : List TypeNotation}
    (h : c.PartsWritten ps vs es ns) (label : String) (w : Value → Writer) (s : Schema) :
    writeParts label ps vs (vs.map (c.writeOver w)) s = .ok (es, ns.foldl Schema.add s) := by
  -- Each part adds to the schema that the parts before it have left.
  induction h generalizing s with
  | nil => rfl
  | offset _ _ ih | text _ _ _ ih =>
    rw [List.map_cons, writeParts]
    refine (Writing.bind_apply_ok rfl).trans ?_
    exact (Writing.bind_apply_ok (ih s)).trans rfl
  | value first later ih =>
    rw [List.map_cons, writeParts, List.foldl_append]
    refine (Writing.bind_apply_ok (first w s)).trans ?_
    exact (Writing.bind_apply_ok (ih _)).trans rfl

theorem writeDescribed_eq (hb : c.Serves b) {w : Value → Writer} {v : Value} {items : List Writer}
    {body : Element} {s s' : Schema} (h : writeBody w b.serializer v items s = .ok (body, s'))
    (entries : List (Writer × Writer)) :
    c.writeDescribed w v items entries (.builtin b) .typed s =
      .ok (.described b.name body, s'.add b.schemaEntry) := by
  rw [Serves] at hb
  have hguarded : b.serializer.guard "write" (writeBody w b.serializer v items s) = .ok (body, s') := by
    rw [h]
    rfl
  simp only [writeDescribed, hb]
  exact (Writing.bind_apply_ok hguarded).trans rfl

theorem writesAs_of_single (hb : c.Serves b) {v : Value} (hv : v.IsLeaf)
    {write : Value → Except Abort Element} {read : (String → Bool) → Element → Except Abort Value}
    (hcodec : b.codec = .single write read) {body : Element} (h : write v = .ok body) :
    c.WritesAs (.builtin b) v (.described b.name body) [b.schemaEntry] := by
  intro w s
  rw [writeOver_leaf c w hv]
  refine writeDescribed_eq hb ?_ []
  rw [writeBody, show b.serializer.codec = _ from hcodec]
  change Writing.lift _ s = _
  rw [h]
  rfl

theorem writesAs_of_keeps (hb : c.Serves b) {v : Value} (hv : v.IsLeaf) {body : Element}
    (h : b.codec.Keeps v body) :
    c.WritesAs (.builtin b) v (.described b.name body) [b.schemaEntry] := by
  generalize hcodec : b.codec = k at h
  cases h with
  | single writes reads => exact writesAs_of_single hb hv hcodec writes

theorem writesAs_of_parts (hb : c.Serves b) {what : String} {backward : Bool} {ps : List Part}
    {check : List Value → Except Abort Unit} (hcodec : b.codec = .composite what backward ps check)
    {vs : List Value} {es : List Element} {ns : List TypeNotation} (h : c.PartsWritten ps vs es ns) :
    c.WritesAs (.builtin b) (.seq vs) (.described b.name (.list es)) (ns ++ [b.schemaEntry]) := by
  intro w s
  rw [writeOver_seq, List.foldl_append]
  refine writeDescribed_eq hb ?_ []
  rw [writeBody, show b.serializer.codec = _ from hcodec]
  exact (Writing.bind_apply_ok (writeParts_eq h _ w s)).trans rfl

theorem guard_serializer {α : Type} (operation : String) (x : Except Abort α) :
    b.serializer.guard operation x = x := by
  rcases x with (_ | _) | a <;> rfl

theorem readElement_builtin (hb : c.Serves b) (s : Schema) (body : Element) :
    c.readElement s (.described b.name body) (.value (.builtin b)) =
      c.readBody b.serializer body (c.readElement s body) := by
  rw [Serves] at hb
  have hdescriptor : b.serializer.descriptor = b.name := rfl
  simp only [readElement_described, Ty.isPlain, Bool.false_eq_true, if_false, reduceCtorEq, readTyped, hb,
    hdescriptor, if_true]

theorem readElement_of_keeps (hb : c.Serves b) {v : Value} {body : Element} (h : b.codec.Keeps v body)
    (s : Schema) : c.readElement s (.described b.name body) (.value (.builtin b)) = .ok v := by
  rw [readElement_builtin hb]
  generalize hcodec : b.codec = k at h
  cases h with
  | single writes reads => exact readBody_single (s := b.serializer) hcodec (reads _)

theorem readElement_of_parts (hb : c.Serves b) {what : String} {ps : List Part}
    {check : List Value → Except Abort Unit} (hcodec : b.codec = .composite what false ps check)
    {es : List Element} (hlength : es.length = ps.length) (s : Schema) :
    c.readElement s (.described b.name (.list es)) (.value (.builtin b)) = (do
      let vs ← readParts false ps es (es.map (c.readElement s))
      check vs
      return .seq vs) := by
  have htuple : (Element.list es).asTuple what ps.length = .ok es := if_pos hlength
  have hparts : c.readElement s (.list es) (.parts what false ps) = (do
      return .seq (← readParts false ps es (es.map (c.readElement s)))) := by
    rw [readElement_list]
    change (do
      let es' ← (Element.list es).asTuple what ps.length
      return Value.seq (← readParts false ps es' (es.map (c.readElement s)))) = _
    rw [htuple, Builtin.bind_ok]
  rw [readElement_builtin hb, readBody, show b.serializer.codec = _ from hcodec, guard_serializer]
  simp only [hparts]
  cases readParts false ps es (es.map (c.readElement s)) <;> rfl

theorem readParts_value {t : Ty} {v : Value} {e : Element} {s : Schema}
    (h : c.readElement s e (.value t) = .ok v) (ps : List Part) (es : List Element) (rs : List Reader) :
    readParts false (.value t :: ps) (e :: es) (c.readElement s e :: rs) =
      (do return v :: (← readParts false ps es rs)) := by
  change (do
    let v ← c.readElement s e (.value t)
    return v :: (← readParts false ps es rs)) = _
  rw [h, Builtin.bind_ok]

theorem readParts_text (what text : String) (ps : List Part) (es : List Element) (r : Reader)
    (rs : List Reader) : readParts false (.text what :: ps) (.text text :: es) (r :: rs) =
      (do return .text text :: (← readParts false ps es rs)) := rfl

/-- The value is written as this element, which is read as the value again. -/
structure Keeps (c : Setting) (t : Ty) (v : Value) (e : Element) (ns : List TypeNotation) : Prop where
  writes : c.WritesAs t v e ns
  reads : ∀ s, c.readElement s e (.value t) = .ok v

theorem keeps_of_codec (hb : c.Serves b) {v : Value} (hv : v.IsLeaf) {body : Element}
    (h : b.codec.Keeps v body) :
    c.Keeps (.builtin b) v (.described b.name body) [b.schemaEntry] :=
  ⟨writesAs_of_keeps hb hv h, readElement_of_keeps hb h⟩

theorem keeps_list {α : Type} {t : Ty} {f : α → Value} {g : α → Element} {ns : List TypeNotation}
    {as : List α} (h : ∀ a ∈ as, c.Keeps t (f a) (g a) ns) :
    c.Keeps (.list t) (.seq (as.map f)) (.list (as.map g)) (as.flatMap fun _ => ns) where
  writes w s := by
    rw [writeOver_items (.inl rfl), List.mapM_map]
    have hitems : ∀ s, as.mapM (fun a => c.writeOver w (f a) t .typed) s =
        .ok (as.map g, (as.flatMap fun _ => ns).foldl Schema.add s) := by
      induction as with
      | nil => exact fun s => rfl
      | cons a as ih =>
        intro s
        have hfirst := (h a List.mem_cons_self).writes w s
        have hlater := ih (fun a' ha' => h a' (List.mem_cons_of_mem _ ha')) (ns.foldl Schema.add s)
        rw [List.mapM_cons, List.flatMap_cons, List.foldl_append]
        exact (Writing.bind_apply_ok hfirst).trans ((Writing.bind_apply_ok hlater).trans rfl)
    exact (Writing.bind_apply_ok (hitems s)).trans rfl
  reads s := by
    have hitems : List.Forall₂ (fun a e => c.readElement s e (.value t) = .ok (f a)) as (as.map g) :=
      List.forall₂_map_right_iff.2 (List.forall₂_same.2 fun a ha => (h a ha).reads s)
    rw [(readElement_items s _ t).1, mapM_eq_ok_of_forall₂ hitems]
    rfl

section

variable {t : Ty} {v : Value} {e : Element} {ns : List TypeNotation}

theorem serialize_of_writesAs (h : c.WritesAs t v e ns) (m : Magic) :
    c.serialize m t v = (Envelope.encode ⟨ns.foldl Schema.add .empty, e⟩ m).mapError .error :=
  serialize_of_write (h _ _)

/-- What is read of the bytes of a value is what is read of its element, if this nests within bounds. -/
theorem deserialize_of_writesAs (h : c.WritesAs t v e ns) (hdepth : e.depth ≤ Wire.maxDepth) {m : Magic}
    {bs : Bytes} (hbs : c.serialize m t v = .ok bs) :
    c.deserialize m t bs = c.readElement (ns.foldl Schema.add .empty) e (.value t) := by
  rw [serialize_of_writesAs h, mapError_eq_ok_iff] at hbs
  have hdecode := Envelope.decode_append hbs []
  rw [List.append_nil, if_pos hdepth] at hdecode
  rw [deserialize_of_decode hdecode, Setting.read]

theorem serialize_of_tooLong (h : c.WritesAs t v e ns)
    (hsize : Envelope.maxPayload < Envelope.payloadSize ⟨ns.foldl Schema.add .empty, e⟩) (m : Magic) :
    c.serialize m t v = .error (.error (.malformed .tooLong)) := by
  rw [serialize_of_writesAs h, Envelope.encode, if_neg (Nat.not_le.2 hsize)]
  rfl

/-- A value whose payload fits is written, and its bytes are read as the value again. -/
theorem Keeps.exists_bytes (h : c.Keeps t v e ns) (hdepth : e.depth ≤ Wire.maxDepth)
    (hsize : Envelope.payloadSize ⟨ns.foldl Schema.add .empty, e⟩ ≤ Envelope.maxPayload) (m : Magic) :
    ∃ bs, c.serialize m t v = .ok bs ∧ c.deserialize m t bs = .ok v := by
  have hbs := serialize_of_writesAs h.writes m
  rw [Envelope.encode_eq_ok_iff.2 ⟨hsize, rfl⟩] at hbs
  exact ⟨_, hbs, by rw [deserialize_of_writesAs h.writes hdepth hbs, h.reads]⟩

end

end Setting

namespace Plugins

variable {p : Plugins} {key : Serializer} {d d₁ : Draft} {bs : List Builtin} {b : Builtin}
  {st : Store} {f : Nat}

theorem LeavesDefaults.serves_of_ne (hready : p.LeavesDefaults key d d₁ bs)
    (hf : (st.factory f).registry = d₁.registry) (hb : b ∈ bs) (hkey : b ≠ .publicKey) :
    (st.setting f).Serves b := by
  have hbound := hready.byType hb (mem_defaults hkey key)
  rw [← hf] at hbound
  exact hbound

theorem LeavesLibrary.serves (hready : p.LeavesLibrary d d₁ bs)
    (hf : (st.factory f).registry = d₁.registry) (hb : b ∈ bs) : (st.setting f).Serves b := by
  have hbound := hready.byType hb
  rw [← hf] at hbound
  exact hbound

end Plugins

end DurableFlow
