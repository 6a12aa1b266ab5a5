import DurableFlow.Proofs.RoundTrip.Erased
import DurableFlow.Proofs.RoundTrip.Layouts
import DurableFlow.Proofs.Typing.Agreement

/-!
# Writing values of their types

Factories that are set up alike write a value of a type alike: no serializer, object type or collection on
the way is handed a value of another type than its own. Nor does anything but the code of a serializer,
called with a value of its type, report a value of another type.
-/

namespace DurableFlow

/-- Is a value reported to be of another type? -/
def Abort.isForeign : Abort → Bool
  | error (.mismatch _ found) => found == "value of another type"
  | _ => false

namespace Writing

variable {α β : Type} {P : Abort → Prop}

/-- The steps are the same, and they fail only for reasons in `P`. -/
def Alike (P : Abort → Prop) (x y : Writing α) : Prop := x = y ∧ ∀ s, FailsOnly P (x s)

namespace Alike

variable {x y : Writing α} {f g : α → Writing β}

theorem pure (a : α) : Alike P (Pure.pure a) (Pure.pure a) := ⟨rfl, fun s => .ok (a, s)⟩

theorem fail {e : Abort} (h : P e) : Alike P (Writing.fail e : Writing α) (Writing.fail e) :=
  ⟨rfl, fun _ => .error h⟩

theorem lift {r : Except Abort α} (h : FailsOnly P r) : Alike P (Writing.lift r) (Writing.lift r) := by
  refine ⟨rfl, fun s => ?_⟩
  cases r with
  | ok a => exact .ok (a, s)
  | error e => exact .error (h e rfl)

theorem note (n : TypeNotation) : Alike P (Writing.note n) (Writing.note n) :=
  ⟨rfl, fun s => .ok ((), s.add n)⟩

theorem bind_of {Q : α → Prop} (hx : Alike P x y) (hq : ∀ s, Gives (fun r => Q r.1) (x s))
    (hfg : ∀ a, Q a → Alike P (f a) (g a)) : Alike P (x >>= f) (y >>= g) := by
  obtain ⟨rfl, hx⟩ := hx
  have hstep : ∀ s, (x >>= f) s = (x >>= g) s ∧ FailsOnly P ((x >>= f) s) := by
    intro s
    cases hr : x s with
    | error e =>
      rw [bind_apply_error hr, bind_apply_error hr]
      exact ⟨rfl, .error (hx s e hr)⟩
    | ok r =>
      obtain ⟨a, s'⟩ := r
      obtain ⟨hfg, hf⟩ := hfg a (hq s _ hr)
      rw [bind_apply_ok hr, bind_apply_ok hr]
      exact ⟨congrFun hfg s', hf s'⟩
  exact ⟨funext fun s => (hstep s).1, fun s => (hstep s).2⟩

theorem bind (hx : Alike P x y) (hfg : ∀ a, Alike P (f a) (g a)) : Alike P (x >>= f) (y >>= g) :=
  bind_of (Q := fun _ => True) hx (fun _ _ _ => trivial) fun a _ => hfg a

theorem lift_bind {r : Except Abort α} {Q : α → Prop} (hr : FailsOnly P r) (hq : Gives Q r)
    (hfg : ∀ a, Q a → Alike P (f a) (g a)) : Alike P (Writing.lift r >>= f) (Writing.lift r >>= g) := by
  refine bind_of (lift hr) (fun s => ?_) hfg
  cases r with
  | ok a => exact .ok (hq a rfl)
  | error e => exact .error e

theorem mapM {γ δ : Type} {step : γ → Writing α} {k k' : δ → γ} {ds : List δ}
    (h : ∀ d ∈ ds, Alike P (step (k d)) (step (k' d))) :
    Alike P ((ds.map k).mapM step) ((ds.map k').mapM step) := by
  induction ds with
  | nil => exact pure []
  | cons d ds ih =>
    rw [List.map_cons, List.map_cons, List.mapM_cons, List.mapM_cons]
    refine bind (h d List.mem_cons_self) fun a => ?_
    exact bind (ih fun d' hd => h d' (List.mem_cons_of_mem d hd)) fun as => pure (a :: as)

theorem guard {H : Host} {s s' : Serializer} {x y : Writing Element} (operation : String)
    (hs : s.Agrees H s') (h : Alike P x y) (hP : ∀ e, e.isForeign = false → P e) :
    Alike P (fun schema => s.guard operation (x schema)) (fun schema => s'.guard operation (y schema)) := by
  obtain ⟨rfl, hx⟩ := h
  refine ⟨funext fun schema => hs.guard_eq operation (x schema), fun schema => ?_⟩
  exact (hx schema).guard operation fun _ _ _ => hP _ rfl

end Alike

end Writing

namespace Value

def items : Value → List Value
  | seq vs => vs
  | _ => []

def pairs : Value → List (Value × Value)
  | entries es => es
  | _ => []

variable {v : Value}

theorem IsLeaf.items (h : v.IsLeaf) : v.items = [] := by
  cases v <;> first | exact h.elim | rfl

theorem IsLeaf.pairs (h : v.IsLeaf) : v.pairs = [] := by
  cases v <;> first | exact h.elim | rfl

end Value

/-- The writers write the value alike as whatever type it is of. -/
def Writer.Alike (H : Host) (P : Abort → Prop) (v : Value) (x y : Writer) : Prop :=
  ∀ t slot, Value.Of H t v → Writing.Alike P (x t slot) (y t slot)

structure Writer.MembersAlike (H : Host) (P : Abort → Prop) (w w' : Value → Writer) (v : Value) : Prop where
  items : ∀ x ∈ v.items, Writer.Alike H P x (w x) (w' x)
  pairs : ∀ e ∈ v.pairs, Writer.Alike H P e.1 (w e.1) (w' e.1) ∧ Writer.Alike H P e.2 (w e.2) (w' e.2)

/-- The error is reported by the own code of a contributed serializer, which was given a value of its
type. -/
def Setting.Reports (H : Host) (c : Setting) (e : Abort) : Prop :=
  ∃ s write read v, c.registry.Binds s ∧ s ∉ Registry.library ∧ s.codec = .single write read ∧
    Value.Of H s.target v ∧ write v = .error e

namespace Setting

variable {H : Host} {P : Abort → Prop} {c c' : Setting} {w w' : Value → Writer} {t : Ty} {v : Value}

theorem writePlain_alike (hplain : t.isPlain = true) (hv : Value.Of H t v)
    (hm : Writer.MembersAlike H P w w' v) :
    Writing.Alike P (writePlain t v (v.items.map w) (v.pairs.map fun e => (w e.1, w e.2)))
      (writePlain t v (v.items.map w') (v.pairs.map fun e => (w' e.1, w' e.2))) := by
  cases hv with
  | @int kind n hn =>
    have hfails : FailsOnly P (writeSimple (.int kind) (.int n)) := by
      rw [writeSimple, writeSimple?, if_pos hn]
      exact .ok _
    exact .lift hfails
  | boolean | double | char | string => exact .lift (.ok _)
  | @list item _ hvs | @set item _ hvs =>
    refine Writing.Alike.bind (.mapM fun x hx => ?_) fun _ => .pure _
    exact hm.items x hx item .typed (hvs x hx)
  | none => exact .pure _
  | some hx => exact .bind (hm.items _ List.mem_cons_self _ .typed hx) fun _ => .pure _
  | pair hx hx' =>
    refine .bind (hm.items _ List.mem_cons_self _ .typed hx) fun _ => ?_
    exact .bind (hm.items _ (List.mem_cons_of_mem _ List.mem_cons_self) _ .typed hx') fun _ => .pure _
  | @map key item _ hkeys hitems | @hashmap key item _ hkeys hitems =>
    refine Writing.Alike.bind (.mapM fun e he => ?_) fun _ => .pure _
    refine .bind ((hm.pairs e he).1 key .typed (hkeys e he)) fun _ => ?_
    exact .bind ((hm.pairs e he).2 item .typed (hitems e he)) fun _ => .pure _
  | _ => cases hplain

theorem writePart_alike {part : Part} (label : String) (hv : Part.Of H part v)
    (hw : Writer.Alike H P v (w v) (w' v)) :
    Writing.Alike P (writePart label part v (w v)) (writePart label part v (w' v)) := by
  cases hv with
  | text | offset => exact .pure _
  | value hv => exact hw _ .typed hv

theorem writeParts_alike {parts : List Part} {vs : List Value} (label : String) (hvs : PartsOf H parts vs)
    (hw : ∀ v ∈ vs, Writer.Alike H P v (w v) (w' v)) :
    Writing.Alike P (writeParts label parts vs (vs.map w)) (writeParts label parts vs (vs.map w')) := by
  induction hvs with
  | nil => exact .pure []
  | cons hv _ ih =>
    refine .bind (writePart_alike label hv (hw _ List.mem_cons_self)) fun e => ?_
    exact .bind (ih fun x hx => hw x (List.mem_cons_of_mem _ hx)) fun es => .pure (e :: es)

theorem fails_other {α : Type} {expected found : String} (hP : ∀ e, e.isForeign = false → P e)
    (h : found ≠ "value of another type") : FailsOnly P (Abort.mismatch expected found : Except Abort α) :=
  .error (hP _ (beq_eq_false_iff_ne.2 h))

theorem writeField_alike {f : Field} (label : String) (hv : Value.Of H f.slot v)
    (hskip : f.skips v = false)
    (hw : Writer.Alike H P v (c.writeOver w v) (c'.writeOver w' v)) :
    Writing.Alike P (writeField label f (c.writeOver w v)) (writeField label f (c'.writeOver w' v)) := by
  rw [Field.slot] at hv
  rw [writeField, writeField]
  cases hf : f.required with
  | true =>
    rw [hf, if_pos rfl] at hv
    exact hw _ .typed hv
  | false =>
    rw [hf, if_neg Bool.false_ne_true] at hv
    have hlist : ∀ s, Gives (fun r => ∃ e, r.1 = Element.list [e])
        (c.writeOver w v (.optional f.type) .typed s) := by
      intro s
      cases hv with
      | none => simp [Field.skips, hf] at hskip
      | @some _ x hx =>
        rw [show Value.seq [x] = .some x from rfl, writeOver_some]
        rintro ⟨e, s'⟩ h
        obtain ⟨a, s₁, -, h⟩ := Writing.bind_eq_ok.1 h
        obtain ⟨rfl, -⟩ := Prod.mk.inj (Except.ok.inj h)
        exact ⟨a, rfl⟩
    refine (hw _ .typed hv).bind_of (Q := fun e => ∃ e', e = .list [e']) hlist fun e he => ?_
    obtain ⟨e, rfl⟩ := he
    exact .pure e

theorem writeFields_alike (hP : ∀ e, e.isForeign = false → P e) (label : String) (names : List String)
    (values : List Element) {fs : List Field} {vs : List Value} (hvs : FieldsOf H fs vs)
    (hw : ∀ v ∈ vs, Writer.Alike H P v (c.writeOver w v) (c'.writeOver w' v)) :
    Writing.Alike P (writeFields label names values fs vs (vs.map (c.writeOver w)))
      (writeFields label names values fs vs (vs.map (c'.writeOver w'))) := by
  induction hvs generalizing names values with
  | nil => exact .pure _
  | @cons f v fs vs hv _ ih =>
    have hrest := fun names values => ih names values fun x hx => hw x (List.mem_cons_of_mem v hx)
    rw [List.map_cons, List.map_cons]
    cases hskip : f.skips v with
    | true =>
      rw [writeFields_cons_of_skips hskip, writeFields_cons_of_skips hskip]
      exact hrest names values
    | false =>
      rw [writeFields_cons hskip, writeFields_cons hskip]
      split
      · refine .lift (fails_other hP fun h => ?_)
        have hfirst := congrArg (·.toList.head?) h
        simp [toString] at hfirst
      · refine .bind (writeField_alike label hv hskip (hw v List.mem_cons_self)) fun e => ?_
        exact hrest _ _

theorem noteFields_alike (hP : ∀ e, e.isForeign = false → P e) (name : String) (names : List String) :
    Writing.Alike P (noteFields name names) (noteFields name names) := by
  refine ⟨rfl, fun s => ?_⟩
  rw [noteFields]
  split
  · exact .ite (.ok _) (fails_other hP (by decide))
  · exact .ok _

section

variable (hP : ∀ e, e.isForeign = false → P e) (hown : ∀ e, c.Reports H e → P e) (hc : c.Typed H)
  (hcc : c.Agrees H c')

include hP hown hc

theorem writeBody_alike {s s' : Serializer} (hs : c.registry.Binds s) (hss : s.Agrees H s')
    (hv : Value.Of H s.target v) (hw : ∀ x, Writer.Alike H P x (w x) (w' x))
    (hm : Writer.MembersAlike H P (c.writeOver w) (c'.writeOver w') v) :
    Writing.Alike P (writeBody w s v (v.items.map (c.writeOver w)))
      (writeBody w' s' v (v.items.map (c'.writeOver w'))) := by
  have htyped := hc.serializers s hs
  have hcodec := hss.codec
  rw [Serializer.Typed] at htyped
  rw [writeBody, writeBody, ← hss.target]
  generalize hk : s.codec = k at htyped hcodec ⊢
  generalize s'.codec = k' at hcodec ⊢
  cases hcodec with
  | @single write write' read hwrite =>
    dsimp only
    rw [← hwrite v hv]
    refine .lift fun e he => hown e ⟨s, write, read, v, hs, fun hlibrary => ?_, hk, hv, he⟩
    -- serializers of the library write every value of their type
    obtain ⟨body, hbody⟩ := Registry.exists_write_of_mem_library hlibrary hk hv
    rw [he] at hbody
    cases hbody
  | composite =>
    obtain ⟨vs, rfl, hparts, -⟩ := (htyped v).1 hv
    exact .bind (writeParts_alike _ hparts hm.items) fun _ => .pure _
  | @proxy standIn toProxy toProxy' fromProxy fromProxy' hto hfrom =>
    dsimp only
    rw [← hto v hv, ← hss.report_eq]
    have hstandIn : Gives (Value.Of H standIn) (s.report (toProxy v)) :=
      s.report_gives fun v' hto => htyped.1 v v' hv hto
    have hfails : FailsOnly P (s.report (toProxy v)) := .report (hP _ rfl) fun _ _ => hP _ rfl
    exact .lift_bind hfails hstandIn fun x hx => hw x standIn .typed hx

include hcc

theorem writeDescribed_alike (hw : ∀ x, Writer.Alike H P x (w x) (w' x))
    (hm : Writer.MembersAlike H P (c.writeOver w) (c'.writeOver w') v) :
    Writer.Alike H P v
      (c.writeDescribed w v (v.items.map (c.writeOver w))
        (v.pairs.map fun e => (c.writeOver w e.1, c.writeOver w e.2)))
      (c'.writeDescribed w' v (v.items.map (c'.writeOver w'))
        (v.pairs.map fun e => (c'.writeOver w' e.1, c'.writeOver w' e.2))) := by
  intro t slot hv
  have hbound := hcc.registry.byType t
  simp only [writeDescribed, ← hcc.scope, ← hcc.policy]
  generalize hs : c.registry.byType.get? t = o at hbound ⊢
  generalize c'.registry.byType.get? t = o' at hbound ⊢
  cases hbound with
  | @some s s' hss =>
    have htarget := hc.grown.consistent.target t s hs
    have hbody := writeBody_alike hP hown hc (.inl ⟨t, hs⟩) hss (htarget.symm ▸ hv) hw hm
    dsimp only
    rw [← hss.descriptor, ← hss.id]
    exact .bind (.guard "write" hss hbody hP) fun e => .bind (.note _) fun _ => .pure _
  | none =>
    dsimp only
    cases ho : c.scope.objectType? t with
    | some o =>
      obtain ⟨-, ⟨name, label, rfl⟩, hobject⟩ := hc.objects t o ho
      obtain ⟨vs, rfl, hvs⟩ := (Value.of_named_iff hobject).1 hv
      have hcheck : FailsOnly P (c.policy.check o.name) := .ite (.ok ()) (.error (hP _ rfl))
      refine .bind (.lift hcheck) fun _ => ?_
      refine .bind (writeFields_alike hP o.name [] [] hvs hm.items) fun out => ?_
      exact .bind (noteFields_alike hP _ _) fun _ => .pure _
    | none =>
      cases slot with
      | typed => exact .fail (hP _ rfl)
      | erased name native =>
        cases native with
        | false => exact .fail (hP _ rfl)
        | true =>
          cases hnative : t.nativeDescriptor with
          | none => exact .fail (hP _ rfl)
          | some d =>
            rw [Ty.nativeDescriptor] at hnative
            split_ifs at hnative with hn
            exact .bind (writePlain_alike (isPlain_of_isNative hn) hv hm) fun _ => .pure _

/-- A value of unknown type is left aside: it is written by way of the value that it holds. -/
theorem writeNode_alike (hw : ∀ x, Writer.Alike H P x (w x) (w' x))
    (hm : Writer.MembersAlike H P (c.writeOver w) (c'.writeOver w') v) {slot : Slot}
    (hslot : slot = .typed → t ≠ .any) (hv : Value.Of H t v) :
    Writing.Alike P
      (c.writeNode w v (v.items.map (c.writeOver w))
        (v.pairs.map fun e => (c.writeOver w e.1, c.writeOver w e.2)) t slot)
      (c'.writeNode w' v (v.items.map (c'.writeOver w'))
        (v.pairs.map fun e => (c'.writeOver w' e.1, c'.writeOver w' e.2)) t slot) := by
  have hdescribed := writeDescribed_alike hP hown hc hcc hw hm t slot hv
  cases slot with
  | erased name native => exact hdescribed
  | typed =>
    rw [writeNode.eq_def, writeNode.eq_def]
    dsimp only
    split
    · rename_i hplain
      exact writePlain_alike hplain hv hm
    · rw [if_neg (hslot rfl), if_neg (hslot rfl)]
      exact hdescribed

theorem writeOver_alike (hw : ∀ x, Writer.Alike H P x (w x) (w' x)) (v : Value) :
    Writer.Alike H P v (c.writeOver w v) (c'.writeOver w' v) := by
  induction v using Value.member_induction with
  | leaf v h =>
    intro t slot hv
    have hm : Writer.MembersAlike H P (c.writeOver w) (c'.writeOver w') v :=
      ⟨by simp [h.items], by simp [h.pairs]⟩
    -- a value of unknown type is no leaf
    have hany : slot = .typed → t ≠ .any := by
      rintro - rfl
      cases hv
      exact h
    have hnode := writeNode_alike hP hown hc hcc hw hm hany hv
    rw [h.items, h.pairs] at hnode
    rw [writeOver_leaf c w h, writeOver_leaf c' w' h]
    exact hnode
  | seq vs ih =>
    intro t slot hv
    rw [writeOver_seq, writeOver_seq]
    refine writeNode_alike hP hown hc hcc (v := .seq vs) hw ⟨ih, List.forall_mem_nil _⟩ ?_ hv
    rintro - rfl
    cases hv
  | entries es ih =>
    intro t slot hv
    rw [writeOver_entries, writeOver_entries]
    refine writeNode_alike hP hown hc hcc (v := .entries es) hw ⟨List.forall_mem_nil _, ih⟩ ?_ hv
    rintro - rfl
    cases hv
  | erased type name native v ih =>
    intro t slot hv
    have hm : Writer.MembersAlike H P (c.writeOver w) (c'.writeOver w') (.erased type name native v) :=
      ⟨List.forall_mem_nil _, List.forall_mem_nil _⟩
    have hnode (t : Ty) (slot : Slot) (hslot : slot = .typed → t ≠ .any)
        (hv : Value.Of H t (.erased type name native v)) :
        Writing.Alike P (c.writeNode w (.erased type name native v) [] [] t slot)
          (c'.writeNode w' (.erased type name native v) [] [] t slot) :=
      writeNode_alike hP hown hc hcc hw hm hslot hv
    cases t with
    | any =>
      cases slot with
      | typed =>
        cases hv with
        | erased _ _ hv =>
          rw [writeOver_erased, writeOver_erased]
          exact ih _ _ hv
      | erased name' native' => exact hnode .any (.erased name' native') (fun h => by cases h) hv
    | _ => exact hnode _ _ (fun _ h => by cases h) hv

theorem writeWithin_alike (nesting : Nat) (v : Value) :
    Writer.Alike H P v (c.writeWithin nesting v) (c'.writeWithin nesting v) := by
  induction nesting generalizing v with
  | zero => exact fun _ _ _ => .fail (hP _ rfl)
  | succ nesting ih => exact writeOver_alike hP hown hc hcc ih v

theorem write_alike (hv : Value.Of H t v) : c.write t v = c'.write t v ∧ FailsOnly P (c.write t v) := by
  obtain ⟨hsame, hfails⟩ := writeWithin_alike hP hown hc hcc maxStandIns v t .typed hv
  exact ⟨congrFun hsame Schema.empty, hfails Schema.empty⟩

end

end Setting

end DurableFlow
