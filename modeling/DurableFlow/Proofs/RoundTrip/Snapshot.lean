import DurableFlow.Machine.Snapshot
import DurableFlow.Proofs.RoundTrip.Erased
import DurableFlow.Proofs.Writing.Nesting

/-!
# Snapshots are read back

A snapshot is read back with the same locals, each as a value of unknown type is read, and what is read is
written in the same way again.
-/

namespace DurableFlow

/-- No other object type has taken the place of one of the library. -/
def Scope.Genuine (s : Scope) : Prop :=
  ∀ o ∈ Snapshot.objectTypes, ∀ o', s.objectType? o.type = some o' → o' = o

namespace Setting

variable {c : Setting} {w : Value → Writer}

def WritesAlike (c : Setting) (w : Value → Writer) (t : Ty) (v v' : Value) : Prop :=
  c.writeOver w v t .typed = c.writeOver w v' t .typed

theorem writeOver_seq_of_not_loaded {name label : String}
    (hs : c.registry.byType.get? (.named name label) = none)
    (ho : c.scope.objectType? (.named name label) = none) (vs : List Value) :
    c.writeOver w (.seq vs) (.named name label) .typed = Writing.fail (.error (.unknownType label)) := by
  rw [writeOver_seq]
  change c.writeDescribed w (.seq vs) _ [] (.named name label) .typed = _
  simp only [writeDescribed, hs, ho]
  rfl

theorem roundTrips_single (hc : c.Plain) {b : Builtin} (hb : b.serializer ∈ Registry.library)
    {v : Value} (hv : v.IsLeaf) {write : Value → Except Abort Element}
    {read : (String → Bool) → Element → Except Abort Value}
    (hcodec : b.codec = .single write read)
    (h : ∀ e, write v = .ok e → read c.knows e = .ok v) :
    c.RoundTrips (c.writeOver w v (.builtin b) .typed) (.builtin b) v := by
  obtain ⟨hbyType, hbyDescriptor⟩ := Registry.bound_of_mem hb
  rw [← hc.registry] at hbyType hbyDescriptor
  have hsingle := yields_single (w := w) hbyType (Option.isSome_of_eq_some hbyDescriptor) hcodec h
    [] [] .typed
  have hwrite : c.writeOver w v (.builtin b) .typed =
      c.writeDescribed w v [] [] b.serializer.target .typed := by
    rw [writeOver_leaf c w hv]
    rfl
  rw [hwrite]
  refine hsingle.mono fun s e ⟨body, he, hbody⟩ => ?_
  have hfound := readBody_single (c := c) (s := b.serializer) (r := c.readElement s body) hcodec hbody
  have hbound : c.registry.byType.get? (.builtin b) = some b.serializer := hbyType
  rw [he, readElement_described]
  change c.readTyped (.builtin b) b.serializer.descriptor body _ = _
  rw [readTyped, hbound]
  exact (if_pos rfl).trans hfound

theorem roundTrips_flowId (hc : c.Plain) (id : FlowId) :
    c.RoundTrips (c.writeOver w (.atom (.flowId id)) (.builtin .flowId) .typed) (.builtin .flowId)
      (.atom (.flowId id)) := by
  refine roundTrips_single hc (b := .flowId) ?_ trivial rfl fun e he => ?_
  · refine List.mem_append_left _ (List.mem_append_left _ (List.mem_map_of_mem ?_))
    decide
  · obtain rfl := Except.ok.inj he
    have hid : FlowId.ofBytes? id.bytes = some id := dif_pos id.size
    simp only [Element.asBinary, bind, Except.bind, hid]
    rfl

theorem writeFields_congr {ps : List Carried} (label : String) (names : List String)
    (values : List Element)
    (h : ∀ p ∈ ps, p.field.required = true ∧ c.WritesAlike w p.field.type p.given p.got) :
    writeFields label names values (ps.map (·.field)) (ps.map (·.given))
        (ps.map fun p => c.writeOver w p.given) =
      writeFields label names values (ps.map (·.field)) (ps.map (·.got))
        (ps.map fun p => c.writeOver w p.got) := by
  induction ps generalizing names values with
  | nil => rfl
  | cons p ps ih =>
    obtain ⟨hrequired, halike⟩ := h p List.mem_cons_self
    have hskips : ∀ v, p.field.skips v = false := by
      intro v
      cases hskip : p.field.skips v with
      | false => rfl
      | true =>
        rw [(Field.of_skips hskip).1] at hrequired
        cases hrequired
    have hps := fun names values => ih names values fun q hq => h q (List.mem_cons_of_mem _ hq)
    simp only [List.map_cons]
    rw [writeFields_cons (hskips _), writeFields_cons (hskips _), writeField, writeField,
      if_pos hrequired, if_pos hrequired, halike]
    simp only [hps]

/-- Objects with all their fields are written alike if the values of the fields are. -/
theorem Stands.writesAlike_object {o : ObjectType} (ho : c.Stands o) {ps : List Carried}
    (hps : ps.map (·.field) = o.fields)
    (h : ∀ p ∈ ps, p.field.required = true ∧ c.WritesAlike w p.field.type p.given p.got) :
    c.WritesAlike w o.type (.seq (ps.map (·.given))) (.seq (ps.map (·.got))) := by
  rw [WritesAlike, writeOver_object ho.named, writeOver_object ho.named, List.map_map, List.map_map]
  simp only [writeDescribed, ho.unbound, ho.loaded, ← hps]
  have hfields := writeFields_congr o.name [] [] h
  simp only [Function.comp_def, hfields]

theorem mapM_congr {α β : Type} {x y : α → Writing β} {as : List α} (h : ∀ a ∈ as, x a = y a) :
    as.mapM x = as.mapM y := by
  induction as with
  | nil => rfl
  | cons a as ih =>
    rw [List.mapM_cons, List.mapM_cons, h a List.mem_cons_self,
      ih fun a ha => h a (List.mem_cons_of_mem _ ha)]

theorem writesAlike_entries {α : Type} {k t : Ty} {as : List α} {f g g' : α → Value}
    (h : ∀ a ∈ as, c.WritesAlike w t (g a) (g' a)) :
    c.WritesAlike w (.map k t) (.entries (as.map fun a => (f a, g a)))
      (.entries (as.map fun a => (f a, g' a))) := by
  rw [WritesAlike, writeOver_map (.inl rfl), writeOver_map (.inl rfl), List.mapM_map, List.mapM_map]
  refine congrArg (fun x : Writing _ => x >>= fun es => return Element.map es) ?_
  refine mapM_congr fun a ha => ?_
  have ha : c.writeOver w (g a) t .typed = c.writeOver w (g' a) t .typed := h a ha
  simp only [Function.comp_apply, ha]

end Setting

namespace ResumePoint

theorem ofValue?_toValue (p : ResumePoint) : ofValue? p.toValue = some p := by
  rw [toValue, ofValue?, Int.toNat_natCast, UInt32.ofNat_toNat]

theorem regular_objectType : objectType.Regular := by
  simp [ObjectType.Regular, objectType]

theorem hasType_toValue {scope : Scope} (h : scope.objectType? type = some objectType)
    (p : ResumePoint) : p.toValue.HasType scope Value.Single type := by
  have hstep : IntKind.uint.holds p.step.toNat = true := by
    have hlt := p.step.toNat_lt
    have hbounds : (0 : Int) ≤ p.step.toNat ∧ (p.step.toNat : Int) ≤ 4294967295 := by omega
    exact Bool.and_eq_true_iff.2 ⟨decide_eq_true hbounds.1, decide_eq_true hbounds.2⟩
  refine .object (o := objectType) h (regular_objectType.apart rfl) rfl ?_
  refine List.forall_mem_cons.2 ⟨.string p.label, List.forall_mem_cons.2 ⟨.int hstep, ?_⟩⟩
  exact List.forall_mem_nil _

end ResumePoint

namespace Snapshot

variable {c : Setting} {w : Value → Writer}

theorem ofValue?_toValue (s : Snapshot) : ofValue? s.toValue = some s := by
  have hlocals : (s.locals.map fun l => (Value.text l.1, l.2)).mapM localOf? = some s.locals := by
    rw [List.mapM_map]
    exact List.mapM_pure.trans (congrArg some (List.map_id' s.locals))
  change (do
    return ⟨s.flowId, s.flowClass, ← ResumePoint.ofValue? s.resumePoint.toValue,
      ← (s.locals.map fun l => (Value.text l.1, l.2)).mapM localOf?⟩ : Option Snapshot) = _
  rw [ResumePoint.ofValue?_toValue, hlocals]
  rfl

theorem regular_objectType : objectType.Regular := by
  simp [ObjectType.Regular, objectType]

/-- The snapshot as it is read back. -/
def reread (c : Setting) (s : Snapshot) : Snapshot :=
  { s with locals := s.locals.map fun l => (l.1, c.reread l.2) }

/-- The locals are ordered by name, and each holds a value that can be read back. -/
structure Kept (natives : List Ty) (scope : Scope) (s : Snapshot) : Prop where
  ordered : Ordered.Increasing compare (s.locals.map (·.1))
  held : ∀ l ∈ s.locals, l.2.Held natives scope

def carried (c : Setting) (s : Snapshot) : List Setting.Carried :=
  [.same (⟨"flowId", .builtin .flowId, true⟩, .atom (.flowId s.flowId)),
    .same (⟨"flowClass", .string, true⟩, .text s.flowClass),
    .same (⟨"resumePoint", ResumePoint.type, true⟩, s.resumePoint.toValue),
    ⟨⟨"locals", .map .string .any, true⟩, .entries (s.locals.map fun l => (.text l.1, l.2)),
      .entries (s.locals.map fun l => (.text l.1, c.reread l.2))⟩]

theorem map_field_carried (c : Setting) (s : Snapshot) :
    (s.carried c).map (·.field) = objectType.fields := rfl

theorem toValue_eq (c : Setting) (s : Snapshot) : s.toValue = .seq ((s.carried c).map (·.given)) := rfl

theorem toValue_reread (c : Setting) (s : Snapshot) :
    (s.reread c).toValue = .seq ((s.carried c).map (·.got)) := by
  rw [toValue, reread, List.map_map]
  rfl

theorem required_carried (c : Setting) (s : Snapshot) : ∀ p ∈ s.carried c, p.field.required = true := by
  simp [carried, Setting.Carried.same]

theorem roundTrips_carried {s : Snapshot} (hc : c.Plain) (hg : c.scope.Genuine)
    (hs : s.Kept c.natives c.scope) (w : Value → Writer) :
    ∀ p ∈ s.carried c, c.RoundTrips (c.writeOver w p.given p.field.slot .typed) p.field.slot p.got := by
  refine List.forall_mem_cons.2 ⟨Setting.roundTrips_flowId hc s.flowId, List.forall_mem_cons.2 ⟨?_,
    List.forall_mem_cons.2 ⟨?_, List.forall_mem_cons.2 ⟨?_, List.forall_mem_nil _⟩⟩⟩⟩
  · exact Setting.roundTrips_simple (t := .string) trivial trivial
  · change c.RoundTrips (c.writeOver w s.resumePoint.toValue ResumePoint.type .typed)
      ResumePoint.type s.resumePoint.toValue
    cases ho : c.scope.objectType? ResumePoint.type with
    | none =>
      have hfail : c.writeOver w s.resumePoint.toValue ResumePoint.type .typed = Writing.fail _ :=
        Setting.writeOver_seq_of_not_loaded (hc.unbound_named _ _) ho _
      rw [hfail]
      exact .fail
    | some o =>
      obtain rfl := hg _ (.tail _ (.head _)) o ho
      have hvalue := ResumePoint.hasType_toValue ho s.resumePoint
      exact hvalue.roundTrips_single (hc.separate.closed w) trivial
  · have hkeys : Ordered.Increasing Value.compare (s.locals.map fun l => .text l.1) :=
      List.pairwise_map.2 (List.pairwise_map.1 hs.ordered)
    exact Setting.roundTrips_map hkeys
      (fun l _ => Setting.roundTrips_simple (t := .string) trivial trivial)
      fun l hl => Setting.roundTrips_of_held hc (hs.held l hl) w

/-- What has been written of a snapshot is read as the snapshot. -/
theorem read_of_write {s : Snapshot} (hc : c.Plain) (hg : c.scope.Genuine)
    (hs : s.Kept c.natives c.scope) {env : Envelope}
    (h : c.write type s.toValue = .ok (env.body, env.schema)) :
    c.read env type = .ok (s.reread c).toValue := by
  cases ho : c.scope.objectType? type with
  | none =>
    have hfail : c.write type s.toValue = .error _ :=
      congrFun (Setting.writeOver_seq_of_not_loaded (hc.unbound_named _ _) ho _) _
    rw [hfail] at h
    cases h
  | some o =>
    obtain rfl := hg _ (.head _) o ho
    obtain ⟨nesting, hwrite⟩ := c.exists_writer
    have hround := (hc.separate.stands ho).roundTrips_object regular_objectType (map_field_carried c s)
      (roundTrips_carried hc hg hs (c.writeWithin (nesting + 1))) fun p hp hskip => ?_
    · rw [← toValue_eq, ← toValue_reread] at hround
      exact (hround _ _ _ Setting.clear_empty ((hwrite _ _).symm.trans h)).2.2 _ (.refl _)
    · have hrequired := required_carried c s p hp
      rw [(Field.of_skips hskip).1] at hrequired
      cases hrequired

/-- The snapshot that has been read is written as the one before. -/
theorem write_reread {s : Snapshot} (hc : c.Plain) (hg : c.scope.Genuine)
    (hs : s.Kept c.natives c.scope) :
    c.write type (s.reread c).toValue = c.write type s.toValue := by
  cases ho : c.scope.objectType? type with
  | none =>
    have hfail : ∀ s : Snapshot, c.write type s.toValue = .error _ := fun s =>
      congrFun (Setting.writeOver_seq_of_not_loaded (hc.unbound_named _ _) ho _) _
    rw [hfail, hfail]
  | some o =>
    obtain rfl := hg _ (.head _) o ho
    obtain ⟨nesting, hwrite⟩ := c.exists_writer
    have halike : c.WritesAlike (c.writeWithin (nesting + 1)) type (.seq ((s.carried c).map (·.given)))
        (.seq ((s.carried c).map (·.got))) := by
      refine (hc.separate.stands ho).writesAlike_object (map_field_carried c s) fun p hp =>
        ⟨required_carried c s p hp, ?_⟩
      revert p
      refine List.forall_mem_cons.2 ⟨rfl, List.forall_mem_cons.2 ⟨rfl, List.forall_mem_cons.2 ⟨rfl,
        List.forall_mem_cons.2 ⟨?_, List.forall_mem_nil _⟩⟩⟩⟩
      exact Setting.writesAlike_entries fun l hl =>
        (Setting.writeOver_reread hc (hs.held l hl) _).symm
    rw [← toValue_eq, ← toValue_reread] at halike
    rw [hwrite, hwrite]
    exact congrFun (Eq.symm halike) _

end Snapshot

end DurableFlow
