import DurableFlow.Proofs.RoundTrip.Objects

/-!
# Values of simple types, collections and object types are read back
-/

namespace DurableFlow

namespace Value

mutual

/-- The value as it is once it has been read. A hash map has no order of its own, and its entries are kept in the
order of their keys then, as those of any map. -/
def tidy : Value → Value
  | .seq vs => .seq (tidyAll vs)
  | .entries es => .entries (Ordered.ofEntries compare (tidyEntries es))
  | v => v

def tidyAll : List Value → List Value
  | [] => []
  | v :: vs => tidy v :: tidyAll vs

def tidyEntries : List (Value × Value) → List (Value × Value)
  | [] => []
  | (k, v) :: es => (tidy k, tidy v) :: tidyEntries es

end

theorem tidy_seq (vs : List Value) : (Value.seq vs).tidy = .seq (vs.map tidy) := by
  rw [tidy]
  induction vs with
  | nil => rfl
  | cons v vs ih => rw [tidyAll, Value.seq.inj ih, List.map_cons]

theorem tidy_entries (es : List (Value × Value)) :
    (Value.entries es).tidy = .entries (Ordered.ofEntries compare (es.map fun e => (e.1.tidy, e.2.tidy))) := by
  have hall : tidyEntries es = es.map fun e => (e.1.tidy, e.2.tidy) := by
    induction es with
    | nil => rfl
    | cons e es ih => rw [tidyEntries, ih, List.map_cons]
  rw [tidy, hall]

/-- No more than one key. -/
def Single (ks : List Value) : Prop := ks.length ≤ 1

/-- No two of the keys count as the same. -/
def Distinct (ks : List Value) : Prop := ks.Pairwise fun k k' => compare k' k ≠ .eq

theorem Single.distinct {ks : List Value} (h : Single ks) : Distinct ks := by
  match ks, h with
  | [], _ => exact .nil
  | [k], _ => exact List.pairwise_singleton _ _

theorem tidy_entries_of_increasing {es : List (Value × Value)}
    (h : Ordered.Increasing compare (es.map (·.1.tidy))) :
    (Value.entries es).tidy = .entries (es.map fun e => (e.1.tidy, e.2.tidy)) := by
  rw [tidy_entries, Ordered.ofEntries_of_increasing]
  rw [List.map_map]
  exact h

/-- A value of a type made of simple types, collections and object types of the scope. Sets and maps are in order.
A hash map has its entries in the order in which they are written, with keys that `H` holds of; in the items of a set
and in keys it has one entry at most. -/
inductive HasType (scope : Scope) : (List Value → Prop) → Ty → Value → Prop
  | int {H : List Value → Prop} {kind : IntKind} {n : Int} :
    kind.holds n = true → HasType scope H (.int kind) (.int n)
  | boolean {H : List Value → Prop} (b : Bool) : HasType scope H .boolean (.boolean b)
  | double {H : List Value → Prop} (bits : UInt64) : HasType scope H .double (.double bits)
  | char {H : List Value → Prop} (c : Char) : HasType scope H .char (.char c)
  | string {H : List Value → Prop} (s : String) : HasType scope H .string (.text s)
  | list {H : List Value → Prop} {t : Ty} {vs : List Value} :
    (∀ v ∈ vs, HasType scope H t v) → HasType scope H (.list t) (.seq vs)
  | set {H : List Value → Prop} {t : Ty} {vs : List Value} :
    Ordered.Increasing compare vs → (∀ v ∈ vs, HasType scope Single t v) → HasType scope H (.set t) (.seq vs)
  | none {H : List Value → Prop} (t : Ty) : HasType scope H (.optional t) .none
  | some {H : List Value → Prop} {t : Ty} {v : Value} :
    HasType scope H t v → HasType scope H (.optional t) (.some v)
  | pair {H : List Value → Prop} {t t' : Ty} {v v' : Value} :
    HasType scope H t v → HasType scope H t' v' → HasType scope H (.pair t t') (.seq [v, v'])
  | map {H : List Value → Prop} {k t : Ty} {es : List (Value × Value)} :
    Ordered.Increasing compare (es.map (·.1)) → (∀ e ∈ es, HasType scope Single k e.1) →
      (∀ e ∈ es, HasType scope H t e.2) → HasType scope H (.map k t) (.entries es)
  | hashmap {H : List Value → Prop} {k t : Ty} {es : List (Value × Value)} :
    H (es.map (·.1)) → (∀ e ∈ es, HasType scope Single k e.1) →
      (∀ e ∈ es, HasType scope H t e.2) → HasType scope H (.hashmap k t) (.entries es)
  | object {H : List Value → Prop} {o : ObjectType} {vs : List Value} :
    scope.objectType? o.type = .some o → Field.Apart (o.fields.zip vs) → vs.length = o.fields.length →
      (∀ p ∈ o.fields.zip vs, HasType scope H p.1.slot p.2) → HasType scope H o.type (.seq vs)

namespace HasType

variable {scope : Scope} {H H' : List Value → Prop} {t : Ty} {v : Value}

theorem mono (h : v.HasType scope H t) : (∀ ks, H ks → H' ks) → v.HasType scope H' t := by
  intro hH
  induction h with
  | int hn => exact .int hn
  | boolean b => exact .boolean b
  | double bits => exact .double bits
  | char c => exact .char c
  | string s => exact .string s
  | list _ ih => exact .list fun v hv => ih v hv hH
  | set hvs hitems _ => exact .set hvs hitems
  | none t => exact .none t
  | some _ ih => exact .some (ih hH)
  | pair _ _ ih ih' => exact .pair (ih hH) (ih' hH)
  | map hes hkeys _ _ ih => exact .map hes hkeys fun e he => ih e he hH
  | hashmap hes hkeys _ _ ih => exact .hashmap (hH _ hes) hkeys fun e he => ih e he hH
  | object ho hapart hlength _ ih => exact .object ho hapart hlength fun p hp => ih p hp hH

theorem map_tidy_keys {es : List (Value × Value)} (h : ∀ e ∈ es, e.1.tidy = e.1) :
    es.map (·.1.tidy) = es.map (·.1) :=
  List.map_congr_left h

/-- Nothing changes where hash maps have one entry at most. -/
theorem tidy_eq (h : v.HasType scope H t) : (∀ ks, H ks → Single ks) → v.tidy = v := by
  intro hH
  have hall : ∀ {vs : List Value}, (∀ v ∈ vs, v.tidy = v) → (Value.seq vs).tidy = .seq vs := by
    intro vs hvs
    rw [tidy_seq, List.map_congr_left hvs, List.map_id']
  have hentries : ∀ {es : List (Value × Value)}, Ordered.Increasing compare (es.map (·.1)) →
      (∀ e ∈ es, e.1.tidy = e.1) → (∀ e ∈ es, e.2.tidy = e.2) → (Value.entries es).tidy = .entries es := by
    intro es hes hkeys hvalues
    rw [← map_tidy_keys hkeys] at hes
    have hsame : ∀ e ∈ es, (e.1.tidy, e.2.tidy) = e := fun e he => Prod.ext (hkeys e he) (hvalues e he)
    rw [tidy_entries_of_increasing hes, List.map_congr_left hsame, List.map_id']
  induction h with
  | int _ | boolean _ | double _ | char _ | string _ => rfl
  | list _ ih => exact hall fun v hv => ih v hv hH
  | set _ _ ih => exact hall fun v hv => ih v hv fun _ h => h
  | none t => rfl
  | some _ ih => exact hall (List.forall_mem_singleton.2 (ih hH))
  | pair _ _ ih ih' => exact hall (List.forall_mem_cons.2 ⟨ih hH, List.forall_mem_singleton.2 (ih' hH)⟩)
  | map hes _ _ ih ih' => exact hentries hes (fun e he => ih e he fun _ h => h) fun e he => ih' e he hH
  | @hashmap _ _ _ es hes _ _ ih ih' =>
    have hkeys : Ordered.Increasing compare (es.map (·.1)) := by
      match es, hH _ hes with
      | [], _ => exact .nil
      | [e], _ => exact List.pairwise_singleton _ _
    exact hentries hkeys (fun e he => ih e he fun _ h => h) fun e he => ih' e he hH
  | @object _ o vs ho hapart hlength _ ih =>
    refine hall fun v hv => ?_
    have hsnd : (o.fields.zip vs).map (·.2) = vs := List.map_snd_zip (by omega)
    rw [← hsnd] at hv
    obtain ⟨p, hp, rfl⟩ := List.mem_map.1 hv
    exact ih p hp hH

/-- A hash map keeps all its entries. -/
theorem perm_tidy {k : Ty} {es : List (Value × Value)} (h : (entries es).HasType scope Distinct (.hashmap k t)) :
    ∃ es', (entries es).tidy = entries es' ∧ es'.Perm (es.map fun e => (e.1, e.2.tidy)) := by
  generalize ht : Ty.hashmap k t = t' at h
  cases h with
  | hashmap hdistinct hkeys _ =>
    obtain ⟨rfl, rfl⟩ := Ty.hashmap.inj ht
    have hsame : ∀ e ∈ es, (e.1.tidy, e.2.tidy) = (e.1, e.2.tidy) := fun e he =>
      congrArg (·, e.2.tidy) ((hkeys e he).tidy_eq fun _ h => h)
    rw [tidy_entries, List.map_congr_left hsame]
    refine ⟨_, rfl, Ordered.perm_ofEntries ?_⟩
    rw [List.map_map]
    exact hdistinct
  | map => cases ht

end HasType

end Value

namespace Setting

variable {c : Setting} {w : Value → Writer}

namespace Carried

/-- A field that is to be read as it is. -/
def same (p : Field × Value) : Carried := ⟨p.1, p.2, p.2⟩

/-- A field whose value is tidied when it is read. -/
def tidied (p : Field × Value) : Carried := ⟨p.1, p.2, p.2.tidy⟩

variable {fs : List Field} {vs : List Value}

theorem map_field_tidied (h : vs.length = fs.length) :
    ((fs.zip vs).map tidied).map (·.field) = fs := by
  rw [List.map_map]
  exact List.map_fst_zip (by omega)

theorem map_given_tidied (h : vs.length = fs.length) :
    ((fs.zip vs).map tidied).map (·.given) = vs := by
  rw [List.map_map]
  exact List.map_snd_zip (by omega)

theorem apart_tidied (h : Field.Apart (fs.zip vs)) : Apart ((fs.zip vs).map tidied) := by
  rw [Apart, List.map_map]
  exact (List.map_id' (fs.zip vs)).symm ▸ h

theorem map_got_tidied (h : vs.length = fs.length) :
    ((fs.zip vs).map tidied).map (·.got) = vs.map Value.tidy := by
  have hsnd : (fs.zip vs).map (·.2) = vs := List.map_snd_zip (by omega)
  rw [List.map_map, ← hsnd, List.map_map, hsnd]
  rfl

end Carried

theorem roundTrips_tidy_entries {k t t' : Ty} (ht : t' = .map k t ∨ t' = .hashmap k t) {es : List (Value × Value)}
    (h : ∀ e ∈ es, c.RoundTrips (c.writeOver w e.1 k .typed) k e.1.tidy)
    (h' : ∀ e ∈ es, c.RoundTrips (c.writeOver w e.2 t .typed) t e.2.tidy) :
    c.RoundTrips (c.writeOver w (.entries es) t' .typed) t' (Value.entries es).tidy := by
  have hmap := roundTrips_entries ht h h'
  rw [Value.tidy_entries]
  rwa [List.map_id' es] at hmap

/-- Objects of this type are written and read as such: it is loaded, and no serializer is bound to it or
goes by its name. -/
structure Stands (c : Setting) (o : ObjectType) : Prop where
  loaded : c.scope.objectType? o.type = some o
  named : ∃ name label, o.type = .named name label
  unbound : c.registry.byType.get? o.type = none
  unregistered : c.registry.byDescriptor.get? o.name = none

/-- The serializer encodes the value to a body, and decodes this body to the value. -/
def Codes (c : Setting) (w : Value → Writer) (x : Serializer) (v : Value) : Prop :=
  ∃ body, (∀ items s, writeBody w x v items s = .ok (body, s)) ∧
    ∀ s, c.readBody x body (c.readElement s body) = .ok v.tidy

/-- Objects of this type are written and read by a serializer that is bound to it and known by its descriptor. -/
structure Served (c : Setting) (w : Value → Writer) (o : ObjectType) (x : Serializer) : Prop where
  named : ∃ name label, o.type = .named name label
  bound : c.registry.byType.get? o.type = some x
  registered : (c.registry.byDescriptor.get? x.descriptor).isSome = true
  codes : ∀ v, v.HasType c.scope Value.Distinct o.type → c.Codes w x v

/-- A set of types with the types of all members and fields, in which the object types stand or are served. -/
structure Closed (c : Setting) (w : Value → Writer) (S : Ty → Prop) : Prop where
  members : ∀ t, S t → ∀ t' ∈ t.members, S t'
  objects : ∀ o, S o.type → c.scope.objectType? o.type = some o → c.Stands o ∨ ∃ x, c.Served w o x
  fields : ∀ o, S o.type → c.scope.objectType? o.type = some o → ∀ f ∈ o.fields, S f.slot

/-- No object type is in the way of a serializer. -/
structure Separate (c : Setting) : Prop where
  coherent : c.scope.Coherent
  named : ∀ t o, c.scope.objectType? t = some o → ∃ name label, t = .named name label
  unbound : ∀ t o, c.scope.objectType? t = some o → c.registry.byType.get? t = none
  unregistered : ∀ t o, c.scope.objectType? t = some o → c.registry.byDescriptor.get? o.name = none

theorem Separate.stands (hc : c.Separate) {o : ObjectType} (ho : c.scope.objectType? o.type = some o) :
    c.Stands o :=
  ⟨ho, hc.named _ o ho, hc.unbound _ o ho, hc.unregistered _ o ho⟩

theorem Closed.named {S : Ty → Prop} (hS : c.Closed w S) {o : ObjectType} (ht : S o.type)
    (ho : c.scope.objectType? o.type = some o) : ∃ name label, o.type = .named name label := by
  rcases hS.objects o ht ho with hstands | ⟨x, hserved⟩
  · exact hstands.named
  · exact hserved.named

theorem Separate.closed (hc : c.Separate) (w : Value → Writer) : c.Closed w fun _ => True where
  members _ _ _ _ := trivial
  objects _ _ ho := .inl (hc.stands ho)
  fields _ _ _ _ _ := trivial

variable {o : ObjectType}

theorem writeOver_object (hnamed : ∃ name label, o.type = .named name label) (vs : List Value) :
    c.writeOver w (.seq vs) o.type .typed =
      c.writeDescribed w (.seq vs) (vs.map (c.writeOver w)) [] o.type .typed := by
  obtain ⟨name, label, ht⟩ := hnamed
  rw [ht]
  exact congrFun (congrFun (writeOver_seq c w vs) _) _

namespace Served

variable {x : Serializer}

theorem writeOver_eq (hx : c.Served w o x) {vs : List Value} {body : Element}
    (hbody : ∀ items s, writeBody w x (.seq vs) items s = .ok (body, s)) :
    c.writeOver w (.seq vs) o.type .typed = do
      .note (.restricted x.descriptor x.id)
      return .described x.descriptor body := by
  have hguarded : (fun schema => x.guard "write" (writeBody w x (.seq vs) (vs.map (c.writeOver w)) schema)) =
      (pure body : Writing Element) := by
    funext s
    rw [hbody]
    rfl
  rw [writeOver_object hx.named]
  simp only [writeDescribed, hx.bound, hguarded, pure_bind]

theorem readElement_described (hx : c.Served w o x) (s : Schema) (body : Element) :
    c.readElement s (.described x.descriptor body) (.value o.type) =
      c.readBody x body (c.readElement s body) := by
  have hbound := hx.bound
  obtain ⟨name, label, ht⟩ := hx.named
  rw [ht] at hbound ⊢
  rw [Setting.readElement_described]
  change c.readTyped (.named name label) x.descriptor body _ = _
  simp only [readTyped, hbound, if_true]

theorem roundTrips_object (hx : c.Served w o x) {vs : List Value}
    (hv : (Value.seq vs).HasType c.scope Value.Distinct o.type) :
    c.RoundTrips (c.writeOver w (.seq vs) o.type .typed) o.type (Value.seq vs).tidy := by
  obtain ⟨body, hbody, hread⟩ := hx.codes _ hv
  rw [hx.writeOver_eq hbody]
  refine (Writing.Yields.note fun s hs => hs.add_restricted _ hx.registered).bind fun _ => .pure fun s _ => ?_
  rw [hx.readElement_described, hread]

end Served

namespace Stands

theorem readElement_described (ho : c.Stands o) (s : Schema) (body : Element) :
    c.readElement s (.described o.name body) (.value o.type) =
      c.readObject o (c.readElement s body) := by
  have hunbound := ho.unbound
  have hloaded := ho.loaded
  obtain ⟨name, label, ht⟩ := ho.named
  rw [ht] at hunbound hloaded ⊢
  rw [Setting.readElement_described]
  change c.readTyped (.named name label) o.name body _ = _
  simp only [readTyped, hunbound, hloaded, if_true]

theorem yields_object (ho : c.Stands o) {vs : List Value} (hapart : Field.Apart (o.fields.zip vs))
    (hlength : vs.length = o.fields.length)
    (h : ∀ p ∈ o.fields.zip vs, c.RoundTrips (c.writeOver w p.2 p.1.slot .typed) p.1.slot p.2.tidy)
    (slot : Slot) :
    Writing.Yields c.Clear
      (c.writeDescribed w (.seq vs) (vs.map (c.writeOver w)) [] o.type slot)
      fun s e => ∃ body, e = .described o.name body ∧
        c.readObject o (c.readElement s body) = .ok (Value.seq vs).tidy := by
  have hgiven := Carried.map_given_tidied hlength
  have hwriters : ((o.fields.zip vs).map Carried.tidied).map (fun p => c.writeOver w p.given) =
      vs.map (c.writeOver w) :=
    List.map_map.symm.trans (congrArg (List.map (c.writeOver w)) hgiven)
  have habsent : ∀ p ∈ o.fields.zip vs, (Carried.tidied p).skips = true → p.2.tidy = .none := by
    intro p _ hskip
    have hnone : p.2 = .none := (Field.of_skips hskip).2
    rw [hnone]
    rfl
  have hwrite := yields_writeDescribed ho.loaded ho.unbound ho.unregistered
    (Carried.apart_tidied hapart) (Carried.map_field_tidied hlength) (List.forall_mem_map.2 h)
    (List.forall_mem_map.2 habsent) slot
  rw [hgiven, Carried.map_got_tidied hlength, hwriters] at hwrite
  rw [Value.tidy_seq]
  exact hwrite

theorem roundTrips_object (ho : c.Stands o) {ps : List Carried} (hregular : o.Regular)
    (hps : ps.map (·.field) = o.fields)
    (h : ∀ p ∈ ps, c.RoundTrips (c.writeOver w p.given p.field.slot .typed) p.field.slot p.got)
    (hgot : ∀ p ∈ ps, p.skips = true → p.got = .none) :
    c.RoundTrips (c.writeOver w (.seq (ps.map (·.given))) o.type .typed) o.type
      (.seq (ps.map (·.got))) := by
  have hapart : Carried.Apart ps := hregular.apart ((List.map_map ..).trans hps)
  have hwrite := yields_writeDescribed ho.loaded ho.unbound ho.unregistered hapart hps h hgot .typed
  rw [writeOver_object ho.named, List.map_map]
  refine hwrite.mono fun s e ⟨body, he, hread⟩ => ?_
  rw [he, ho.readElement_described, hread]

end Stands

end Setting

namespace Value.HasType

variable {c : Setting} {H : List Value → Prop} {t : Ty} {v : Value}

theorem object_inv {scope : Scope} {o : ObjectType} (hnamed : ∃ name label, o.type = .named name label)
    (ho : scope.objectType? o.type = .some o) (h : v.HasType scope H o.type) :
    ∃ vs, v = .seq vs ∧ Field.Apart (o.fields.zip vs) ∧ vs.length = o.fields.length ∧
      ∀ p ∈ o.fields.zip vs, p.2.HasType scope H p.1.slot := by
  obtain ⟨name, label, hname⟩ := hnamed
  generalize ht : o.type = t at h ho
  cases h with
  | @object _ o' vs ho' hapart hlength hfields =>
    obtain rfl := Option.some.inj (ho.symm.trans ho')
    exact ⟨vs, rfl, hapart, hlength, hfields⟩
  | _ => cases hname.symm.trans ht

/-- Whatever is written of a value is read as the same value, with the entries of hash maps in order. -/
theorem roundTrips {w : Value → Writer} {S : Ty → Prop} (hS : c.Closed w S) (ht : S t)
    (h : v.HasType c.scope H t) :
    (∀ ks, H ks → Distinct ks) → c.RoundTrips (c.writeOver w v t .typed) t v.tidy := by
  intro hH
  induction h with
  | int _ | boolean _ | double _ | char _ | string _ =>
    apply Setting.roundTrips_simple <;> exact trivial
  | list _ ih =>
    have hitem := hS.members _ ht _ (.head _)
    rw [tidy_seq]
    exact Setting.roundTrips_list fun v hv => ih v hv hitem hH
  | @set _ _ vs hvs hitems ih =>
    have hitem := hS.members _ ht _ (.head _)
    have hsame : ∀ v ∈ vs, v.tidy = v := fun v hv => (hitems v hv).tidy_eq fun _ h => h
    rw [tidy_seq, List.map_congr_left hsame, List.map_id']
    refine Setting.roundTrips_set hvs fun v hv => ?_
    have hround := ih v hv hitem fun _ h => h.distinct
    rwa [hsame v hv] at hround
  | none t => exact Setting.roundTrips_none
  | some _ ih => exact Setting.roundTrips_some (ih (hS.members _ ht _ (.head _)) hH)
  | pair _ _ ih ih' =>
    have hfirst := hS.members _ ht _ (.head _)
    have hsecond := hS.members _ ht _ (.tail _ (.head _))
    exact Setting.roundTrips_pair (ih hfirst hH) (ih' hsecond hH)
  | map _ _ _ ih ih' =>
    have hkey := hS.members _ ht _ (.head _)
    have hvalue := hS.members _ ht _ (.tail _ (.head _))
    exact Setting.roundTrips_tidy_entries (.inl rfl) (fun e he => ih e he hkey fun _ h => h.distinct)
      fun e he => ih' e he hvalue hH
  | hashmap _ _ _ ih ih' =>
    have hkey := hS.members _ ht _ (.head _)
    have hvalue := hS.members _ ht _ (.tail _ (.head _))
    exact Setting.roundTrips_tidy_entries (.inr rfl) (fun e he => ih e he hkey fun _ h => h.distinct)
      fun e he => ih' e he hvalue hH
  | @object _ o vs ho hapart hlength hfields ih =>
    rcases hS.objects o ht ho with hstands | ⟨x, hserved⟩
    · have hslots : ∀ p ∈ o.fields.zip vs, S p.1.slot := fun p hp =>
        hS.fields o ht ho p.1 (List.of_mem_zip hp).1
      have hobject := hstands.yields_object hapart hlength (fun p hp => ih p hp (hslots p hp) hH) .typed
      rw [Setting.writeOver_object hstands.named]
      refine hobject.mono fun s e ⟨body, he, hread⟩ => ?_
      rw [he, hstands.readElement_described, hread]
    · exact hserved.roundTrips_object ((object ho hapart hlength hfields).mono hH)

/-- Where hash maps have one entry at most, what is read is the value itself. -/
theorem roundTrips_single {w : Value → Writer} {S : Ty → Prop} (hS : c.Closed w S) (ht : S t)
    (h : v.HasType c.scope Single t) : c.RoundTrips (c.writeOver w v t .typed) t v := by
  have hround := h.roundTrips hS ht fun _ h => h.distinct
  rwa [h.tidy_eq fun _ h => h] at hround

end Value.HasType

end DurableFlow
