import DurableFlow.Proofs.Reading.Members
import DurableFlow.Proofs.Values.Compare
import DurableFlow.Proofs.Values.Ordered
import DurableFlow.Proofs.Writing.Yields

/-!
# Simple values and collections are read back

What writing makes of a simple value is read as this value, and what it makes of a collection is read as
the collection if its members are. Sets and maps have to be in order for it, since reading puts them in
order.
-/

namespace DurableFlow

theorem IntKind.bounds (k : IntKind) :
    (k.isSigned = true → -9223372036854775808 ≤ k.low ∧ k.high < 9223372036854775808) ∧
      (k.isSigned = false → k.low = 0 ∧ k.high < 18446744073709551616) := by
  cases k <;> decide

theorem inRange_eq {k : IntKind} {n : Int} (h : k.holds n = true) : inRange k n = .ok (.int n) :=
  if_pos h

theorem readSimple_long {k : IntKind} {n : Int} (hk : k.isSigned = true) (h : k.holds n = true) :
    readSimple (.int k) (.long (Int64.ofInt n)) = .ok (.int n) := by
  have hn : k.low ≤ n ∧ n ≤ k.high := by simpa [IntKind.holds] using h
  obtain ⟨hlow, hhigh⟩ := k.bounds.1 hk
  have hread : (Int64.ofInt n).toInt = n := by
    rw [Int64.toInt_ofInt_of_le] <;> omega
  change (if k.isSigned = true then inRange k (Int64.ofInt n).toInt else _) = _
  rw [if_pos hk, hread, inRange_eq h]

theorem readSimple_ulong {k : IntKind} {n : Int} (hk : k.isSigned = false) (h : k.holds n = true) :
    readSimple (.int k) (.ulong (UInt64.ofNat n.toNat)) = .ok (.int n) := by
  have hn : k.low ≤ n ∧ n ≤ k.high := by simpa [IntKind.holds] using h
  obtain ⟨hlow, hhigh⟩ := k.bounds.2 hk
  have hsize : n.toNat < UInt64.size := by
    change n.toNat < 2 ^ 64
    omega
  have hread : ((UInt64.ofNat n.toNat).toNat : Int) = n := by
    rw [UInt64.toNat_ofNat_of_lt' hsize]
    omega
  change (if k.isSigned = true then _ else inRange k (UInt64.ofNat n.toNat).toNat) = _
  rw [if_neg (by simp [hk]), hread, inRange_eq h]

theorem readSimple_of_writeSimple {t : Ty} {v : Value} {e : Element} (h : writeSimple t v = .ok e) :
    readSimple t e = .ok v ∧ e.IsLeaf := by
  rw [writeSimple] at h
  cases hw : writeSimple? t v with
  | none =>
    rw [hw] at h
    cases h
  | some e' =>
    rw [hw] at h
    obtain rfl := Except.ok.inj h
    unfold writeSimple? at hw
    split at hw
    case h_1 k n =>
      split_ifs at hw with hn hk <;> obtain rfl := Option.some.inj hw
      · exact ⟨readSimple_long hk hn, trivial⟩
      · exact ⟨readSimple_ulong (Bool.not_eq_true _ ▸ hk) hn, trivial⟩
    case h_6 => cases hw
    all_goals
      obtain rfl := Option.some.inj hw
      exact ⟨rfl, trivial⟩

/-- A type of single values. -/
def Ty.IsSimple : Ty → Prop
  | int _ | boolean | double | char | string => True
  | _ => False

/-- Except of descriptors only the schema of object types counts. -/
def Setting.Clear (c : Setting) (s : Schema) : Prop :=
  ∀ name own id, s.get? name = some (.restricted own id) →
    (c.registry.byDescriptor.get? name).isSome = true

namespace Setting

variable {c : Setting} {w : Value → Writer}

theorem clear_empty : c.Clear .empty := fun _ _ _ h => nomatch h

theorem Clear.add_composite {s : Schema} (h : c.Clear s) (name : String) (fields : List String) :
    c.Clear (s.add (.composite name fields)) := by
  intro name' own id hget
  rw [Schema.get?_add, Option.or_eq_some_iff] at hget
  rcases hget with hget | ⟨-, hget⟩
  · exact h _ _ _ hget
  · split_ifs at hget
    cases hget

theorem Clear.add_restricted {s : Schema} (h : c.Clear s) {name : String} (id : String)
    (hname : (c.registry.byDescriptor.get? name).isSome = true) :
    c.Clear (s.add (.restricted name id)) := by
  intro name' own id' hget
  rw [Schema.get?_add, Option.or_eq_some_iff] at hget
  rcases hget with hget | ⟨-, hget⟩
  · exact h _ _ _ hget
  · split_ifs at hget with hn
    rw [← hn]
    exact hname

/-- What `x` writes is read as this value of this type, whatever else has been written. -/
def RoundTrips (c : Setting) (x : Writing Element) (t : Ty) (v : Value) : Prop :=
  Writing.Yields c.Clear x fun s e => c.readElement s e (.value t) = .ok v

theorem mapM_eq_ok_of_forall₂ {α β γ : Type} {f : β → Except Abort γ} {g : α → γ} {as : List α}
    {bs : List β} (h : List.Forall₂ (fun a b => f b = .ok (g a)) as bs) :
    bs.mapM f = .ok (as.map g) := by
  induction h with
  | nil => rfl
  | cons hab _ ih =>
    rw [List.mapM_cons, hab, ih]
    rfl

theorem yields_items {α : Type} {as : List α} {x : α → Writing Element} {t : Ty} {g : α → Value}
    (h : ∀ a ∈ as, c.RoundTrips (x a) t (g a)) :
    Writing.Yields c.Clear (as.mapM x) fun s es =>
      es.mapM (fun e => c.readElement s e (.value t)) = .ok (as.map g) :=
  (Writing.Yields.mapM h).mono fun _ _ hes => mapM_eq_ok_of_forall₂ hes

theorem yields_entries {α : Type} {as : List α} {x y : α → Writing Element} {k t : Ty}
    {g g' : α → Value} (h : ∀ a ∈ as, c.RoundTrips (x a) k (g a))
    (h' : ∀ a ∈ as, c.RoundTrips (y a) t (g' a)) :
    Writing.Yields c.Clear (as.mapM fun a => do return (← x a, ← y a)) fun s es =>
      es.mapM (fun e => do
        return (← c.readElement s e.1 (.value k), ← c.readElement s e.2 (.value t))) =
          .ok (as.map fun a => (g a, g' a)) := by
  have hpair : ∀ a ∈ as, Writing.Yields c.Clear (do return (← x a, ← y a)) fun s e =>
      (do return (← c.readElement s e.1 (.value k), ← c.readElement s e.2 (.value t)) :
        Except Abort (Value × Value)) = .ok (g a, g' a) := by
    intro a ha
    refine (h a ha).bind fun e => (h' a ha).bind fun e' => .pure fun s he' he => ?_
    rw [he, he']
    rfl
  exact (Writing.Yields.mapM hpair).mono fun _ _ hes => mapM_eq_ok_of_forall₂ hes

theorem readElement_simple {t : Ty} (ht : t.IsSimple) {e : Element} (he : e.IsLeaf) (s : Schema) :
    c.readElement s e (.value t) = readSimple t e := by
  rw [readElement_leaf c s he]
  cases t <;> first
    | exact ht.elim
    | rfl

theorem writePlain_simple {t : Ty} (ht : t.IsSimple) (v : Value) (items : List Writer)
    (entries : List (Writer × Writer)) :
    writePlain t v items entries = Writing.lift (writeSimple t v) := by
  cases t <;> first
    | exact ht.elim
    | rfl

theorem roundTrips_writeSimple {t : Ty} (ht : t.IsSimple) (v : Value) :
    c.RoundTrips (Writing.lift (writeSimple t v)) t v := by
  refine .lift fun e he s => ?_
  obtain ⟨hread, hleaf⟩ := readSimple_of_writeSimple he
  rw [readElement_simple ht hleaf, hread]

theorem writeOver_simple {t : Ty} (ht : t.IsSimple) {v : Value} (hv : v.IsLeaf) :
    c.writeOver w v t .typed = Writing.lift (writeSimple t v) := by
  rw [writeOver_leaf c w hv]
  cases t <;> first
    | exact ht.elim
    | exact writePlain_simple ht v [] []

theorem roundTrips_simple {t : Ty} (ht : t.IsSimple) {v : Value} (hv : v.IsLeaf) :
    c.RoundTrips (c.writeOver w v t .typed) t v := by
  rw [writeOver_simple ht hv]
  exact roundTrips_writeSimple ht v

theorem writeOver_items {t t' : Ty} (ht : t' = .list t ∨ t' = .set t) (vs : List Value) :
    c.writeOver w (.seq vs) t' .typed =
      do return .list (← vs.mapM fun v => c.writeOver w v t .typed) := by
  have hmap : (vs.map (c.writeOver w)).mapM (fun x => x t .typed) =
      vs.mapM fun v => c.writeOver w v t .typed := List.mapM_map
  rw [writeOver_seq, ← hmap]
  rcases ht with rfl | rfl <;> rfl

theorem readElement_items (s : Schema) (es : List Element) (t : Ty) :
    c.readElement s (.list es) (.value (.list t)) =
        (do return .seq (← es.mapM fun e => c.readElement s e (.value t))) ∧
      c.readElement s (.list es) (.value (.set t)) =
        (do return .seq (Ordered.ofList Value.compare
          (← es.mapM fun e => c.readElement s e (.value t)))) := by
  have hmap : (es.map (c.readElement s)).mapM (fun r => r (.value t)) =
      es.mapM fun e => c.readElement s e (.value t) := List.mapM_map
  rw [readElement_list, ← hmap]
  exact ⟨rfl, rfl⟩

theorem roundTrips_list {t : Ty} {vs : List Value} {g : Value → Value}
    (h : ∀ v ∈ vs, c.RoundTrips (c.writeOver w v t .typed) t (g v)) :
    c.RoundTrips (c.writeOver w (.seq vs) (.list t) .typed) (.list t) (.seq (vs.map g)) := by
  rw [writeOver_items (.inl rfl)]
  refine (yields_items h).bind fun es => .pure fun s hes => ?_
  rw [(readElement_items s es t).1, hes]
  rfl

theorem roundTrips_set {t : Ty} {vs : List Value} (hvs : Ordered.Increasing Value.compare vs)
    (h : ∀ v ∈ vs, c.RoundTrips (c.writeOver w v t .typed) t v) :
    c.RoundTrips (c.writeOver w (.seq vs) (.set t) .typed) (.set t) (.seq vs) := by
  rw [writeOver_items (.inr rfl)]
  refine (yields_items (g := id) h).bind fun es => .pure fun s hes => ?_
  rw [(readElement_items s es t).2, hes, List.map_id]
  exact congrArg (fun vs => Except.ok (Value.seq vs)) (Ordered.ofList_of_increasing hvs)

theorem roundTrips_none {t : Ty} :
    c.RoundTrips (c.writeOver w .none (.optional t) .typed) (.optional t) .none :=
  .pure fun _ => rfl

theorem readElement_some (s : Schema) (e : Element) (t : Ty) :
    c.readElement s (.list [e]) (.value (.optional t)) =
      (do return .some (← c.readElement s e (.value t))) := by
  rw [readElement_list]
  change (do return Value.seq (← [c.readElement s e].mapM fun (r : Reader) => r (.value t)) :
    Except Abort Value) = _
  simp only [List.mapM_cons, List.mapM_nil, bind_assoc, pure_bind]
  rfl

theorem writeOver_some (v : Value) (t : Ty) :
    c.writeOver w (.some v) (.optional t) .typed = do
      return .list [← c.writeOver w v t .typed] := by
  rw [Value.some, writeOver_seq]
  rfl

theorem roundTrips_some {t : Ty} {v u : Value} (h : c.RoundTrips (c.writeOver w v t .typed) t u) :
    c.RoundTrips (c.writeOver w (.some v) (.optional t) .typed) (.optional t) (.some u) := by
  rw [writeOver_some]
  refine Writing.Yields.bind h fun e => .pure fun s he => ?_
  rw [readElement_some, he]
  rfl

theorem writeOver_pair (v v' : Value) (t t' : Ty) :
    c.writeOver w (.seq [v, v']) (.pair t t') .typed = do
      return .list [← c.writeOver w v t .typed, ← c.writeOver w v' t' .typed] := by
  rw [writeOver_seq]
  rfl

theorem roundTrips_pair {t t' : Ty} {v v' u u' : Value}
    (h : c.RoundTrips (c.writeOver w v t .typed) t u)
    (h' : c.RoundTrips (c.writeOver w v' t' .typed) t' u') :
    c.RoundTrips (c.writeOver w (.seq [v, v']) (.pair t t') .typed) (.pair t t') (.seq [u, u']) := by
  rw [writeOver_pair]
  refine Writing.Yields.bind h fun e => .bind h' fun e' => .pure fun s he' he => ?_
  rw [readElement_list]
  change (do return Value.seq [← c.readElement s e (.value t), ← c.readElement s e' (.value t')] :
    Except Abort Value) = _
  rw [he, he']
  rfl

theorem writeOver_map {k t t' : Ty} (ht : t' = .map k t ∨ t' = .hashmap k t)
    (es : List (Value × Value)) :
    c.writeOver w (.entries es) t' .typed = do
      return .map (← es.mapM fun e => do
        return (← c.writeOver w e.1 k .typed, ← c.writeOver w e.2 t .typed)) := by
  have hmap : (es.map fun e => (c.writeOver w e.1, c.writeOver w e.2)).mapM
      (fun x => do return (← x.1 k .typed, ← x.2 t .typed)) =
      es.mapM fun e => do return (← c.writeOver w e.1 k .typed, ← c.writeOver w e.2 t .typed) :=
    List.mapM_map
  rw [writeOver_entries, ← hmap]
  rcases ht with rfl | rfl <;> rfl

theorem readElement_entries {k t t' : Ty} (ht : t' = .map k t ∨ t' = .hashmap k t) (s : Schema)
    (es : List (Element × Element)) :
    c.readElement s (.map es) (.value t') = do
      return .entries (Ordered.ofEntries Value.compare (← es.mapM fun e => do
        return (← c.readElement s e.1 (.value k), ← c.readElement s e.2 (.value t)))) := by
  have hmap : (es.map fun e => (c.readElement s e.1, c.readElement s e.2)).mapM
      (fun r => do return (← r.1 (.value k), ← r.2 (.value t))) =
      es.mapM fun e => do
        return (← c.readElement s e.1 (.value k), ← c.readElement s e.2 (.value t)) :=
    List.mapM_map
  rw [readElement_map, ← hmap]
  rcases ht with rfl | rfl <;> rfl

/-- The entries of a map are read in the order of the keys that are read for them. -/
theorem roundTrips_entries {α : Type} {k t t' : Ty} (ht : t' = .map k t ∨ t' = .hashmap k t)
    {as : List α} {f f' g g' : α → Value}
    (h : ∀ a ∈ as, c.RoundTrips (c.writeOver w (f a) k .typed) k (g a))
    (h' : ∀ a ∈ as, c.RoundTrips (c.writeOver w (f' a) t .typed) t (g' a)) :
    c.RoundTrips (c.writeOver w (.entries (as.map fun a => (f a, f' a))) t' .typed) t'
      (.entries (Ordered.ofEntries Value.compare (as.map fun a => (g a, g' a)))) := by
  rw [writeOver_map ht, List.mapM_map]
  refine (yields_entries h h').bind fun es => .pure fun s hes => ?_
  rw [readElement_entries ht, hes]
  rfl

theorem roundTrips_map {α : Type} {k t : Ty} {as : List α} {f f' g g' : α → Value}
    (has : Ordered.Increasing Value.compare (as.map g))
    (h : ∀ a ∈ as, c.RoundTrips (c.writeOver w (f a) k .typed) k (g a))
    (h' : ∀ a ∈ as, c.RoundTrips (c.writeOver w (f' a) t .typed) t (g' a)) :
    c.RoundTrips (c.writeOver w (.entries (as.map fun a => (f a, f' a))) (.map k t) .typed) (.map k t)
      (.entries (as.map fun a => (g a, g' a))) := by
  have hkeys : Ordered.Increasing Value.compare ((as.map fun a => (g a, g' a)).map (·.1)) := by
    rw [List.map_map]
    exact has
  have hmap := roundTrips_entries (.inl rfl) h h'
  rwa [Ordered.ofEntries_of_increasing hkeys] at hmap

end Setting

end DurableFlow
