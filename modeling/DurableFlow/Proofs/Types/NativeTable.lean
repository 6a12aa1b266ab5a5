import DurableFlow.Proofs.Serializer.Bindings
import DurableFlow.Proofs.Types.Name
import DurableFlow.Types.NativeTable

/-!
# The table of native types hands each type its own codec

A codec is looked up by descriptor alone, so a type gets its own only because no other type has its
descriptor. The invariant is that the table holds for a descriptor what a list of types holds for it: the
simple types and behind them those registered so far.
-/

namespace DurableFlow

namespace Ty

/-- The types that are made of simple types by collections. -/
inductive Composed : Ty → Prop
  | simple {t : Ty} (h : t ∈ Ty.simple) : Composed t
  | list {item : Ty} (h : Composed item) : Composed (.list item)
  | optional {item : Ty} (h : Composed item) : Composed (.optional item)
  | set {item : Ty} (h : Composed item) : Composed (.set item)
  | map {key value : Ty} (hk : Composed key) (hv : Composed value) : Composed (.map key value)
  | hashmap {key value : Ty} (hk : Composed key) (hv : Composed value) : Composed (.hashmap key value)
  | pair {first second : Ty} (h : Composed first) (h' : Composed second) :
    Composed (.pair first second)

theorem isNative_of_mem_simple {t : Ty} (h : t ∈ simple) : t.isNative = true := by
  have hall : simple.all isNative = true := by decide
  exact List.all_eq_true.1 hall t h

variable {t u : Ty} {d : String}

theorem Composed.isNative (h : t.Composed) : t.isNative = true := by
  induction h with
  | simple h => exact isNative_of_mem_simple h
  | list _ ih | optional _ ih | set _ ih => exact ih
  | map _ _ ih ih' | hashmap _ _ ih ih' | pair _ _ ih ih' => exact Bool.and_eq_true_iff.2 ⟨ih, ih'⟩

theorem nativeDescriptor_eq_some_iff :
    t.nativeDescriptor = some d ↔ t.isNative = true ∧ t.name = d := by
  rw [nativeDescriptor]
  split
  next h => simp [h]
  next h => simp [h]

/-- A descriptor belongs to one type at most. -/
theorem eq_of_nativeDescriptor (ht : t.nativeDescriptor = some d) (hu : u.nativeDescriptor = some d) :
    t = u := by
  obtain ⟨ht, hname⟩ := nativeDescriptor_eq_some_iff.1 ht
  obtain ⟨hu, hname'⟩ := nativeDescriptor_eq_some_iff.1 hu
  exact eq_of_name_eq ht hu (hname.trans hname'.symm)

theorem ofDescriptor?_eq_some_iff {known : List Ty} :
    ofDescriptor? known d = some t ↔ t ∈ known ∧ t.nativeDescriptor = some d := by
  rw [nativeDescriptor_eq_some_iff]
  constructor
  · intro h
    have hfound := List.find?_some h
    rw [Bool.and_eq_true, beq_iff_eq] at hfound
    exact ⟨List.mem_of_find?_eq_some h, hfound⟩
  · rintro ⟨hmem, hnative, rfl⟩
    exact ofDescriptor?_name hnative hmem

theorem ofDescriptor?_concat (known : List Ty) (t : Ty) (d : String) :
    ofDescriptor? (known ++ [t]) d =
      (ofDescriptor? known d).or (if t.nativeDescriptor = some d then some t else none) := by
  rw [ofDescriptor?, List.find?_append, List.find?_singleton]
  simp only [nativeDescriptor_eq_some_iff, Bool.and_eq_true, beq_iff_eq, ofDescriptor?]

end Ty

namespace NativeTable

/-- The table binds each descriptor to the codec of the type that has it among those listed. -/
structure Covers (table : NativeTable) (known : List Ty) : Prop where
  nodup : table.keys.Nodup
  get?_eq : ∀ d, table.get? d = (Ty.ofDescriptor? known d).map (⟨d, ·⟩)

variable {table : NativeTable} {known : List Ty} {t : Ty} {d : String}

theorem covers_empty : Covers .empty [] := ⟨List.nodup_nil, fun _ => rfl⟩

namespace Covers

theorem of_skipped (h : table.Covers known) (ht : t.nativeDescriptor = none) :
    table.Covers (known ++ [t]) where
  nodup := h.nodup
  get?_eq d := by
    rw [h.get?_eq, Ty.ofDescriptor?_concat, ht, if_neg (Option.some_ne_none d).symm, Option.or_none]

theorem of_mem (h : table.Covers known) (hmem : t ∈ known) : table.Covers (known ++ [t]) where
  nodup := h.nodup
  get?_eq d := by
    rw [h.get?_eq, Ty.ofDescriptor?_concat]
    by_cases ht : t.nativeDescriptor = some d
    · rw [Ty.ofDescriptor?_eq_some_iff.2 ⟨hmem, ht⟩, Option.some_or]
    · rw [if_neg ht, Option.or_none]

theorem get?_eq_some_iff (h : table.Covers known) {codec : NativeCodec} :
    table.get? d = some codec ↔
      codec.descriptor = d ∧ codec.type ∈ known ∧ codec.type.nativeDescriptor = some d := by
  rw [h.get?_eq, Option.map_eq_some_iff]
  constructor
  · rintro ⟨u, hfound, rfl⟩
    exact ⟨rfl, Ty.ofDescriptor?_eq_some_iff.1 hfound⟩
  · rintro ⟨rfl, hu⟩
    exact ⟨codec.type, Ty.ofDescriptor?_eq_some_iff.2 hu, rfl⟩

theorem codec_eq (h : table.Covers known) (ht : t.nativeDescriptor = some d) {codec : NativeCodec}
    (hc : table.get? d = some codec) : codec = ⟨d, t⟩ ∧ t ∈ known := by
  obtain ⟨hd, hmem, hu⟩ := h.get?_eq_some_iff.1 hc
  obtain rfl := Ty.eq_of_nativeDescriptor hu ht
  exact ⟨congrArg (NativeCodec.mk · codec.type) hd, hmem⟩

theorem set (h : table.Covers known) (ht : t.nativeDescriptor = some d) :
    Covers (Bindings.set table d ⟨d, t⟩) (known ++ [t]) where
  nodup := Bindings.nodup_keys_set h.nodup d _
  get?_eq d' := by
    rw [Bindings.get?_set, Ty.ofDescriptor?_concat, ht]
    by_cases hd : d = d'
    · subst hd
      rw [if_pos rfl, if_pos rfl]
      cases hfound : Ty.ofDescriptor? known d with
      | none => rfl
      | some u =>
        obtain ⟨-, hu⟩ := Ty.ofDescriptor?_eq_some_iff.1 hfound
        rw [Ty.eq_of_nativeDescriptor hu ht]
        rfl
    · rw [if_neg hd, if_neg fun he => hd (Option.some.inj he), Option.or_none]
      exact h.get?_eq d'

theorem seed (h : table.Covers known) (t : Ty) : (table.seed t).Covers (known ++ [t]) := by
  rw [NativeTable.seed]
  split
  next ht => exact h.set ht
  next ht => exact h.of_skipped ht

theorem register (h : table.Covers known) (t : Ty) :
    (table.register t).2.Covers (known ++ [t]) := by
  rw [NativeTable.register]
  split
  next ht => exact h.of_skipped ht
  next d ht =>
    split
    next codec hc => exact h.of_mem (h.codec_eq ht hc).2
    next => exact h.set ht

/-- A type is given its own codec, whether or not it was in the table. -/
theorem fst_register (h : table.Covers known) (ht : t.nativeDescriptor = some d) :
    (table.register t).1 = some ⟨d, t⟩ := by
  simp only [NativeTable.register, ht]
  split
  next codec hc => rw [(h.codec_eq ht hc).1]
  next => rfl

theorem foldl {add : NativeTable → Ty → NativeTable}
    (hadd : ∀ {table known}, Covers table known → ∀ t, (add table t).Covers (known ++ [t]))
    (h : table.Covers known) (ts : List Ty) : (ts.foldl add table).Covers (known ++ ts) := by
  induction ts generalizing table known with
  | nil => rwa [List.append_nil]
  | cons t ts ih =>
    rw [List.append_cons]
    exact ih (hadd h t)

theorem get?_of_nativeDescriptor (h : table.Covers known) (ht : t.nativeDescriptor = some d) :
    table.get? d = if t ∈ known then some ⟨d, t⟩ else none := by
  split
  next hmem => exact h.get?_eq_some_iff.2 ⟨rfl, hmem, ht⟩
  next hmem =>
    cases hc : table.get? d with
    | none => rfl
    | some codec => exact absurd (h.codec_eq ht hc).2 hmem

theorem mem_types_iff (h : table.Covers known) (ht : t.nativeDescriptor = some d) :
    t ∈ table.types ↔ t ∈ known := by
  constructor
  · intro hmem
    obtain ⟨⟨d', codec⟩, he, rfl⟩ := List.mem_map.1 hmem
    exact (h.get?_eq_some_iff.1 (Bindings.get?_of_mem h.nodup he)).2.1
  · intro hmem
    have hget : table.get? d = some ⟨d, t⟩ := h.get?_eq_some_iff.2 ⟨rfl, hmem, ht⟩
    exact List.mem_map.2 ⟨_, Bindings.mem_of_get? hget, rfl⟩

theorem ofDescriptor?_types (h : table.Covers known) (d : String) :
    Ty.ofDescriptor? table.types d = (table.get? d).map NativeCodec.type := by
  ext t
  rw [Ty.ofDescriptor?_eq_some_iff, h.get?_eq, Option.map_map]
  change _ ↔ (Ty.ofDescriptor? known d).map id = some t
  rw [Option.map_id_apply, Ty.ofDescriptor?_eq_some_iff]
  exact and_congr_left fun ht => h.mem_types_iff ht

end Covers

theorem covers_registered (registered : List Ty) :
    (seeded.registerAll registered).Covers (Ty.simple ++ registered) := by
  have hseeded : seeded.Covers Ty.simple := covers_empty.foldl .seed Ty.simple
  exact hseeded.foldl .register registered

/-- A type made of simple ones by collections has a descriptor that no other type has. So whatever types
have been registered, in whatever order, the type is given its own codec when it is registered next, and
its descriptor leads to this codec if the type is simple or was registered before, and to none otherwise.
Where values are read by the types of the table, it leads to the same. -/
theorem own_codec_of_composed (registered : List Ty) {t : Ty} (ht : t.Composed) :
    (∀ u : Ty, t.nativeDescriptor = u.nativeDescriptor → t = u) ∧
    ∃ d, t.nativeDescriptor = some d ∧
      let table := seeded.registerAll registered
      (table.register t).1 = some ⟨d, t⟩ ∧
      table.get? d = (if t ∈ Ty.simple ++ registered then some ⟨d, t⟩ else none) ∧
      Ty.ofDescriptor? table.types d = (table.get? d).map NativeCodec.type := by
  have hcovers := covers_registered registered
  have hd : t.nativeDescriptor = some t.name := if_pos ht.isNative
  constructor
  · intro u h
    exact Ty.eq_of_nativeDescriptor hd (h ▸ hd)
  · exact ⟨t.name, hd, hcovers.fst_register hd, hcovers.get?_of_nativeDescriptor hd,
      hcovers.ofDescriptor?_types _⟩

/-- The descriptor of a map ends that of a hashmap which was registered before. -/
theorem own_codec_of_map :
    let t : Ty := .map .string (.list .uint)
    let u : Ty := .hashmap .string (.list .uint)
    let table := seeded.registerAll [u, .any, t]
    t.Composed ∧ t.nativeDescriptor ≠ u.nativeDescriptor ∧
      t.nativeDescriptor = some "map<string,list<uint>>" ∧
      (table.register t).1 = some ⟨"map<string,list<uint>>", t⟩ ∧
      table.get? "map<string,list<uint>>" = some ⟨"map<string,list<uint>>", t⟩ := by
  intro t u table
  have ht : t.Composed := .map (.simple (by decide)) (.list (.simple (by decide)))
  have hname : t.nativeDescriptor = some "map<string,list<uint>>" := rfl
  obtain ⟨hinj, d, hd, hown, hget, -⟩ := own_codec_of_composed [u, .any, t] ht
  obtain rfl : d = "map<string,list<uint>>" := Option.some.inj (hd.symm.trans hname)
  rw [if_pos (by simp)] at hget
  refine ⟨ht, fun h => ?_, hname, hown, hget⟩
  exact Ty.noConfusion (hinj u h)

end NativeTable

end DurableFlow
