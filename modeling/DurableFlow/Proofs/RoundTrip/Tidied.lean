import DurableFlow.Proofs.RoundTrip.Native

/-!
# Elements brought into order

Whether an element can be read as a value of a type built from simple types and collections is decided by its
parts. What is read is written as the element with its sets and maps in order, without repetitions, where of the
entries with one key the last one is kept. A map without an order of its own is written in any order.
-/

namespace DurableFlow

open List (Forall₂)
open Relator (BiUnique)

namespace Element

/-- Every part of the element is one that the type asks for. -/
def Fits : Ty → Element → Prop
  | .list item | .set item => fun e => ∃ es, e = .list es ∧ ∀ x ∈ es, Fits item x
  | .optional item => fun e => e = .null ∨ ∃ x, e = .list [x] ∧ Fits item x
  | .pair first second => fun e => ∃ x y, e = .list [x, y] ∧ Fits first x ∧ Fits second y
  | .map key value | .hashmap key value => fun e =>
    ∃ es, e = .map es ∧ ∀ q ∈ es, Fits key q.1 ∧ Fits value q.2
  | t => fun e => ∃ v, writeSimple t v = .ok e

/-- The value of the one element is less than that of the other. -/
def Before (t : Ty) (e e' : Element) : Prop :=
  ∃ v v', Value.Spelled t v e ∧ Value.Spelled t v' e' ∧ v.compare v' = .lt

/-- The second element is the first one with its sets and maps in order, each item and key standing once, with
the last value for each key. The entries of a map that has no order of its own may stand in any. -/
def Tidied : Ty → Element → Element → Prop
  | .list item => fun e e' => ∃ es es', e = .list es ∧ e' = .list es' ∧ List.Forall₂ (Tidied item) es es'
  | .set item => fun e e' => ∃ es mid es', e = .list es ∧ e' = .list es' ∧
    List.Forall₂ (Tidied item) es mid ∧ (∀ x, x ∈ es' ↔ x ∈ mid) ∧ es'.Pairwise (Before item)
  | .optional item => fun e e' =>
    e = .null ∧ e' = .null ∨ ∃ x x', e = .list [x] ∧ e' = .list [x'] ∧ Tidied item x x'
  | .pair first second => fun e e' => ∃ x y x' y',
    e = .list [x, y] ∧ e' = .list [x', y'] ∧ Tidied first x x' ∧ Tidied second y y'
  | .map key value => fun e e' => ∃ es mid es', e = .map es ∧ e' = .map es' ∧
    List.Forall₂ (fun q q' => Tidied key q.1 q'.1 ∧ Tidied value q.2 q'.2) es mid ∧
    (∀ q, q ∈ es' ↔ Ordered.Last q mid) ∧ (es'.map (·.1)).Pairwise (Before key)
  | .hashmap key value => fun e e' => ∃ es mid es', e = .map es ∧ e' = .map es' ∧
    List.Forall₂ (fun q q' => Tidied key q.1 q'.1 ∧ Tidied value q.2 q'.2) es mid ∧
    (∀ q, q ∈ es' ↔ Ordered.Last q mid) ∧ (es'.map (·.1)).Nodup
  | _ => fun e e' => e' = e

theorem Before.ne {t : Ty} {e e' : Element} (h : Before t e e') : e ≠ e' := by
  rintro rfl
  obtain ⟨v, v', hv, hv', hlt⟩ := h
  obtain rfl := (Value.biUnique_spelled t).1 hv hv'
  have hself : v.compare v = .eq := Std.ReflCmp.compare_self
  rw [hself] at hlt
  cases hlt

end Element

section

variable {α β : Type} {R : α → β → Prop} {as : List α} {bs : List β}

theorem mem_right_iff (hR : Relator.RightUnique R) (h : Forall₂ R as bs) {b : β} :
    b ∈ bs ↔ ∃ a ∈ as, R a b := by
  refine ⟨exists_of_mem_right h, ?_⟩
  rintro ⟨a, ha, hab⟩
  obtain ⟨b', hb', hab'⟩ := exists_of_mem_right (forall₂_swap.2 h) ha
  rwa [hR hab hab']

end

namespace Ordered

variable {α β α' β' : Type} {K : α → α' → Prop} {V : β → β' → Prop} {ps : List (α × β)}
  {qs : List (α' × β')}

theorem last_iff_of_forall₂ (hK : BiUnique K) (hV : Relator.RightUnique V)
    (h : Forall₂ (fun p q => K p.1 q.1 ∧ V p.2 q.2) ps qs) {q : α' × β'} :
    Last q qs ↔ ∃ p, Last p ps ∧ K p.1 q.1 ∧ V p.2 q.2 := by
  induction h with
  | nil => exact iff_of_false not_last_nil fun ⟨p, hp, _⟩ => not_last_nil hp
  | @cons p' q' ps qs hpq h ih =>
    -- Keys that stand for each other come again on both sides or on neither.
    have hkeys : (∀ y ∈ qs, y.1 ≠ q'.1) ↔ ∀ y ∈ ps, y.1 ≠ p'.1 := by
      constructor
      · intro hqs y hy heq
        obtain ⟨z, hz, hyz⟩ := exists_of_mem_right (forall₂_swap.2 h) hy
        rw [heq] at hyz
        exact hqs z hz (hK.2 hyz.1 hpq.1)
      · intro hps y hy heq
        obtain ⟨z, hz, hzy⟩ := exists_of_mem_right h hy
        rw [heq] at hzy
        exact hps z hz (hK.1 hzy.1 hpq.1)
    simp only [last_cons, ih, or_and_right, exists_or]
    refine or_congr_left ⟨?_, ?_⟩
    · rintro ⟨rfl, hqs⟩
      exact ⟨p', ⟨rfl, hkeys.1 hqs⟩, hpq⟩
    · rintro ⟨p, ⟨rfl, hps⟩, hp⟩
      obtain rfl : q = q' := Prod.ext (hK.2 hp.1 hpq.1) (hV hp.2 hpq.2)
      exact ⟨rfl, hkeys.2 hps⟩

end Ordered

namespace Setting

variable {c : Setting} {s : Schema} {t item key value : Ty} {e : Element} {v : Value}

theorem exists_items_iff {g : List Value → List Value}
    (ht : t = .list item ∧ g = id ∨ t = .set item ∧ g = Ordered.ofList Value.compare)
    (h : ∀ e, (∃ v, c.readElement s e (.value item) = .ok v) ↔ e.Fits item) :
    (∃ v, c.readElement s e (.value t) = .ok v) ↔ ∃ es, e = .list es ∧ ∀ x ∈ es, x.Fits item := by
  simp only [readElement_items_iff ht, ← h, ← exists_forall₂_iff]
  exact ⟨fun ⟨_, es, vs, he, _, hes⟩ => ⟨es, he, vs, hes⟩,
    fun ⟨es, he, vs, hes⟩ => ⟨_, es, vs, he, rfl, hes⟩⟩

theorem exists_entries_iff (ht : t = .map key value ∨ t = .hashmap key value)
    (h : ∀ e, (∃ v, c.readElement s e (.value key) = .ok v) ↔ e.Fits key)
    (h' : ∀ e, (∃ v, c.readElement s e (.value value) = .ok v) ↔ e.Fits value) :
    (∃ v, c.readElement s e (.value t) = .ok v) ↔
      ∃ es, e = .map es ∧ ∀ q ∈ es, q.1.Fits key ∧ q.2.Fits value := by
  have hentry : ∀ q : Element × Element, q.1.Fits key ∧ q.2.Fits value ↔
      ∃ p : Value × Value, c.readElement s q.1 (.value key) = .ok p.1 ∧
        c.readElement s q.2 (.value value) = .ok p.2 := by
    intro q
    rw [← h, ← h']
    exact ⟨fun ⟨⟨k, hk⟩, v, hv⟩ => ⟨(k, v), hk, hv⟩, fun ⟨p, hk, hv⟩ => ⟨⟨p.1, hk⟩, p.2, hv⟩⟩
  simp only [readElement_map_iff ht, hentry, ← exists_forall₂_iff]
  exact ⟨fun ⟨_, es, vs, he, _, hes⟩ => ⟨es, he, vs, hes⟩,
    fun ⟨es, he, vs, hes⟩ => ⟨_, es, vs, he, rfl, hes⟩⟩

/-- Reading succeeds just where every part of the element is one that the type asks for. -/
theorem exists_readElement_iff (ht : t.isNative = true) :
    (∃ v, c.readElement s e (.value t) = .ok v) ↔ e.Fits t := by
  induction t generalizing e with
  | int _ | boolean | double | char | string =>
    refine exists_congr fun v => readElement_simple_iff ?_
    exact trivial
  | list item ih => exact exists_items_iff (.inl ⟨rfl, rfl⟩) fun e => ih ht
  | set item ih => exact exists_items_iff (.inr ⟨rfl, rfl⟩) fun e => ih ht
  | optional item ih =>
    simp only [readElement_optional_iff, Element.Fits, ← ih ht]
    constructor
    · rintro ⟨v, ⟨he, -⟩ | ⟨e', v', he, -, h⟩⟩
      · exact .inl he
      · exact .inr ⟨e', he, v', h⟩
    · rintro (he | ⟨e', he, v', h⟩)
      · exact ⟨.none, .inl ⟨he, rfl⟩⟩
      · exact ⟨.some v', .inr ⟨e', v', he, rfl, h⟩⟩
  | pair first second ih ih' =>
    obtain ⟨hfirst, hsecond⟩ := (Bool.and_eq_true _ _).mp ht
    simp only [readElement_pair_iff, Element.Fits, ← ih hfirst, ← ih' hsecond]
    exact ⟨fun ⟨_, e₁, e₂, v₁, v₂, he, _, h₁, h₂⟩ => ⟨e₁, e₂, he, ⟨v₁, h₁⟩, v₂, h₂⟩,
      fun ⟨e₁, e₂, he, ⟨v₁, h₁⟩, v₂, h₂⟩ => ⟨_, e₁, e₂, v₁, v₂, he, rfl, h₁, h₂⟩⟩
  | map key value ih ih' =>
    obtain ⟨hkey, hvalue⟩ := (Bool.and_eq_true _ _).mp ht
    exact exists_entries_iff (.inl rfl) (fun e => ih hkey) fun e => ih' hvalue
  | hashmap key value ih ih' =>
    obtain ⟨hkey, hvalue⟩ := (Bool.and_eq_true _ _).mp ht
    exact exists_entries_iff (.inr rfl) (fun e => ih hkey) fun e => ih' hvalue
  | _ => cases ht

end Setting

namespace Value

variable {item key value : Ty}

theorem exists_spelled_ofList (ht : item.hasOrder = true) {vs : List Value} {mid : List Element}
    (h : Forall₂ (Spelled item) vs mid) :
    ∃ es, Forall₂ (Spelled item) (Ordered.ofList compare vs) es ∧ (∀ x, x ∈ es ↔ x ∈ mid) ∧
      es.Pairwise (Element.Before item) := by
  have hvs := forall_exists_of_forall₂ h
  obtain ⟨hsorted, hmem⟩ := (lawfulOn_compare ht).increasing_ofList hvs
  obtain ⟨es, hes⟩ := exists_forall₂_iff.2 fun v hv => hvs v ((hmem v).1 hv)
  refine ⟨es, hes, fun x => ?_, ?_⟩
  · rw [mem_right_iff (biUnique_spelled item).2 hes, mem_right_iff (biUnique_spelled item).2 h]
    simp only [hmem]
  · exact pairwise_of_forall₂ hes (fun v v' x x' hv hv' hlt => ⟨v, v', hv, hv', hlt⟩) hsorted

theorem exists_spelled_ofEntries (ht : key.hasOrder = true) {ps : List (Value × Value)}
    {mid : List (Element × Element)} (h : Forall₂ (SpelledEntry key value) ps mid) :
    ∃ es, Forall₂ (SpelledEntry key value) (Ordered.ofEntries compare ps) es ∧
      (∀ q, q ∈ es ↔ Ordered.Last q mid) ∧ (es.map (·.1)).Pairwise (Element.Before key) := by
  have hps := forall_exists_of_forall₂ h
  have hkeys : ∀ p ∈ ps, ∃ e, Spelled key p.1 e := fun p hp =>
    let ⟨q, hq⟩ := hps p hp
    ⟨q.1, hq.1⟩
  have hmem : ∀ p, p ∈ Ordered.ofEntries compare ps ↔ Ordered.Last p ps := fun p =>
    (lawfulOn_compare ht).mem_ofEntries hkeys
  have hsorted : Ordered.Increasing compare ((Ordered.ofEntries compare ps).map (·.1)) := by
    rw [Ordered.map_fst_ofEntries]
    exact ((lawfulOn_compare ht).increasing_ofList (List.forall_mem_map.2 hkeys)).1
  obtain ⟨es, hes⟩ := exists_forall₂_iff.2 fun p hp => hps p ((hmem p).1 hp).mem
  refine ⟨es, hes, fun q => ?_, ?_⟩
  · have hentry : Relator.RightUnique (SpelledEntry key value) := fun _ _ _ hq hq' =>
      Prod.ext ((biUnique_spelled key).2 hq.1 hq'.1) ((biUnique_spelled value).2 hq.2 hq'.2)
    rw [mem_right_iff hentry hes, Ordered.last_iff_of_forall₂ (biUnique_spelled key)
      (biUnique_spelled value).2 h]
    simp only [hmem]
    rfl
  · have hfirst : Forall₂ (Spelled key) ((Ordered.ofEntries compare ps).map (·.1)) (es.map (·.1)) :=
      List.forall₂_map_left_iff.2 (List.forall₂_map_right_iff.2 (hes.imp fun _ _ h => h.1))
    exact pairwise_of_forall₂ hfirst (fun v v' x x' hv hv' hlt => ⟨v, v', hv, hv', hlt⟩) hsorted

end Value

namespace Setting

variable {c : Setting} {s : Schema} {t : Ty} {e : Element} {v : Value}

theorem exists_tidied_entries {key value : Ty} (ht : t = .map key value ∨ t = .hashmap key value)
    (hkey : key.hasOrder = true)
    (hkeys : ∀ e v, c.readElement s e (.value key) = .ok v → ∃ e', Value.Spelled key v e' ∧ e.Tidied key e')
    (hvalues : ∀ e v, c.readElement s e (.value value) = .ok v →
      ∃ e', Value.Spelled value v e' ∧ e.Tidied value e')
    (h : c.readElement s e (.value t) = .ok v) : ∃ es mid vs es', e = .map es ∧ v = .entries vs ∧
      Forall₂ (Value.SpelledEntry key value) vs es' ∧
      Forall₂ (fun q q' => q.1.Tidied key q'.1 ∧ q.2.Tidied value q'.2) es mid ∧
      (∀ q, q ∈ es' ↔ Ordered.Last q mid) ∧ (es'.map (·.1)).Pairwise (Element.Before key) := by
  obtain ⟨es, vs, rfl, rfl, hread⟩ := (readElement_map_iff ht).1 h
  have hentry : ∀ (q : Element × Element) (p : Value × Value),
      c.readElement s q.1 (.value key) = .ok p.1 ∧ c.readElement s q.2 (.value value) = .ok p.2 →
      ∃ q' : Element × Element, Value.SpelledEntry key value p q' ∧
        q.1.Tidied key q'.1 ∧ q.2.Tidied value q'.2 := by
    rintro q p ⟨hfirst, hsecond⟩
    obtain ⟨x, hp, hx⟩ := hkeys _ _ hfirst
    obtain ⟨y, hp', hy⟩ := hvalues _ _ hsecond
    exact ⟨(x, y), ⟨hp, hp'⟩, hx, hy⟩
  obtain ⟨mid, hspelled, htidied⟩ := exists_between hread hentry
  obtain ⟨es', hes', hlast, hsorted⟩ := Value.exists_spelled_ofEntries hkey hspelled
  exact ⟨es, mid, _, es', rfl, rfl, hes', htidied, hlast, hsorted⟩

/-- What is read is spelled by the element with its sets and maps in order. -/
theorem exists_tidied_of_readElement (ht : t.isKeyed = true)
    (h : c.readElement s e (.value t) = .ok v) : ∃ e', Value.Spelled t v e' ∧ e.Tidied t e' := by
  induction t generalizing e v with
  | int _ | boolean | double | char | string =>
    refine ⟨e, (readElement_simple_iff ?_).1 h, rfl⟩
    exact trivial
  | list item ih =>
    obtain ⟨es, vs, rfl, rfl, hread⟩ := (readElement_items_iff (.inl ⟨rfl, rfl⟩)).1 h
    obtain ⟨es', hspelled, htidied⟩ := exists_between hread fun e v => ih ht
    exact ⟨.list es', ⟨vs, es', rfl, rfl, hspelled⟩, es, es', rfl, rfl, htidied⟩
  | set item ih =>
    obtain ⟨es, vs, rfl, rfl, hread⟩ := (readElement_items_iff (.inr ⟨rfl, rfl⟩)).1 h
    obtain ⟨mid, hspelled, htidied⟩ := exists_between hread fun e v => ih (Ty.isKeyed_of_hasOrder ht)
    obtain ⟨es', hes', hmem, hsorted⟩ := Value.exists_spelled_ofList ht hspelled
    exact ⟨.list es', ⟨_, es', rfl, rfl, hes'⟩, es, mid, es', rfl, rfl, htidied, hmem, hsorted⟩
  | optional item ih =>
    obtain ⟨rfl, rfl⟩ | ⟨e', v', rfl, rfl, hread⟩ := readElement_optional_iff.1 h
    · exact ⟨.null, .inl ⟨rfl, rfl⟩, .inl ⟨rfl, rfl⟩⟩
    · obtain ⟨x, hv', hx⟩ := ih ht hread
      exact ⟨.list [x], .inr ⟨v', x, rfl, rfl, hv'⟩, .inr ⟨e', x, rfl, rfl, hx⟩⟩
  | pair first second ih ih' =>
    obtain ⟨hfirst, hsecond⟩ := (Bool.and_eq_true _ _).mp ht
    obtain ⟨e₁, e₂, v₁, v₂, rfl, rfl, h₁, h₂⟩ := readElement_pair_iff.1 h
    obtain ⟨x, hv₁, hx⟩ := ih hfirst h₁
    obtain ⟨y, hv₂, hy⟩ := ih' hsecond h₂
    exact ⟨.list [x, y], ⟨v₁, v₂, x, y, rfl, rfl, hv₁, hv₂⟩, e₁, e₂, x, y, rfl, rfl, hx, hy⟩
  | map key value ih ih' =>
    obtain ⟨hkey, hvalue⟩ := (Bool.and_eq_true _ _).mp ht
    obtain ⟨es, mid, vs, es', rfl, rfl, hes', htidied, hlast, hsorted⟩ := exists_tidied_entries (.inl rfl)
      hkey (fun _ _ => ih (Ty.isKeyed_of_hasOrder hkey)) (fun _ _ => ih' hvalue) h
    exact ⟨.map es', ⟨vs, es', rfl, rfl, hes'⟩, es, mid, es', rfl, rfl, htidied, hlast, hsorted⟩
  | hashmap key value ih ih' =>
    obtain ⟨hkey, hvalue⟩ := (Bool.and_eq_true _ _).mp ht
    obtain ⟨es, mid, vs, es', rfl, rfl, hes', htidied, hlast, hsorted⟩ := exists_tidied_entries (.inr rfl)
      hkey (fun _ _ => ih (Ty.isKeyed_of_hasOrder hkey)) (fun _ _ => ih' hvalue) h
    exact ⟨.map es', ⟨vs, es', rfl, rfl, hes'⟩, es, mid, es', rfl, rfl, htidied, hlast,
      hsorted.imp Element.Before.ne⟩
  | _ => cases ht

/-- A type without sets and maps has as many elements as values: an element is read as a value just if the
value is written as it. Where there are sets and maps, reading succeeds just where every part is one that the
type asks for, and what is read is written as the element with its sets and maps in order. -/
theorem readElement_native (c : Setting) (s : Schema) (t : Ty) (e : Element) :
    (t.isFlat = true → ∀ v, c.readElement s e (.value t) = .ok v ↔ c.write t v = .ok (e, .empty)) ∧
    (t.isKeyed = true →
      ((∃ v, c.readElement s e (.value t) = .ok v) ↔ e.Fits t) ∧
      ∀ v, c.readElement s e (.value t) = .ok v → ∃ e', c.write t v = .ok (e', .empty) ∧ e.Tidied t e') := by
  have hwrite : t.isNative = true → ∀ v e', c.write t v = .ok (e', .empty) ↔ Value.Spelled t v e' := by
    intro ht v e'
    change c.writeOver _ v t .typed .empty = .ok (e', .empty) ↔ _
    rw [exact_writeOver ht]
    exact and_iff_left rfl
  constructor
  · intro ht v
    rw [readElement_flat_iff ht, hwrite (Ty.isNative_of_isFlat ht)]
  · intro ht
    have hnative := Ty.isNative_of_isKeyed ht
    refine ⟨exists_readElement_iff hnative, fun v h => ?_⟩
    simp only [hwrite hnative]
    exact exists_tidied_of_readElement ht h

def grades : Element :=
  .map [(.bool true, .list [.char 'c']), (.bool false, .list []),
    (.bool true, .list [.char 'b', .char 'a', .char 'b'])]

/-- The grades that come later stand for their flag, and flags and grades are put in order. -/
theorem readElement_native_grades :
    let c : Setting := ⟨[], .empty, .new 1 "plain", .new 1 true⟩
    let flag : Ty := .optional (.pair .boolean .char)
    let graded : Ty := .map .boolean (.set .char)
    flag.isFlat = true ∧ graded.isKeyed = true ∧
      c.write flag (.some (.seq [.boolean true, .char 'a'])) =
        .ok (.list [.list [.bool true, .char 'a']], .empty) ∧
      ∃ e v, c.readElement .empty grades (.value graded) = .ok v ∧ c.write graded v = .ok (e, .empty) ∧
        grades.Tidied graded e ∧
        e = .map [(.bool false, .list []), (.bool true, .list [.char 'a', .char 'b'])] := by
  intro c flag graded
  have hflag := (readElement_native c .empty flag (.list [.list [.bool true, .char 'a']])).1 rfl
  have hgraded := (readElement_native c .empty graded grades).2 rfl
  obtain ⟨e, hwrite, htidied⟩ := hgraded.2 _ rfl
  exact ⟨rfl, rfl, (hflag _).1 rfl, e, _, rfl, hwrite, htidied,
    (congrArg Prod.fst (Except.ok.inj hwrite)).symm⟩

end Setting

end DurableFlow
