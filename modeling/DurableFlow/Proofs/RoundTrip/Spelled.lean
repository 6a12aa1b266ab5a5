import DurableFlow.Proofs.RoundTrip.Plain
import DurableFlow.Proofs.Values.Lawful
import Mathlib.Data.List.Forall2

/-!
# The elements of simple values and collections

A value of a type built from simple types and collections is written as an element in which no descriptor
stands, and the type tells which one. No two values have the same element. The order of values is a total one
for the types that may be items of sets and keys of maps.
-/

namespace DurableFlow

open List (Forall₂)

/-! ### Lists side by side -/

section

variable {α β γ : Type} {R : α → β → Prop} {as : List α} {bs : List β}

theorem forall₂_swap : Forall₂ (fun b a => R a b) bs as ↔ Forall₂ R as bs :=
  ⟨List.Forall₂.flip, List.Forall₂.flip⟩

theorem forall_exists_of_forall₂ (h : List.Forall₂ R as bs) : ∀ a ∈ as, ∃ b, R a b := by
  induction h with
  | nil => exact List.forall_mem_nil _
  | cons hab _ ih => exact List.forall_mem_cons.2 ⟨⟨_, hab⟩, ih⟩

theorem exists_forall₂_iff : (∃ bs, Forall₂ R as bs) ↔ ∀ a ∈ as, ∃ b, R a b := by
  refine ⟨fun ⟨bs, h⟩ => forall_exists_of_forall₂ h, fun h => ?_⟩
  induction as with
  | nil => exact ⟨[], .nil⟩
  | cons a as ih =>
    obtain ⟨⟨b, hb⟩, h⟩ := List.forall_mem_cons.1 h
    obtain ⟨bs, hbs⟩ := ih h
    exact ⟨b :: bs, .cons hb hbs⟩

theorem exists_between {S : β → γ → Prop} {T : α → γ → Prop} (h : Forall₂ R as bs)
    (hR : ∀ a b, R a b → ∃ c, S b c ∧ T a c) : ∃ cs, Forall₂ S bs cs ∧ Forall₂ T as cs := by
  induction h with
  | nil => exact ⟨[], .nil, .nil⟩
  | cons hab _ ih =>
    obtain ⟨c, hS, hT⟩ := hR _ _ hab
    obtain ⟨cs, hSs, hTs⟩ := ih
    exact ⟨c :: cs, .cons hS hSs, .cons hT hTs⟩

theorem exists_of_mem_right {b : β} (h : Forall₂ R as bs) (hb : b ∈ bs) : ∃ a ∈ as, R a b := by
  induction h with
  | nil => cases hb
  | @cons a _ as _ hab _ ih =>
    rcases List.mem_cons.1 hb with rfl | hb
    · exact ⟨a, List.mem_cons_self, hab⟩
    · obtain ⟨a', ha', hab'⟩ := ih hb
      exact ⟨a', List.mem_cons_of_mem _ ha', hab'⟩

theorem pairwise_of_forall₂ {S : α → α → Prop} {T : β → β → Prop} (h : Forall₂ R as bs)
    (hT : ∀ a a' b b', R a b → R a' b' → S a a' → T b b') (has : as.Pairwise S) : bs.Pairwise T := by
  induction h with
  | nil => exact .nil
  | cons hab hbs ih =>
    obtain ⟨ha, has⟩ := List.pairwise_cons.1 has
    refine .cons (fun b' hb' => ?_) (ih has)
    obtain ⟨a', ha', hab'⟩ := exists_of_mem_right hbs hb'
    exact hT _ _ _ _ hab hab' (ha a' ha')

end

/-! ### Types of simple values and collections -/

namespace Ty

def isFlat : Ty → Bool
  | int _ | boolean | double | char | string => true
  | list item | optional item => item.isFlat
  | pair first second => first.isFlat && second.isFlat
  | _ => false

/-- Have the values of the type an order? Floating-point numbers and maps without an order have none. -/
def hasOrder : Ty → Bool
  | int _ | boolean | char | string => true
  | list item | optional item | set item => item.hasOrder
  | map key value => key.hasOrder && value.hasOrder
  | pair first second => first.hasOrder && second.hasOrder
  | _ => false

/-- Is the type built from simple types and collections, with an order for the items of sets and the keys of
maps? -/
def isKeyed : Ty → Bool
  | int _ | boolean | double | char | string => true
  | list item | optional item => item.isKeyed
  | set item => item.hasOrder
  | map key value | hashmap key value => key.hasOrder && value.isKeyed
  | pair first second => first.isKeyed && second.isKeyed
  | _ => false

variable {t : Ty}

theorem isKeyed_of_hasOrder (h : t.hasOrder = true) : t.isKeyed = true := by
  induction t with
  | int _ | boolean | char | string | set _ => exact h
  | list _ ih | optional _ ih => exact ih h
  | map key value _ ih' =>
    obtain ⟨hkey, hvalue⟩ := (Bool.and_eq_true _ _).mp h
    exact (Bool.and_eq_true _ _).mpr ⟨hkey, ih' hvalue⟩
  | pair first second ih ih' =>
    obtain ⟨hfirst, hsecond⟩ := (Bool.and_eq_true _ _).mp h
    exact (Bool.and_eq_true _ _).mpr ⟨ih hfirst, ih' hsecond⟩
  | _ => cases h

theorem isNative_of_isKeyed (h : t.isKeyed = true) : t.isNative = true := by
  induction t with
  | int _ | boolean | double | char | string => rfl
  | list _ ih | optional _ ih => exact ih h
  | set _ ih => exact ih (isKeyed_of_hasOrder h)
  | map key value ih ih' | hashmap key value ih ih' =>
    obtain ⟨hkey, hvalue⟩ := (Bool.and_eq_true _ _).mp h
    exact (Bool.and_eq_true _ _).mpr ⟨ih (isKeyed_of_hasOrder hkey), ih' hvalue⟩
  | pair first second ih ih' =>
    obtain ⟨hfirst, hsecond⟩ := (Bool.and_eq_true _ _).mp h
    exact (Bool.and_eq_true _ _).mpr ⟨ih hfirst, ih' hsecond⟩
  | _ => cases h

theorem isNative_of_isFlat (h : t.isFlat = true) : t.isNative = true := by
  induction t with
  | int _ | boolean | double | char | string => rfl
  | list _ ih | optional _ ih => exact ih h
  | pair first second ih ih' =>
    obtain ⟨hfirst, hsecond⟩ := (Bool.and_eq_true _ _).mp h
    exact (Bool.and_eq_true _ _).mpr ⟨ih hfirst, ih' hsecond⟩
  | _ => cases h

end Ty

/-- The element is what the value is written as by its type alone. -/
def Value.Spelled : Ty → Value → Element → Prop
  | .list item | .set item => fun v e =>
    ∃ vs es, v = .seq vs ∧ e = .list es ∧ List.Forall₂ (Spelled item) vs es
  | .optional item => fun v e =>
    v = .none ∧ e = .null ∨ ∃ v' e', v = .some v' ∧ e = .list [e'] ∧ Spelled item v' e'
  | .pair first second => fun v e => ∃ v₁ v₂ e₁ e₂,
    v = .seq [v₁, v₂] ∧ e = .list [e₁, e₂] ∧ Spelled first v₁ e₁ ∧ Spelled second v₂ e₂
  | .map key value | .hashmap key value => fun v e =>
    ∃ vs es, v = .entries vs ∧ e = .map es ∧
      List.Forall₂ (fun p q => Spelled key p.1 q.1 ∧ Spelled value p.2 q.2) vs es
  | t => fun v e => writeSimple t v = .ok e

/-- The entry is what the entry of a map is written as. -/
def Value.SpelledEntry (key value : Ty) (p : Value × Value) (q : Element × Element) : Prop :=
  Spelled key p.1 q.1 ∧ Spelled value p.2 q.2

namespace Value

open Relator

theorem biUnique_spelled (t : Ty) : BiUnique (Spelled t) := by
  induction t with
  | list item ih | set item ih =>
    have hitems := BiUnique.forall₂ ih
    constructor
    · rintro _ _ _ ⟨vs, es, rfl, rfl, h⟩ ⟨vs', es', rfl, he, h'⟩
      obtain rfl := Element.list.inj he
      rw [hitems.1 h h']
    · rintro _ _ _ ⟨vs, es, rfl, rfl, h⟩ ⟨vs', es', hv, rfl, h'⟩
      obtain rfl := Value.seq.inj hv
      rw [hitems.2 h h']
  | optional item ih =>
    constructor
    · rintro _ _ _ (⟨rfl, rfl⟩ | ⟨v, e, rfl, rfl, h⟩) (⟨rfl, he⟩ | ⟨v', e', rfl, he, h'⟩)
      · rfl
      · cases he
      · cases he
      · obtain rfl : e = e' := by simpa using he
        rw [ih.1 h h']
    · rintro _ _ _ (⟨rfl, rfl⟩ | ⟨v, e, rfl, rfl, h⟩) (⟨hv, rfl⟩ | ⟨v', e', hv, rfl, h'⟩)
      · rfl
      · cases hv
      · cases hv
      · obtain rfl : v = v' := by simpa [Value.some] using hv
        rw [ih.2 h h']
  | pair first second ih ih' =>
    constructor
    · rintro _ _ _ ⟨v₁, v₂, e₁, e₂, rfl, rfl, h₁, h₂⟩ ⟨v₁', v₂', e₁', e₂', rfl, he, h₁', h₂'⟩
      obtain ⟨rfl, rfl⟩ : e₁ = e₁' ∧ e₂ = e₂' := by simpa using he
      rw [ih.1 h₁ h₁', ih'.1 h₂ h₂']
    · rintro _ _ _ ⟨v₁, v₂, e₁, e₂, rfl, rfl, h₁, h₂⟩ ⟨v₁', v₂', e₁', e₂', hv, rfl, h₁', h₂'⟩
      obtain ⟨rfl, rfl⟩ : v₁ = v₁' ∧ v₂ = v₂' := by simpa using hv
      rw [ih.2 h₁ h₁', ih'.2 h₂ h₂']
  | map key value ih ih' | hashmap key value ih ih' =>
    have hentry : BiUnique (SpelledEntry key value) :=
      ⟨fun _ _ _ h h' => Prod.ext (ih.1 h.1 h'.1) (ih'.1 h.2 h'.2),
        fun _ _ _ h h' => Prod.ext (ih.2 h.1 h'.1) (ih'.2 h.2 h'.2)⟩
    have hentries := BiUnique.forall₂ hentry
    constructor
    · rintro _ _ _ ⟨vs, es, rfl, rfl, h⟩ ⟨vs', es', rfl, he, h'⟩
      obtain rfl := Element.map.inj he
      rw [hentries.1 h h']
    · rintro _ _ _ ⟨vs, es, rfl, rfl, h⟩ ⟨vs', es', hv, rfl, h'⟩
      obtain rfl := Value.entries.inj hv
      rw [hentries.2 h h']
  | _ =>
    constructor
    · intro v v' e h h'
      exact Except.ok.inj ((readSimple_of_writeSimple h).1.symm.trans (readSimple_of_writeSimple h').1)
    · intro v e e' h h'
      exact Except.ok.inj (Eq.trans (Eq.symm h) h')

end Value

namespace Writing

variable {α β : Type} {x : Writing α} {R : α → Prop}

/-- The step leaves the schema alone, and what it may give is told by the relation. -/
def Exact (x : Writing α) (R : α → Prop) : Prop := ∀ a s s', x s = .ok (a, s') ↔ R a ∧ s' = s

namespace Exact

theorem congr {S : α → Prop} (h : Exact x R) (hR : ∀ a, R a ↔ S a) : Exact x S := by
  intro a s s'
  rw [h, hR]

theorem pure (a : α) : Exact (Pure.pure a) (· = a) := by
  intro b s s'
  rw [pure_apply, Except.ok.injEq, Prod.mk.injEq, eq_comm, eq_comm (a := s)]

theorem lift (r : Except Abort α) : Exact (Writing.lift r) (r = .ok ·) := by
  intro a s s'
  cases r with
  | error e => exact iff_of_false (fun h => nomatch h) fun h => nomatch h.1
  | ok b =>
    change Except.ok (b, s) = Except.ok (a, s') ↔ _
    simp only [Except.ok.injEq, Prod.mk.injEq, eq_comm (a := s)]

theorem error {e : Abort} (hx : ∀ s, x s = .error e) (hR : ∀ a, ¬ R a) : Exact x R := by
  intro a s s'
  rw [hx]
  exact iff_of_false (fun h => nomatch h) fun h => hR a h.1

theorem bind {f : α → Writing β} {S : α → β → Prop} (h : Exact x R) (h' : ∀ a, Exact (f a) (S a)) :
    Exact (x >>= f) fun b => ∃ a, R a ∧ S a b := by
  intro b s s'
  rw [bind_eq_ok]
  constructor
  · rintro ⟨a, s₁, hx, hf⟩
    obtain ⟨hR, rfl⟩ := (h _ _ _).1 hx
    obtain ⟨hS, rfl⟩ := (h' _ _ _ _).1 hf
    exact ⟨⟨a, hR, hS⟩, rfl⟩
  · rintro ⟨⟨a, hR, hS⟩, rfl⟩
    exact ⟨a, s', (h _ _ _).2 ⟨hR, rfl⟩, (h' _ _ _ _).2 ⟨hS, rfl⟩⟩

theorem mapM {f : α → Writing β} {S : α → β → Prop} (h : ∀ a, Exact (f a) (S a)) (as : List α) :
    Exact (as.mapM f) (List.Forall₂ S as) := by
  induction as with
  | nil =>
    rw [List.mapM_nil]
    exact (pure []).congr fun bs => List.forall₂_nil_left_iff.symm
  | cons a as ih =>
    rw [List.mapM_cons]
    refine ((h a).bind fun b => ih.bind fun bs => pure (b :: bs)).congr fun bs => ?_
    rw [List.forall₂_cons_left_iff]
    simp only [exists_and_left]

end Exact

end Writing

namespace Setting

variable {c : Setting} {w : Value → Writer}

theorem exact_items {t item : Ty} (ht : t = .list item ∨ t = .set item)
    (h : ∀ v, Writing.Exact (c.writeOver w v item .typed) (Value.Spelled item v)) (v : Value) :
    Writing.Exact (c.writeOver w v t .typed) fun e =>
      ∃ vs es, v = .seq vs ∧ e = .list es ∧ List.Forall₂ (Value.Spelled item) vs es := by
  cases v with
  | seq vs =>
    rw [writeOver_items ht]
    refine ((Writing.Exact.mapM h vs).bind fun es => .pure (Element.list es)).congr fun e => ⟨?_, ?_⟩
    · rintro ⟨es, hes, rfl⟩
      exact ⟨vs, es, rfl, rfl, hes⟩
    · rintro ⟨vs', es, hv, rfl, hes⟩
      cases hv
      exact ⟨es, hes, rfl⟩
  | _ => rcases ht with rfl | rfl <;> exact .error (fun _ => rfl) (by rintro e ⟨vs, es, hv, -⟩; cases hv)

theorem exact_optional {item : Ty}
    (h : ∀ v, Writing.Exact (c.writeOver w v item .typed) (Value.Spelled item v)) (v : Value) :
    Writing.Exact (c.writeOver w v (.optional item) .typed) (Value.Spelled (.optional item) v) := by
  cases v with
  | seq vs =>
    match vs with
    | [] =>
      refine (Writing.Exact.pure Element.null).congr fun e => ⟨fun he => .inl ⟨rfl, he⟩, ?_⟩
      rintro (⟨-, rfl⟩ | ⟨v', e', hv, -⟩)
      · rfl
      · cases hv
    | [v] =>
      change Writing.Exact (c.writeOver w (.some v) (.optional item) .typed) _
      rw [writeOver_some]
      refine ((h v).bind fun e => .pure (Element.list [e])).congr fun e => ⟨?_, ?_⟩
      · rintro ⟨e', he', rfl⟩
        exact .inr ⟨v, e', rfl, rfl, he'⟩
      · rintro (⟨hv, -⟩ | ⟨v', e', hv, rfl, he'⟩)
        · cases hv
        · cases hv
          exact ⟨e', he', rfl⟩
    | _ :: _ :: _ => exact .error (fun _ => rfl) (by rintro e (⟨hv, -⟩ | ⟨v', e', hv, -⟩) <;> cases hv)
  | _ => exact .error (fun _ => rfl) (by rintro e (⟨hv, -⟩ | ⟨v', e', hv, -⟩) <;> cases hv)

theorem exact_pair {first second : Ty}
    (h : ∀ v, Writing.Exact (c.writeOver w v first .typed) (Value.Spelled first v))
    (h' : ∀ v, Writing.Exact (c.writeOver w v second .typed) (Value.Spelled second v)) (v : Value) :
    Writing.Exact (c.writeOver w v (.pair first second) .typed) (Value.Spelled (.pair first second) v) := by
  cases v with
  | seq vs =>
    match vs with
    | [v₁, v₂] =>
      rw [writeOver_pair]
      refine ((h v₁).bind fun e₁ => (h' v₂).bind fun e₂ => .pure (Element.list [e₁, e₂])).congr
        fun e => ⟨?_, ?_⟩
      · rintro ⟨e₁, he₁, e₂, he₂, rfl⟩
        exact ⟨v₁, v₂, e₁, e₂, rfl, rfl, he₁, he₂⟩
      · rintro ⟨_, _, e₁, e₂, hv, rfl, he₁, he₂⟩
        cases hv
        exact ⟨e₁, he₁, e₂, he₂, rfl⟩
    | [] | [_] | _ :: _ :: _ :: _ =>
      exact .error (fun _ => rfl) (by rintro e ⟨v₁, v₂, e₁, e₂, hv, -⟩; cases hv)
  | _ => exact .error (fun _ => rfl) (by rintro e ⟨v₁, v₂, e₁, e₂, hv, -⟩; cases hv)

theorem exact_entries {t key value : Ty} (ht : t = .map key value ∨ t = .hashmap key value)
    (h : ∀ v, Writing.Exact (c.writeOver w v key .typed) (Value.Spelled key v))
    (h' : ∀ v, Writing.Exact (c.writeOver w v value .typed) (Value.Spelled value v)) (v : Value) :
    Writing.Exact (c.writeOver w v t .typed) fun e => ∃ vs es, v = .entries vs ∧ e = .map es ∧
      List.Forall₂ (Value.SpelledEntry key value) vs es := by
  cases v with
  | entries vs =>
    have hentry : ∀ p : Value × Value, Writing.Exact
        (do return (← c.writeOver w p.1 key .typed, ← c.writeOver w p.2 value .typed))
        (Value.SpelledEntry key value p) := by
      intro p
      refine ((h p.1).bind fun e => (h' p.2).bind fun e' => .pure (e, e')).congr fun q => ⟨?_, ?_⟩
      · rintro ⟨e, he, e', he', rfl⟩
        exact ⟨he, he'⟩
      · rintro ⟨he, he'⟩
        exact ⟨q.1, he, q.2, he', rfl⟩
    rw [writeOver_map ht]
    refine ((Writing.Exact.mapM hentry vs).bind fun es => .pure (Element.map es)).congr
      fun e => ⟨?_, ?_⟩
    · rintro ⟨es, hes, rfl⟩
      exact ⟨vs, es, rfl, rfl, hes⟩
    · rintro ⟨vs', es, hv, rfl, hes⟩
      cases hv
      exact ⟨es, hes, rfl⟩
  | _ => rcases ht with rfl | rfl <;> exact .error (fun _ => rfl) (by rintro e ⟨vs, es, hv, -⟩; cases hv)

theorem exact_simple {t : Ty} (ht : t.IsSimple) (v : Value) :
    Writing.Exact (c.writeOver w v t .typed) (writeSimple t v = .ok ·) := by
  have hwrite : c.writeOver w v t .typed = Writing.lift (writeSimple t v) := by
    cases t with
    | int _ | boolean | double | char | string => cases v <;> rfl
    | _ => exact ht.elim
  rw [hwrite]
  exact .lift _

/-- A value of a type built from simple types and collections is written as the element that spells it, and
nothing is noted in the schema. -/
theorem exact_writeOver {t : Ty} (ht : t.isNative = true) (v : Value) :
    Writing.Exact (c.writeOver w v t .typed) (Value.Spelled t v) := by
  induction t generalizing v with
  | list item ih => exact exact_items (.inl rfl) (ih ht) v
  | set item ih => exact exact_items (.inr rfl) (ih ht) v
  | optional item ih => exact exact_optional (ih ht) v
  | pair first second ih ih' =>
    obtain ⟨hfirst, hsecond⟩ := (Bool.and_eq_true _ _).mp ht
    exact exact_pair (ih hfirst) (ih' hsecond) v
  | map key value ih ih' =>
    obtain ⟨hkey, hvalue⟩ := (Bool.and_eq_true _ _).mp ht
    exact exact_entries (.inl rfl) (ih hkey) (ih' hvalue) v
  | hashmap key value ih ih' =>
    obtain ⟨hkey, hvalue⟩ := (Bool.and_eq_true _ _).mp ht
    exact exact_entries (.inr rfl) (ih hkey) (ih' hvalue) v
  | builtin _ | named _ _ | any => cases ht
  | int _ | boolean | double | char | string =>
    refine exact_simple ?_ v
    exact trivial

end Setting

namespace Value

open Ordered

variable {P Q : Value → Prop}

theorem compareAll_eq (vs ws : List Value) : compareAll vs ws = List.compareLex compare vs ws := by
  induction vs generalizing ws with
  | nil => cases ws <;> rfl
  | cons v vs ih =>
    cases ws with
    | nil => rfl
    | cons w ws => rw [compareAll, List.compareLex_cons_cons, ih]

theorem compareEntries_eq (es fs : List (Value × Value)) : compareEntries es fs =
    List.compareLex (fun e f => (compare e.1 f.1).then (compare e.2 f.2)) es fs := by
  induction es generalizing fs with
  | nil => cases fs <;> rfl
  | cons e es ih =>
    cases fs with
    | nil => rfl
    | cons f fs => rw [compareEntries, List.compareLex_cons_cons, ih]

theorem lawfulOn_seq (h : LawfulOn compare P) :
    LawfulOn compare fun v => ∃ vs, v = .seq vs ∧ ∀ v ∈ vs, P v :=
  h.list.comap fun vs ws => by rw [compare, compareAll_eq]

theorem lawfulOn_entries (h : LawfulOn compare P) (h' : LawfulOn compare Q) :
    LawfulOn compare fun v => ∃ es, v = .entries es ∧ ∀ e ∈ es, P e.1 ∧ Q e.2 :=
  (h.lex h').list.comap fun es fs => by rw [compare, compareEntries_eq]

theorem lawfulOn_pair (h : LawfulOn compare P) (h' : LawfulOn compare Q) :
    LawfulOn compare fun v => ∃ p : Value × Value, v = .seq [p.1, p.2] ∧ P p.1 ∧ Q p.2 :=
  (h.lex h').comap fun p q => by
    simp only [compare, compareAll, Ordering.then_eq]

theorem lawfulOn_compare {t : Ty} (ht : t.hasOrder = true) :
    LawfulOn compare fun v => ∃ e, Spelled t v e := by
  induction t with
  | int kind =>
    have hints : LawfulOn (Ord.compare : Int → Int → Ordering) fun _ => True := .of_lawful
    refine (hints.comap fun m n => show compare (.int m) (.int n) = _ from rfl).mono fun v h => ?_
    obtain ⟨e, h⟩ := h
    cases v with
    | int n => exact ⟨n, rfl, trivial⟩
    | _ => cases h
  | boolean =>
    have hbools : LawfulOn (Ord.compare : Bool → Bool → Ordering) fun _ => True := .of_lawful
    refine (hbools.comap fun a b => show compare (.boolean a) (.boolean b) = _ from rfl).mono fun v h => ?_
    obtain ⟨e, h⟩ := h
    cases v with
    | boolean b => exact ⟨b, rfl, trivial⟩
    | _ => cases h
  | char =>
    have hchars : LawfulOn (fun a b : Char => Ord.compare a.val b.val) fun _ => True :=
      { eq_of_compare := fun _ _ h => Char.ext (Std.LawfulEqCmp.eq_of_compare h)
        lt_trans := fun _ _ _ h h' => Std.TransCmp.lt_trans h h' }
    refine (hchars.comap fun a b => show compare (.char a) (.char b) = _ from rfl).mono fun v h => ?_
    obtain ⟨e, h⟩ := h
    cases v with
    | char a => exact ⟨a, rfl, trivial⟩
    | _ => cases h
  | string =>
    have htexts : LawfulOn (Ord.compare : String → String → Ordering) fun _ => True := .of_lawful
    refine (htexts.comap fun a b => show compare (.text a) (.text b) = _ from rfl).mono fun v h => ?_
    obtain ⟨e, h⟩ := h
    cases v with
    | text a => exact ⟨a, rfl, trivial⟩
    | _ => cases h
  | list item ih | set item ih =>
    refine (lawfulOn_seq (ih ht)).mono fun v h => ?_
    obtain ⟨e, vs, es, rfl, -, h⟩ := h
    exact ⟨vs, rfl, forall_exists_of_forall₂ h⟩
  | optional item ih =>
    refine (lawfulOn_seq (ih ht)).mono fun v h => ?_
    obtain ⟨e, ⟨rfl, -⟩ | ⟨v', e', rfl, -, h⟩⟩ := h
    · exact ⟨[], rfl, List.forall_mem_nil _⟩
    · exact ⟨[v'], rfl, List.forall_mem_singleton.2 ⟨e', h⟩⟩
  | map key value ih ih' =>
    obtain ⟨hkey, hvalue⟩ := (Bool.and_eq_true _ _).mp ht
    refine (lawfulOn_entries (ih hkey) (ih' hvalue)).mono fun v h => ?_
    obtain ⟨e, vs, es, rfl, -, h⟩ := h
    refine ⟨vs, rfl, fun p hp => ?_⟩
    obtain ⟨q, hfirst, hsecond⟩ := forall_exists_of_forall₂ h p hp
    exact ⟨⟨q.1, hfirst⟩, q.2, hsecond⟩
  | pair first second ih ih' =>
    obtain ⟨hfirst, hsecond⟩ := (Bool.and_eq_true _ _).mp ht
    refine (lawfulOn_pair (ih hfirst) (ih' hsecond)).mono fun v h => ?_
    obtain ⟨e, v₁, v₂, e₁, e₂, rfl, -, h₁, h₂⟩ := h
    exact ⟨(v₁, v₂), rfl, ⟨e₁, h₁⟩, e₂, h₂⟩
  | _ => cases ht

end Value

end DurableFlow
