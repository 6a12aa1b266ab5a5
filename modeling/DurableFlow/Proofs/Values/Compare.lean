import DurableFlow.Proofs.Values.Lawful
import DurableFlow.Proofs.Writing.Members

/-!
# The order of values

Which of two values comes first does not depend on which one is asked. Atoms are in a total order in which only
an atom and itself are equal, so that sets and maps keep every atom that is added to them.
-/

namespace DurableFlow

namespace Atom

theorem natCast_map_inj {α : Type} {f : α → Nat} (hf : ∀ x y, f x = f y → x = y) {xs ys : List α} :
    xs.map (fun x => (f x : Int)) = ys.map (fun x => (f x : Int)) ↔ xs = ys :=
  List.map_inj_right fun x y h => hf x y (Int.ofNat.inj h)

@[simp]
theorem ofText_inj {s t : String} : ofText s = ofText t ↔ s = t :=
  (natCast_map_inj fun _ _ => Char.toNat_inj.1).trans String.toList_inj

@[simp]
theorem ofBytes_inj {bs cs : Bytes} : ofBytes bs = ofBytes cs ↔ bs = cs :=
  natCast_map_inj fun _ _ => UInt8.toNat_inj.1

@[simp]
theorem ofKey_inj {role : KeyRole} {k l : Key role} : ofKey k = ofKey l ↔ k = l := by
  refine ⟨fun h => ?_, congrArg ofKey⟩
  obtain ⟨a, as⟩ := k
  obtain ⟨b, bs⟩ := l
  obtain ⟨hkind, hname, rfl⟩ : a.ctorIdx = b.ctorIdx ∧ a.name = b.name ∧ as = bs := by
    simpa [ofKey, Int.natCast_inj] using h
  have : a = b := by
    cases a with
    | other s =>
      cases b with
      | other t => exact congrArg KeyAlgorithm.other hname
      | _ => cases hkind
    | _ =>
      cases b with
      | other t => cases hkind
      | _ => first | rfl | cases hkind
  rw [this]

theorem eq_of_parts {a b : Atom} (hkind : a.ctorIdx = b.ctorIdx) (h : a.parts = b.parts) : a = b := by
  cases a <;> cases b <;> first
    | (cases hkind; done)
    | simp only [parts, List.cons.injEq, and_true, Int.natCast_inj, ofText_inj, ofBytes_inj, ofKey_inj,
        natCast_map_inj fun _ _ => Char.toNat_inj.1, natCast_map_inj fun _ _ => UInt64.toNat_inj.1,
        List.map_inj_right fun _ _ => ofText_inj.1, UInt32.toNat_inj] at h
  case privateKey | publicKey | bytes => rw [h]
  case decimal.decimal d e =>
    obtain ⟨hsign, hdigits, hscale⟩ := h
    have : d.negative = e.negative := by
      cases hd : d.negative <;> cases he : e.negative <;> simp [hd, he] at hsign ⊢
    cases d
    cases e
    simp_all
  all_goals
    rename_i a b
    cases a
    cases b
    simp_all

instance : Std.TransCmp compare := inferInstanceAs (Std.TransCmp (compareLex _ _))

instance : Std.LawfulEqCmp compare where
  compare_self := Std.ReflCmp.compare_self
  eq_of_compare h := by
    rw [compare, compareLex_eq_eq] at h
    exact eq_of_parts (Std.LawfulEqOrd.eq_of_compare h.1) (Std.LawfulEqOrd.eq_of_compare h.2)

end Atom

namespace Value

open Ordered

theorem compareAll_swap {as : List Value}
    (h : ∀ a ∈ as, ∀ b, compare a b = (compare b a).swap) (bs : List Value) :
    compareAll as bs = (compareAll bs as).swap := by
  induction as generalizing bs with
  | nil => cases bs <;> rfl
  | cons a as ih =>
    cases bs with
    | nil => rfl
    | cons b bs =>
      rw [compareAll, compareAll, h a List.mem_cons_self b,
        ih (fun a ha => h a (List.mem_cons_of_mem _ ha)), Ordering.swap_then]

theorem compareEntries_swap {as : List (Value × Value)}
    (h : ∀ a ∈ as, (∀ b, compare a.1 b = (compare b a.1).swap) ∧
      ∀ b, compare a.2 b = (compare b a.2).swap) (bs : List (Value × Value)) :
    compareEntries as bs = (compareEntries bs as).swap := by
  induction as generalizing bs with
  | nil => cases bs <;> rfl
  | cons a as ih =>
    cases bs with
    | nil => rfl
    | cons b bs =>
      obtain ⟨hk, hv⟩ := h a List.mem_cons_self
      rw [compareEntries, compareEntries, hk, hv, ih (fun a ha => h a (List.mem_cons_of_mem _ ha)),
        Ordering.swap_then, Ordering.swap_then]

/-- Which of two values comes first does not depend on which one is asked. -/
theorem compare_swap (a : Value) : ∀ b, compare a b = (compare b a).swap := by
  induction a using Value.member_induction with
  | leaf a ha =>
    intro b
    cases a with
    | seq _ | entries _ | erased _ _ _ _ => exact ha.elim
    | _ =>
      cases b <;> first
        | rfl
        | (rw [compare, compare]; exact Std.OrientedCmp.eq_swap)
  | seq as ih =>
    intro b
    cases b with
    | seq bs =>
      rw [compare, compare]
      exact compareAll_swap ih bs
    | _ => rfl
  | entries es ih =>
    intro b
    cases b with
    | entries fs =>
      rw [compare, compare]
      exact compareEntries_swap ih fs
    | _ => rfl
  | erased type name native v ih =>
    intro b
    cases b <;> rfl

instance : Std.OrientedCmp compare where
  eq_swap := compare_swap _ _

theorem lawfulOn_atom : LawfulOn compare fun v => ∃ a, v = .atom a := by
  have hatoms : LawfulOn Atom.compare fun _ => True := .of_lawful
  have hlifted : LawfulOn compare fun v => ∃ a, v = .atom a ∧ True := hatoms.comap fun _ _ => rfl
  exact hlifted.mono fun _ ⟨a, ha⟩ => ⟨a, ha, trivial⟩

/-- A set holds every atom that was added to it, once each and in order. -/
theorem increasing_ofList_atoms (as : List Atom) :
    Increasing compare (ofList compare (as.map atom)) ∧
      ∀ v, v ∈ ofList compare (as.map atom) ↔ v ∈ as.map atom :=
  lawfulOn_atom.increasing_ofList (List.forall_mem_map.2 fun a _ => ⟨a, rfl⟩)

/-- A map binds every atom that is a key as the last entry for it does. -/
theorem mem_ofEntries_atoms {es : List (Value × Value)} (hes : ∀ e ∈ es, ∃ a, e.1 = .atom a) {e : Value × Value} :
    e ∈ ofEntries compare es ↔ Last e es :=
  lawfulOn_atom.mem_ofEntries hes

end Value

end DurableFlow
