import DurableFlow.Values.BitSet
import Mathlib.Data.List.GetD
import Mathlib.Data.Set.Card

/-!
# The members of a set of bits

What a set holds is told by its words one bit at a time. Adding and removing a number change that one
bit, dropping zeros from the end changes none, and words that do not end in zero are told apart by their
bits. A set is therefore the same whatever was done to make it, as long as the members are the same.
-/

namespace DurableFlow

section Trimmed
variable {α : Type} [OfNat α 0] [DecidableEq α]

theorem getD_trimZeros (xs : List α) (i : Nat) : (trimZeros xs).getD i 0 = xs.getD i 0 := by
  induction xs generalizing i with
  | nil => rfl
  | cons x xs ih =>
    rw [trimZeros]
    cases h : trimZeros xs with
    | nil =>
      rw [h] at ih
      cases i with
      | zero => by_cases zero : x = 0 <;> simp [zero]
      | succ i => by_cases zero : x = 0 <;> simpa [zero] using ih i
    | cons y ys =>
      rw [h] at ih
      cases i with
      | zero => rfl
      | succ i => simpa using ih i

omit [DecidableEq α] in
theorem length_le_of_getD_eq {xs ys : List α} (hy : ys.getLast? ≠ some 0)
    (h : ∀ i, xs.getD i 0 = ys.getD i 0) : ys.length ≤ xs.length := by
  by_contra longer
  apply hy
  -- The last item of the longer list stands past the end of the other one.
  have past : xs.getD (ys.length - 1) 0 = 0 := List.getD_eq_default xs 0 (by omega)
  rw [List.getLast?_eq_getElem?, List.getElem?_eq_getElem (by omega), ← List.getD_eq_getElem ys 0,
    ← h, past]

omit [DecidableEq α] in
theorem eq_of_getD_eq {xs ys : List α} (hx : xs.getLast? ≠ some 0) (hy : ys.getLast? ≠ some 0)
    (h : ∀ i, xs.getD i 0 = ys.getD i 0) : xs = ys := by
  have same : xs.length = ys.length :=
    Nat.le_antisymm (length_le_of_getD_eq hx fun i => (h i).symm) (length_le_of_getD_eq hy h)
  refine List.ext_getElem same fun i hxs hys => ?_
  rw [← List.getD_eq_getElem xs 0, ← List.getD_eq_getElem ys 0]
  exact h i

end Trimmed

theorem eq_of_testBit_lt {k m n : Nat} (hm : m < 2 ^ k) (hn : n < 2 ^ k)
    (h : ∀ j < k, m.testBit j = n.testBit j) : m = n := by
  refine Nat.eq_of_testBit_eq fun j => ?_
  by_cases low : j < k
  · exact h j low
  · have wide : 2 ^ k ≤ 2 ^ j := Nat.pow_le_pow_right (by decide) (Nat.le_of_not_lt low)
    rw [Nat.testBit_lt_two_pow (Nat.lt_of_lt_of_le hm wide),
      Nat.testBit_lt_two_pow (Nat.lt_of_lt_of_le hn wide)]

namespace BitSet

@[simp] theorem getD_setBits (m : UInt64) (i : Nat) (ws : List UInt64) (k : Nat) :
    (setBits m i ws).getD k 0 = if k = i then ws.getD k 0 ||| m else ws.getD k 0 := by
  induction i, ws using setBits.induct generalizing k with
  | case1 => cases k <;> simp [setBits]
  | case2 w ws => cases k <;> simp [setBits]
  | case3 i ih =>
    cases k with
    | zero => simp [setBits]
    | succ k => simpa [setBits] using ih k
  | case4 i w ws ih =>
    cases k with
    | zero => simp [setBits]
    | succ k => simpa [setBits] using ih k

@[simp] theorem getD_clearBits (m : UInt64) (i : Nat) (ws : List UInt64) (k : Nat) :
    (clearBits m i ws).getD k 0 = if k = i then ws.getD k 0 &&& ~~~m else ws.getD k 0 := by
  induction i, ws using clearBits.induct generalizing k with
  | case1 i => simp [clearBits]
  | case2 w ws => cases k <;> simp [clearBits]
  | case3 i w ws ih =>
    cases k with
    | zero => simp [clearBits]
    | succ k => simpa [clearBits] using ih k

theorem testBit_complement (w : UInt64) {j : Nat} (h : j < 64) :
    (~~~w).toNat.testBit j = !w.toNat.testBit j := by
  have flipped := BitVec.getLsbD_not (x := w.toBitVec) (i := j)
  rw [← UInt64.toBitVec_not, ← BitVec.testBit_toNat, ← BitVec.testBit_toNat] at flipped
  simpa [h] using flipped

theorem contains_at (s : BitSet) (i : Nat) {j : Nat} (h : j < 64) :
    s.contains (64 * i + j) = (s.words.getD i 0).toNat.testBit j := by
  rw [contains, show (64 * i + j) / 64 = i by omega, show (64 * i + j) % 64 = j by omega]

theorem contains_ofWords (ws : List UInt64) (n : Nat) :
    (ofWords ws).contains n = (ws.getD (n / 64) 0).toNat.testBit (n % 64) := by
  rw [contains, ofWords, getD_trimZeros]

theorem testBit_mask_mod {n k : Nat} (h : k / 64 = n / 64) :
    (mask (n % 64)).toNat.testBit (k % 64) = decide (k = n) := by
  rw [testBit_mask (Nat.mod_lt n (by decide))]
  exact decide_eq_decide.mpr ⟨fun place => by omega, fun same => by rw [same]⟩

theorem contains_insert (s : BitSet) (n k : Nat) :
    (s.insert n).contains k = (decide (k = n) || s.contains k) := by
  rw [contains, insert, getD_setBits]
  -- Only the word of `n` changes, and in it only the place of `n`.
  by_cases word : k / 64 = n / 64
  · rw [if_pos word, UInt64.toNat_or, Nat.testBit_or, testBit_mask_mod word, Bool.or_comm, contains]
  · have other : k ≠ n := fun same => word (by rw [same])
    rw [if_neg word, decide_eq_false other, Bool.false_or, contains]

theorem contains_remove (s : BitSet) (n k : Nat) :
    (s.remove n).contains k = (!decide (k = n) && s.contains k) := by
  rw [remove, contains_ofWords, getD_clearBits]
  by_cases word : k / 64 = n / 64
  · rw [if_pos word, UInt64.toNat_and, Nat.testBit_and,
      testBit_complement _ (Nat.mod_lt k (by decide)), testBit_mask_mod word, Bool.and_comm, contains]
  · have other : k ≠ n := fun same => word (by rw [same])
    rw [if_neg word, decide_eq_false other, Bool.not_false, Bool.true_and, contains]

/-- Sets with the same members have the same words, since neither ends in a zero word. -/
theorem eq_of_contains {s t : BitSet} (h : ∀ n, s.contains n = t.contains n) : s = t := by
  have words : s.words = t.words := by
    refine eq_of_getD_eq s.trimmed t.trimmed fun i => UInt64.toNat_inj.1 ?_
    refine eq_of_testBit_lt (UInt64.toNat_lt _) (UInt64.toNat_lt _) fun j hj => ?_
    rw [← contains_at s i hj, ← contains_at t i hj]
    exact h _
  cases s
  cases t
  simpa using words

/-! ### The members in order -/

theorem mem_bits {w : UInt64} {j : Nat} : j ∈ bits w ↔ j < 64 ∧ w.toNat.testBit j = true := by
  rw [bits, List.mem_filter, List.mem_range]

theorem bits_ascending (w : UInt64) : (bits w).Pairwise (· < ·) :=
  List.pairwise_lt_range.filter _

theorem mem_toList {s : BitSet} {n : Nat} : n ∈ s.toList ↔ s.contains n = true := by
  simp only [toList, List.mem_flatMap, List.mem_map, Prod.exists, List.mk_mem_zipIdx_iff_getElem?, mem_bits]
  constructor
  · rintro ⟨w, i, word, j, ⟨small, set⟩, rfl⟩
    rw [contains_at s i small, List.getD_eq_getElem?_getD, word]
    exact set
  · intro set
    rw [contains, List.getD_eq_getElem?_getD] at set
    cases word : s.words[n / 64]? with
    | none => simp [word] at set
    | some w =>
      rw [word] at set
      exact ⟨w, n / 64, word, n % 64, ⟨Nat.mod_lt n (by decide), set⟩, Nat.div_add_mod n 64⟩

theorem toList_ascending (s : BitSet) : s.toList.Pairwise (· < ·) := by
  refine List.pairwise_flatMap.2 ⟨fun p _ => ?_, ?_⟩
  · exact List.pairwise_map.2 ((bits_ascending p.1).imp fun lt => by omega)
  · have places : (s.words.zipIdx.map Prod.snd).Pairwise (· < ·) := by
      rw [List.zipIdx_map_snd]
      exact List.pairwise_lt_range'
    refine (List.pairwise_map.1 places).imp fun {p q} before n hn k hk => ?_
    obtain ⟨i, hi, rfl⟩ := List.mem_map.1 hn
    obtain ⟨j, hj, rfl⟩ := List.mem_map.1 hk
    have small := (mem_bits.1 hi).1
    omega

theorem length_flatMap_zipIdx (ws : List UInt64) (k : Nat) :
    ((ws.zipIdx k).flatMap fun (w, i) => (bits w).map (64 * i + ·)).length =
      ws.foldr (fun w n => (bits w).length + n) 0 := by
  induction ws generalizing k with
  | nil => rfl
  | cons w ws ih =>
    rw [List.zipIdx_cons, List.flatMap_cons, List.length_append, List.length_map, ih, List.foldr_cons]

theorem length_toList (s : BitSet) : s.toList.length = s.size :=
  length_flatMap_zipIdx s.words 0

/-! ### Histories of additions and removals -/

/-- The numbers whose bits these words set, zeros at the end or not. -/
def wordMembers (ws : List UInt64) : Set Nat :=
  {n | ∃ w, ws[n / 64]? = some w ∧ w.toNat.testBit (n % 64) = true}

def members (s : BitSet) : Set Nat := {n | s.contains n = true}

theorem mem_members {s : BitSet} {n : Nat} : n ∈ s.members ↔ s.contains n = true := Iff.rfl

inductive Edit where
  | insert (n : Nat)
  | remove (n : Nat)

/-- What an edit does to a set of bits. -/
def Edit.apply (s : BitSet) : Edit → BitSet
  | .insert n => s.insert n
  | .remove n => s.remove n

def Edit.amend (M : Set Nat) : Edit → Set Nat
  | .insert n => M ∪ {n}
  | .remove n => M \ {n}

theorem members_ofWords (ws : List UInt64) : (ofWords ws).members = wordMembers ws := by
  ext n
  rw [mem_members, contains_ofWords, List.getD_eq_getElem?_getD]
  change _ ↔ ∃ w, ws[n / 64]? = some w ∧ w.toNat.testBit (n % 64) = true
  cases ws[n / 64]? with
  | none => simp
  | some w => simp

theorem members_apply (e : Edit) (s : BitSet) : (e.apply s).members = e.amend s.members := by
  ext k
  cases e with
  | insert n =>
    change (s.insert n).contains k = true ↔ k ∈ s.members ∪ {n}
    rw [contains_insert, Bool.or_eq_true, decide_eq_true_iff, or_comm]
    rfl
  | remove n =>
    change (s.remove n).contains k = true ↔ k ∈ s.members \ {n}
    rw [contains_remove, Bool.and_eq_true, Bool.not_eq_true', decide_eq_false_iff_not, and_comm]
    rfl

/-- What edits one after the other make of a set of bits. -/
def edited (es : List Edit) (s : BitSet) : BitSet := es.foldl Edit.apply s

def amended (es : List Edit) (M : Set Nat) : Set Nat := es.foldl Edit.amend M

theorem members_edited (es : List Edit) (s : BitSet) : (edited es s).members = amended es s.members := by
  induction es generalizing s with
  | nil => rfl
  | cons e es ih =>
    rw [edited, List.foldl_cons, ← edited, ih, members_apply]
    rfl

theorem edited_map_insert (ns : List Nat) (s : BitSet) : edited (ns.map .insert) s = ns.foldl insert s := by
  rw [edited, List.foldl_map]
  rfl

theorem amended_map_insert (ns : List Nat) (M : Set Nat) :
    amended (ns.map .insert) M = M ∪ {n | n ∈ ns} := by
  induction ns generalizing M with
  | nil => simp [amended]
  | cons n ns ih =>
    have first : ({k | k ∈ n :: ns} : Set Nat) = {n} ∪ {k | k ∈ ns} := by
      ext k
      simp
    rw [List.map_cons, amended, List.foldl_cons, ← amended, ih, first, ← Set.union_assoc]
    rfl

theorem members_ofList (ns : List Nat) : (ofList ns).members = {n | n ∈ ns} := by
  have none : empty.members = ∅ := by
    ext n
    simp [mem_members, contains, empty]
  rw [ofList, ← edited_map_insert, members_edited, amended_map_insert, none, Set.empty_union]

theorem coe_toFinset_toList (s : BitSet) : (s.toList.toFinset : Set Nat) = s.members := by
  ext n
  rw [Finset.mem_coe, List.mem_toFinset, mem_toList, mem_members]

theorem members_finite (s : BitSet) : s.members.Finite := by
  rw [← coe_toFinset_toList]
  exact Finset.finite_toSet _

theorem size_eq_ncard (s : BitSet) : s.size = s.members.ncard := by
  have distinct : s.toList.Nodup := (toList_ascending s).imp Nat.ne_of_lt
  rw [← coe_toFinset_toList, Set.ncard_coe_finset, List.toFinset_card_of_nodup distinct, length_toList]

/-- A set made from words and then changed step by step shows nothing of its history but the numbers
that are left: it holds them and lists them in order, it is as large as they are many, its last word is
no zero, and it is the one set with these members. -/
theorem canonical_after_edits (ws : List UInt64) (es : List Edit) :
    let s := edited es (ofWords ws)
    let M := amended es (wordMembers ws)
    s.words.getLast? ≠ some 0 ∧
      (∀ n, s.contains n = true ↔ n ∈ M) ∧
      (s.toList.Pairwise (· < ·) ∧ ∀ n, n ∈ s.toList ↔ n ∈ M) ∧
      (M.Finite ∧ s.size = M.ncard) ∧
      ∀ t : BitSet, s = t ↔ ∀ n, s.contains n = t.contains n := by
  intro s M
  have holds : s.members = M := by rw [members_edited, members_ofWords]
  have contains_iff (n : Nat) : s.contains n = true ↔ n ∈ M := by rw [← holds, mem_members]
  refine ⟨s.trimmed, contains_iff, ⟨toList_ascending s, fun n => ?_⟩, ?_, fun t => ?_⟩
  · rw [mem_toList, contains_iff]
  · rw [← holds]
    exact ⟨members_finite s, size_eq_ncard s⟩
  · exact ⟨fun same n => by rw [same], eq_of_contains⟩

example : (edited [.insert 130, .remove 0, .insert 3, .remove 130] (ofWords [5, 0, 0])).toList = [2, 3] := by
  decide

end BitSet

end DurableFlow
