import DurableFlow.Values.Decimal
import Mathlib.Data.List.TakeWhile
import Mathlib.Tactic.SplitIfs

/-!
# Decimals and their numbers

The digits of a decimal spell its number without a point. In canonical form no zero stands before them, and zero
is not negative, so that no two decimals have the same number and the same scale. A decimal that is made of
digits is in this form.
-/

namespace DurableFlow.Decimal

def IsDigits (ds : List Char) : Prop := ds ≠ [] ∧ ∀ d ∈ ds, isDigit d = true

/-- The number that digits spell after a sign. -/
def signedValue (negative : Bool) (ds : List Char) : Int :=
  if negative then -(Nat.ofDigitChars 10 ds 0 : Int) else Nat.ofDigitChars 10 ds 0

/-- The number without its point. -/
def unscaled (d : Decimal) : Int := signedValue d.negative d.digits

/-- No zero stands before the digits, and zero is not negative. -/
structure Canonical (d : Decimal) : Prop where
  isDigits : IsDigits d.digits
  eq_zero_of_head? (h : d.digits.head? = some '0') : d.digits = ['0']
  negative_eq_false (h : d.digits = ['0']) : d.negative = false

variable {ds : List Char} {n : Nat} {negative : Bool} {scale : UInt32} {d d' : Decimal}

/-! ### The digits of a number -/

theorem isDigit_iff {c : Char} : isDigit c = true ↔ 48 ≤ c.toNat ∧ c.toNat ≤ 57 := by
  rw [isDigit, Bool.and_eq_true, decide_eq_true_eq, decide_eq_true_eq]
  rfl

theorem toDigits_of_isDigit {c : Char} (h : isDigit c = true) :
    Nat.toDigits 10 (c.toNat - '0'.toNat) = [c] := by
  have hrange := isDigit_iff.1 h
  rw [show '0'.toNat = 48 from rfl, Nat.toDigits_of_lt_base (by omega)]
  refine congrArg (fun c => [c]) (Char.toNat_inj.1 ?_)
  rw [Nat.toNat_digitChar_of_lt_ten (by omega)]
  omega

theorem toDigits_ofDigitChars_of_ne_zero (hds : ∀ c ∈ ds, isDigit c = true) (hn : n ≠ 0) :
    Nat.toDigits 10 (Nat.ofDigitChars 10 ds n) = Nat.toDigits 10 n ++ ds := by
  induction ds generalizing n with
  | nil => exact (List.append_nil _).symm
  | cons c ds ih =>
    obtain ⟨hc, hds⟩ := List.forall_mem_cons.1 hds
    have hlt : c.toNat - '0'.toNat < 10 := by
      have hrange := isDigit_iff.1 hc
      rw [show '0'.toNat = 48 from rfl]
      omega
    have hstep := Nat.toDigits_append_toDigits (by decide) (Nat.pos_of_ne_zero hn) hlt
    rw [toDigits_of_isDigit hc] at hstep
    rw [Nat.ofDigitChars_cons, ih hds (by omega), ← hstep, List.append_assoc]
    rfl

/-- Digits without a zero before them are the digits of the number that they spell. -/
theorem toDigits_ofDigitChars (hds : IsDigits ds) (hhead : ds.head? ≠ some '0') :
    Nat.toDigits 10 (Nat.ofDigitChars 10 ds 0) = ds := by
  obtain ⟨hne, hall⟩ := hds
  cases ds with
  | nil => exact absurd rfl hne
  | cons c ds =>
    obtain ⟨hc, hall⟩ := List.forall_mem_cons.1 hall
    have hzero : c.toNat ≠ '0'.toNat := by
      rintro hzero
      exact hhead (congrArg some (Char.toNat_inj.1 hzero))
    have hvalue : c.toNat - '0'.toNat ≠ 0 := by
      have hrange := isDigit_iff.1 hc
      rw [show '0'.toNat = 48 from rfl] at hzero ⊢
      omega
    rw [Nat.ofDigitChars_cons, Nat.mul_zero, Nat.zero_add, toDigits_ofDigitChars_of_ne_zero hall hvalue,
      toDigits_of_isDigit hc]
    rfl

/-! ### Canonical form -/

theorem natAbs_signedValue : (signedValue negative ds).natAbs = Nat.ofDigitChars 10 ds 0 := by
  rw [signedValue]
  split_ifs <;> omega

namespace Canonical

theorem digits_eq (h : d.Canonical) : d.digits = Nat.toDigits 10 d.unscaled.natAbs := by
  rw [unscaled, natAbs_signedValue]
  by_cases hhead : d.digits.head? = some '0'
  · rw [h.eq_zero_of_head? hhead]
    rfl
  · exact (toDigits_ofDigitChars h.isDigits hhead).symm

theorem negative_eq (h : d.Canonical) : d.negative = decide (d.unscaled < 0) := by
  cases hnegative : d.negative with
  | false =>
    rw [unscaled, hnegative]
    exact (decide_eq_false (Int.not_lt.2 (Int.natCast_nonneg _))).symm
  | true =>
    have hvalue : d.unscaled = -(Nat.ofDigitChars 10 d.digits 0 : Int) := by
      rw [unscaled, hnegative]
      rfl
    have hne : d.unscaled ≠ 0 := by
      intro hzero
      have hdigits := h.digits_eq
      rw [hzero] at hdigits
      exact absurd (h.negative_eq_false hdigits) (by simp [hnegative])
    exact (decide_eq_true (by omega)).symm

/-- The number and the scale tell decimals in canonical form apart. -/
theorem eq_iff (h : d.Canonical) (h' : d'.Canonical) :
    d = d' ↔ d.unscaled = d'.unscaled ∧ d.scale = d'.scale := by
  refine ⟨fun heq => heq ▸ ⟨rfl, rfl⟩, fun ⟨hvalue, hscale⟩ => ?_⟩
  have hnegative : d.negative = d'.negative := by rw [h.negative_eq, h'.negative_eq, hvalue]
  have hdigits : d.digits = d'.digits := by rw [h.digits_eq, h'.digits_eq, hvalue]
  cases d
  cases d'
  rw [mk.injEq]
  exact ⟨hnegative, hdigits, hscale⟩

end Canonical

/-! ### Digits made canonical -/

theorem trimZeros_zero_cons (ds : List Char) : trimZeros ('0' :: ds) = trimZeros ds := rfl

theorem trimZeros_of_head? (hne : ds ≠ []) (hhead : ds.head? ≠ some '0') : trimZeros ds = ds := by
  cases ds with
  | nil => exact absurd rfl hne
  | cons c ds =>
    have hc : c ≠ '0' := fun hc => hhead (congrArg some hc)
    have hrest : (c :: ds).dropWhile (· = '0') = c :: ds := List.dropWhile_cons_of_neg (by simpa using hc)
    rw [trimZeros, hrest]
    rfl

theorem trimZeros_forms (ds : List Char) :
    trimZeros ds = ['0'] ∨ trimZeros ds ≠ [] ∧ (trimZeros ds).head? ≠ some '0' := by
  induction ds with
  | nil => exact .inl rfl
  | cons c ds ih =>
    by_cases hc : c = '0'
    · rw [hc]
      exact ih
    · have hhead : (c :: ds).head? ≠ some '0' := fun h => hc (Option.some.inj h)
      rw [trimZeros_of_head? (List.cons_ne_nil c ds) hhead]
      exact .inr ⟨List.cons_ne_nil c ds, hhead⟩

theorem forall_mem_trimZeros {P : Char → Prop} (hzero : P '0') (h : ∀ c ∈ ds, P c) :
    ∀ c ∈ trimZeros ds, P c := by
  rw [trimZeros]
  split_ifs
  · exact List.forall_mem_singleton.2 hzero
  · exact fun c hc => h c (List.dropWhile_subset _ hc)

theorem ofDigitChars_trimZeros (ds : List Char) :
    Nat.ofDigitChars 10 (trimZeros ds) 0 = Nat.ofDigitChars 10 ds 0 := by
  induction ds with
  | nil => rfl
  | cons c ds ih =>
    by_cases hc : c = '0'
    · rw [hc, trimZeros_zero_cons, ih]
      rfl
    · rw [trimZeros_of_head? (List.cons_ne_nil c ds) fun h => hc (Option.some.inj h)]

theorem ofDigits_zero_cons (negative : Bool) (ds : List Char) (scale : UInt32) :
    ofDigits negative ('0' :: ds) scale = ofDigits negative ds scale := rfl

theorem canonical_ofDigits (h : ∀ c ∈ ds, isDigit c = true) : (ofDigits negative ds scale).Canonical where
  isDigits := by
    refine ⟨?_, forall_mem_trimZeros (by decide) h⟩
    rcases trimZeros_forms ds with hzero | ⟨hne, -⟩
    · exact ne_of_eq_of_ne hzero (List.cons_ne_nil _ _)
    · exact hne
  eq_zero_of_head? hhead := (trimZeros_forms ds).resolve_right fun hform => hform.2 hhead
  negative_eq_false hzero := by
    have hdigits : trimZeros ds = ['0'] := hzero
    simp [ofDigits, hdigits]

theorem unscaled_ofDigits : (ofDigits negative ds scale).unscaled = signedValue negative ds := by
  have hvalue := ofDigitChars_trimZeros ds
  by_cases hzero : trimZeros ds = ['0']
  · have hdecimal : ofDigits negative ds scale = ⟨false, ['0'], scale⟩ := by simp [ofDigits, hzero]
    rw [hdecimal, signedValue, ← hvalue, hzero]
    cases negative <;> rfl
  · simp [unscaled, ofDigits, hzero, signedValue, hvalue]

/-- Digits that spell the same number make the same decimal. -/
theorem Canonical.ofDigits_eq (h : d.Canonical) (hds : ∀ c ∈ ds, isDigit c = true)
    (hvalue : Nat.ofDigitChars 10 ds 0 = Nat.ofDigitChars 10 d.digits 0) :
    ofDigits d.negative ds d.scale = d := by
  refine ((canonical_ofDigits hds).eq_iff h).2 ⟨?_, rfl⟩
  rw [unscaled_ofDigits, unscaled, signedValue, signedValue, hvalue]

end DurableFlow.Decimal
