import DurableFlow.Proofs.Values.Numeral

/-!
# Decimals and their texts

Decimals are built from texts, with the point among the digits or with the scale beside them, and are in
canonical form. Each of the two texts of a decimal gives it back, whatever its scale, also where zeros have to
be filled in.
-/

namespace DurableFlow.Decimal

variable {ds : List Char} {n : Nat} {text : String} {scale : UInt32} {d : Decimal}

/-- There is a text that makes the decimal. -/
def Obtainable (d : Decimal) : Prop :=
  (∃ text, parse text = .ok d) ∨ ∃ text scale, ofUnscaled text scale = .ok d

theorem ofUnscaled_eq_ok_iff : ofUnscaled text scale = .ok d ↔ unscaled? text.toList scale = some d := by
  rw [ofUnscaled]
  cases unscaled? text.toList scale <;> simp

theorem Obtainable.canonical (h : d.Obtainable) : d.Canonical := by
  rcases h with ⟨text, h⟩ | ⟨text, scale, h⟩
  · exact (((parse_iff_numeral text).1 d).1 h).1
  · obtain ⟨sign, ds, negative, -, -, hds, rfl⟩ := exists_sign_of_unscaled? (ofUnscaled_eq_ok_iff.1 h)
    exact canonical_ofDigits hds.2

theorem exists_sign (d : Decimal) (ds : List Char) :
    ∃ sign, Sign sign d.negative ∧ (if d.negative then '-' :: ds else ds) = sign ++ ds := by
  cases d.negative with
  | false => exact ⟨[], .absent, rfl⟩
  | true => exact ⟨['-'], .minus, rfl⟩

/-! ### The text without a point -/

theorem ofUnscaled_unscaledText (h : d.Canonical) : ofUnscaled d.unscaledText d.scale = .ok d := by
  obtain ⟨sign, hsign, htext⟩ := d.exists_sign d.digits
  rw [ofUnscaled_eq_ok_iff, unscaledText, String.toList_ofList, htext, unscaled?_append hsign h.isDigits,
    h.ofDigits_eq h.isDigits.2 rfl]

theorem isDigits_replicate (hn : n ≠ 0) : IsDigits (.replicate n '1') := by
  refine ⟨by simpa using hn, fun c hc => ?_⟩
  rw [List.eq_of_mem_replicate hc]
  decide

theorem ofUnscaled_replicate (hn : n ≠ 0) (scale : UInt32) :
    ofUnscaled (String.ofList (.replicate n '1')) scale = .ok ⟨false, .replicate n '1', scale⟩ := by
  have hhead : (List.replicate n '1').head? ≠ some '0' := by
    rw [List.head?_replicate, if_neg hn]
    decide
  have htrim := trimZeros_of_head? (isDigits_replicate hn).1 hhead
  rw [ofUnscaled_eq_ok_iff, String.toList_ofList]
  refine (unscaled?_append .absent (isDigits_replicate hn) scale).trans ?_
  rw [ofDigits, htrim, Bool.false_and]

/-! ### The text with a point -/

theorem ofDigitChars_padded (k : Nat) (ds : List Char) :
    Nat.ofDigitChars 10 (List.replicate k '0' ++ ds) 0 = Nat.ofDigitChars 10 ds 0 := by
  rw [Nat.ofDigitChars_append, Nat.ofDigitChars_replicate_zero, Nat.mul_zero]

theorem exists_padded (ds : List Char) (scale : Nat) :
    ∃ k, (if ds.length ≤ scale then List.replicate (scale + 1 - ds.length) '0' ++ ds else ds) =
      List.replicate k '0' ++ ds ∧ scale + 1 ≤ (List.replicate k '0' ++ ds).length := by
  split_ifs with hshort
  · refine ⟨scale + 1 - ds.length, rfl, ?_⟩
    rw [List.length_append, List.length_replicate]
    omega
  · exact ⟨0, rfl, Nat.lt_of_not_le hshort⟩

theorem exists_magnitude (hds : IsDigits ds) (scale : Nat) : ∃ whole fraction,
    Magnitude (withPoint ds scale) whole fraction ∧ fraction.length = scale ∧
      Nat.ofDigitChars 10 (whole ++ fraction) 0 = Nat.ofDigitChars 10 ds 0 := by
  by_cases hscale : scale = 0
  · rw [withPoint, if_pos hscale]
    refine ⟨ds, [], .integer hds, hscale.symm, ?_⟩
    rw [List.append_nil]
  · obtain ⟨k, hpadded, hlength⟩ := exists_padded ds scale
    rw [withPoint, if_neg hscale, hpadded]
    have hall : ∀ c ∈ List.replicate k '0' ++ ds, isDigit c = true := by
      refine List.forall_mem_append.2 ⟨fun c hc => ?_, hds.2⟩
      rw [List.eq_of_mem_replicate hc]
      decide
    have hvalue := ofDigitChars_padded k ds
    generalize List.replicate k '0' ++ ds = padded at hlength hall hvalue
    have hfraction : (padded.drop (padded.length - scale)).length = scale := by
      rw [List.length_drop]
      omega
    refine ⟨_, _, magnitude_pointed ?_ (List.ne_nil_of_length_pos (by omega)), hfraction, ?_⟩
    · rw [List.take_append_drop]
      exact hall
    · rw [List.take_append_drop]
      exact hvalue

theorem parse_toString (h : d.Canonical) : parse d.toString = .ok d := by
  obtain ⟨whole, fraction, hmagnitude, hlength, hvalue⟩ := exists_magnitude h.isDigits d.scale.toNat
  obtain ⟨sign, hsign, htext⟩ := d.exists_sign (withPoint d.digits d.scale.toNat)
  have hnumeral : Numeral d.toString.toList d.negative whole fraction := by
    refine ⟨sign, _, ?_, hsign, hmagnitude⟩
    rw [Decimal.toString, String.toList_ofList]
    exact htext
  have hshort : fraction.length < UInt32.size := by
    rw [hlength]
    exact d.scale.toNat_lt_size
  rw [parse, read?_of_numeral hnumeral hshort, hlength, UInt32.ofNat_toNat,
    h.ofDigits_eq hnumeral.isDigits hvalue]

example : Decimal.toString ⟨true, ['5'], 3⟩ = "-0.005" := by decide +kernel

end DurableFlow.Decimal
