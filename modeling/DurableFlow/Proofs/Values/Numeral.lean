import DurableFlow.Proofs.Text.Utf8
import DurableFlow.Proofs.Values.Digits

/-!
# Which texts are decimals

A numeral is digits with a point among them or none, where the point has a digit after it, and at most one
sign before them. Parsing takes numerals, with the value that their digits spell, and nothing else.
-/

namespace DurableFlow.Decimal

/-- A text that may stand before a number, and whether it makes the number negative. -/
inductive Sign : List Char → Bool → Prop
  | absent : Sign [] false
  | plus : Sign ['+'] false
  | minus : Sign ['-'] true

/-- A numeral without a sign, with its digits before and after the point. -/
inductive Magnitude : List Char → List Char → List Char → Prop
  | integer {whole : List Char} (hw : IsDigits whole) : Magnitude whole whole []
  | mixed {whole fraction : List Char} (hw : IsDigits whole) (hf : IsDigits fraction) :
    Magnitude (whole ++ '.' :: fraction) whole fraction
  | fraction {fraction : List Char} (hf : IsDigits fraction) : Magnitude ('.' :: fraction) [] fraction

/-- The text is a numeral with these digits before and after the point. -/
def Numeral (text : List Char) (negative : Bool) (whole fraction : List Char) : Prop :=
  ∃ sign magnitude, text = sign ++ magnitude ∧ Sign sign negative ∧ Magnitude magnitude whole fraction

variable {cs ds sign magnitude whole fraction : List Char} {negative : Bool} {scale : UInt32} {d : Decimal}

/-! ### Digits and signs -/

theorem isSign_eq_false {c : Char} (h : isDigit c = true) : isSign c = false := by
  cases hc : isSign c with
  | false => rfl
  | true =>
    rw [isSign, Bool.or_eq_true, decide_eq_true_eq, decide_eq_true_eq] at hc
    rcases hc with rfl | rfl <;> exact absurd h (by decide)

theorem ne_point {c : Char} (h : isDigit c = true) : c ≠ '.' := by
  rintro rfl
  exact absurd h (by decide)

theorem Sign.isSign (h : Sign sign negative) : ∀ c ∈ sign, isSign c = true := by
  cases h with
  | absent => exact List.forall_mem_nil _
  | plus | minus => exact List.forall_mem_singleton.2 (by decide)

theorem Sign.ne_point (h : Sign sign negative) : ∀ c ∈ sign, c ≠ '.' := by
  cases h with
  | absent => exact List.forall_mem_nil _
  | plus | minus => exact List.forall_mem_singleton.2 (by decide)

theorem getLast?_append_ne_point (h : IsDigits ds) (cs : List Char) : (cs ++ ds).getLast? ≠ some '.' := by
  have hlast := List.getLast?_eq_some_getLast h.1
  rw [List.getLast?_append, hlast, Option.some_or]
  intro hpoint
  exact ne_point (h.2 _ (List.getLast_mem h.1)) (Option.some.inj hpoint)

theorem utf8ByteSize_ofList (h : ∀ c ∈ ds, isDigit c = true) :
    (String.ofList ds).utf8ByteSize = ds.length := by
  have hone : ∀ c ∈ ds, (String.utf8EncodeChar c).length = 1 := by
    intro c hc
    have hdigit := h c hc
    rw [isDigit, Bool.and_eq_true, decide_eq_true_eq, decide_eq_true_eq] at hdigit
    rw [String.length_utf8EncodeChar, Char.utf8Size_eq_one_iff]
    exact Nat.le_trans hdigit.2 (show '9'.toNat ≤ 127 by decide)
  rw [← Text.Utf8.length_encode, Text.Utf8.encode, String.toList_ofList, List.length_flatMap,
    List.map_congr_left hone, List.map_const', List.sum_replicate_nat, Nat.mul_one]

/-! ### Texts without a point -/

theorem splitSign_append (hs : Sign sign negative) (hds : IsDigits ds) :
    splitSign (sign ++ ds) = (negative, ds) := by
  cases hs with
  | plus | minus => rfl
  | absent =>
    rw [List.nil_append, splitSign.eq_def]
    -- Digits do not start with a sign.
    split
    · exact absurd (hds.2 '-' List.mem_cons_self) (by decide)
    · exact absurd (hds.2 '+' List.mem_cons_self) (by decide)
    · rfl

theorem exists_sign_of_splitSign (cs : List Char) :
    ∃ sign, cs = sign ++ (splitSign cs).2 ∧ Sign sign (splitSign cs).1 := by
  rw [splitSign.eq_def]
  split
  · exact ⟨['-'], rfl, .minus⟩
  · exact ⟨['+'], rfl, .plus⟩
  · exact ⟨[], rfl, .absent⟩

theorem unscaled?_eq (cs : List Char) (scale : UInt32) : unscaled? cs scale =
    if (splitSign cs).2 ≠ [] ∧ (splitSign cs).2.all isDigit then
      some (ofDigits (splitSign cs).1 (splitSign cs).2 scale)
    else none := rfl

theorem isDigits_iff : ds ≠ [] ∧ ds.all isDigit = true ↔ IsDigits ds :=
  and_congr_right fun _ => List.all_eq_true

theorem unscaled?_append (hs : Sign sign negative) (hds : IsDigits ds) (scale : UInt32) :
    unscaled? (sign ++ ds) scale = some (ofDigits negative ds scale) := by
  rw [unscaled?_eq, splitSign_append hs hds, if_pos (isDigits_iff.2 hds)]

theorem exists_sign_of_unscaled? (h : unscaled? cs scale = some d) :
    ∃ sign ds negative, cs = sign ++ ds ∧ Sign sign negative ∧ IsDigits ds ∧
      d = ofDigits negative ds scale := by
  obtain ⟨sign, hcs, hsign⟩ := exists_sign_of_splitSign cs
  rw [unscaled?_eq] at h
  split_ifs at h with hdigits
  exact ⟨sign, _, _, hcs, hsign, isDigits_iff.1 hdigits, (Option.some.inj h).symm⟩

/-- The digits without their point, where a zero stands for digits left out before it. -/
def unpointed (whole fraction : List Char) : List Char :=
  if whole.dropWhile isSign = [] then whole ++ '0' :: fraction else whole ++ fraction

theorem unscaled?_unpointed (hs : Sign sign negative) (h : IsDigits (ds ++ fraction)) (scale : UInt32) :
    unscaled? (unpointed (sign ++ ds) fraction) scale = some (ofDigits negative (ds ++ fraction) scale) := by
  obtain ⟨hne, hall⟩ := h
  rw [unpointed, List.dropWhile_append_of_pos hs.isSign]
  cases ds with
  | nil =>
    have hzero : IsDigits ('0' :: fraction) :=
      ⟨List.cons_ne_nil _ _, List.forall_mem_cons.2 ⟨by decide, hall⟩⟩
    rw [if_pos List.dropWhile_nil, List.append_nil, unscaled?_append hs hzero, ofDigits_zero_cons]
    rfl
  | cons c ds =>
    have hc : isSign c = false := isSign_eq_false (hall c List.mem_cons_self)
    have hrest : (c :: ds).dropWhile isSign ≠ [] := by
      rw [List.dropWhile_cons_of_neg (by simp [hc])]
      exact List.cons_ne_nil _ _
    rw [if_neg hrest, List.append_assoc, unscaled?_append hs ⟨hne, hall⟩]

theorem exists_sign_of_unpointed (h : unscaled? (unpointed whole fraction) scale = some d) :
    ∃ sign ds negative, whole = sign ++ ds ∧ Sign sign negative ∧
      (∀ c ∈ ds ++ fraction, isDigit c = true) ∧ d = ofDigits negative (ds ++ fraction) scale := by
  obtain ⟨sign, ds, negative, hcs, hs, ⟨-, hall⟩, rfl⟩ := exists_sign_of_unscaled? h
  rw [unpointed] at hcs
  split_ifs at hcs with hbare
  · -- The text is a row of signs, and then the zero comes right after the only one.
    have hsigns := List.dropWhile_eq_nil_iff.1 hbare
    have hone : whole = sign ∧ ds = '0' :: fraction := by
      rcases List.append_eq_append_iff.1 hcs with ⟨as, rfl, hds⟩ | ⟨bs, rfl, rfl⟩
      · cases as with
        | nil => exact ⟨(List.append_nil _).symm, hds.symm⟩
        | cons a as =>
          obtain ⟨rfl, -⟩ := List.cons.inj hds
          exact absurd (hs.isSign '0' (by simp)) (by decide)
      · cases bs with
        | nil => exact ⟨List.append_nil _, rfl⟩
        | cons b bs =>
          have hdigit := isSign_eq_false (hall b (by simp))
          rw [hsigns b (by simp)] at hdigit
          cases hdigit
    obtain ⟨rfl, rfl⟩ := hone
    exact ⟨whole, [], negative, (List.append_nil _).symm, hs, (List.forall_mem_cons.1 hall).2,
      ofDigits_zero_cons negative fraction scale⟩
  · rcases List.append_eq_append_iff.1 hcs with ⟨as, rfl, -⟩ | ⟨bs, rfl, rfl⟩
    · have hsigns := (List.forall_mem_append.1 hs.isSign).1
      exact absurd (List.dropWhile_eq_nil_iff.2 hsigns) hbare
    · exact ⟨sign, bs, negative, rfl, hs, hall, rfl⟩

/-! ### Numerals -/

theorem Magnitude.forms (h : Magnitude magnitude whole fraction) :
    IsDigits (whole ++ fraction) ∧
      (magnitude = whole ∧ fraction = [] ∨ magnitude = whole ++ '.' :: fraction ∧ IsDigits fraction) := by
  cases h with
  | integer hw =>
    rw [List.append_nil]
    exact ⟨hw, .inl ⟨rfl, rfl⟩⟩
  | mixed hw hf =>
    refine ⟨⟨List.append_ne_nil_of_left_ne_nil hw.1 _, List.forall_mem_append.2 ⟨hw.2, hf.2⟩⟩, ?_⟩
    exact .inr ⟨rfl, hf⟩
  | fraction hf => exact ⟨hf, .inr ⟨rfl, hf⟩⟩

theorem magnitude_pointed (h : ∀ c ∈ whole ++ fraction, isDigit c = true) (hne : fraction ≠ []) :
    Magnitude (whole ++ '.' :: fraction) whole fraction := by
  obtain ⟨hw, hf⟩ := List.forall_mem_append.1 h
  by_cases hempty : whole = []
  · subst hempty
    exact .fraction ⟨hne, hf⟩
  · exact .mixed ⟨hempty, hw⟩ ⟨hne, hf⟩

theorem read?_eq (hw : cs.takeWhile (· ≠ '.') = whole) (hf : (cs.dropWhile (· ≠ '.')).tail = fraction) :
    read? cs =
      if cs.getLast? = some '.' ∨ fraction.head?.any isSign ∨
          (whole.dropWhile isSign = [] ∧ fraction = []) then none
      else if UInt32.size ≤ (String.ofList fraction).utf8ByteSize then none
      else unscaled? (unpointed whole fraction) (UInt32.ofNat (String.ofList fraction).utf8ByteSize) := by
  subst hw hf
  rfl

theorem split_point (cs : List Char) :
    cs = cs.takeWhile (· ≠ '.') ∧ (cs.dropWhile (· ≠ '.')).tail = [] ∨
      cs = cs.takeWhile (· ≠ '.') ++ '.' :: (cs.dropWhile (· ≠ '.')).tail := by
  have hcs := (List.takeWhile_append_dropWhile (p := (· ≠ '.')) (l := cs)).symm
  have hhead := List.head?_dropWhile_not (· ≠ '.') cs
  cases hrest : cs.dropWhile (· ≠ '.') with
  | nil =>
    rw [hrest, List.append_nil] at hcs
    exact .inl ⟨hcs, rfl⟩
  | cons c rest =>
    rw [hrest] at hcs hhead
    obtain rfl : c = '.' := by simpa using hhead
    exact .inr hcs

theorem takeWhile_pointed (h : ∀ c ∈ whole, c ≠ '.') (fraction : List Char) :
    (whole ++ '.' :: fraction).takeWhile (· ≠ '.') = whole ∧
      ((whole ++ '.' :: fraction).dropWhile (· ≠ '.')).tail = fraction := by
  have hall : ∀ c ∈ whole, decide (c ≠ '.') = true := fun c hc => decide_eq_true (h c hc)
  constructor
  · rw [List.takeWhile_append_of_pos hall, List.takeWhile_cons_of_neg (by decide), List.append_nil]
  · rw [List.dropWhile_append_of_pos hall, List.dropWhile_cons_of_neg (by decide)]
    rfl

theorem takeWhile_integer (h : ∀ c ∈ whole, c ≠ '.') :
    whole.takeWhile (· ≠ '.') = whole ∧ (whole.dropWhile (· ≠ '.')).tail = [] := by
  have hall : ∀ c ∈ whole, decide (c ≠ '.') = true := fun c hc => decide_eq_true (h c hc)
  refine ⟨List.takeWhile_eq_self_iff.2 hall, ?_⟩
  rw [List.dropWhile_eq_nil_iff.2 hall]
  rfl

theorem numeral_of_read? (h : read? cs = some d) :
    ∃ negative whole fraction, Numeral cs negative whole fraction ∧ fraction.length < UInt32.size ∧
      d = ofDigits negative (whole ++ fraction) (UInt32.ofNat fraction.length) := by
  have hpoint := split_point cs
  rw [read?_eq rfl rfl] at h
  generalize cs.takeWhile (· ≠ '.') = whole at h hpoint
  generalize (cs.dropWhile (· ≠ '.')).tail = fraction at h hpoint
  split_ifs at h with hguard hsize
  obtain ⟨sign, ds, negative, rfl, hs, hall, rfl⟩ := exists_sign_of_unpointed h
  have hbytes := utf8ByteSize_ofList (List.forall_mem_append.1 hall).2
  rw [hbytes] at hsize ⊢
  refine ⟨negative, ds, fraction, ?_, Nat.lt_of_not_le hsize, rfl⟩
  rcases hpoint with ⟨rfl, rfl⟩ | rfl
  · rw [List.append_nil] at hall
    refine ⟨sign, ds, rfl, hs, .integer ⟨?_, hall⟩⟩
    rintro rfl
    refine hguard (.inr (.inr ⟨List.dropWhile_eq_nil_iff.2 ?_, rfl⟩))
    rw [List.append_nil]
    exact hs.isSign
  · refine ⟨sign, ds ++ '.' :: fraction, List.append_assoc _ _ _, hs, magnitude_pointed hall ?_⟩
    rintro rfl
    exact hguard (.inl (by simp))

theorem Magnitude.split (hm : Magnitude magnitude whole fraction) (hs : Sign sign negative) :
    (sign ++ magnitude).takeWhile (· ≠ '.') = sign ++ whole ∧
      ((sign ++ magnitude).dropWhile (· ≠ '.')).tail = fraction := by
  obtain ⟨⟨-, hdigits⟩, hform⟩ := hm.forms
  have hw := (List.forall_mem_append.1 hdigits).1
  have hnopoint : ∀ c ∈ sign ++ whole, c ≠ '.' :=
    List.forall_mem_append.2 ⟨hs.ne_point, fun c hc => ne_point (hw c hc)⟩
  rcases hform with ⟨rfl, rfl⟩ | ⟨rfl, -⟩
  · exact takeWhile_integer hnopoint
  · rw [← List.append_assoc]
    exact takeWhile_pointed hnopoint fraction

theorem Magnitude.getLast?_ne_point (hm : Magnitude magnitude whole fraction) (sign : List Char) :
    (sign ++ magnitude).getLast? ≠ some '.' := by
  obtain ⟨hdigits, hform⟩ := hm.forms
  rcases hform with ⟨rfl, rfl⟩ | ⟨rfl, hfraction⟩
  · rw [List.append_nil] at hdigits
    exact getLast?_append_ne_point hdigits sign
  · have hassoc : sign ++ (whole ++ '.' :: fraction) = (sign ++ whole ++ ['.']) ++ fraction := by simp
    rw [hassoc]
    exact getLast?_append_ne_point hfraction _

theorem read?_of_numeral (h : Numeral cs negative whole fraction) (hlength : fraction.length < UInt32.size) :
    read? cs = some (ofDigits negative (whole ++ fraction) (UInt32.ofNat fraction.length)) := by
  obtain ⟨sign, magnitude, rfl, hs, hm⟩ := h
  obtain ⟨hdigits, -⟩ := hm.forms
  obtain ⟨hw, hf⟩ := List.forall_mem_append.1 hdigits.2
  have hhead : fraction.head?.any isSign = false := by
    cases fraction with
    | nil => rfl
    | cons c rest => exact isSign_eq_false (hf c List.mem_cons_self)
  have hbare : ¬ ((sign ++ whole).dropWhile isSign = [] ∧ fraction = []) := by
    rintro ⟨hbare, rfl⟩
    rw [List.append_nil] at hdigits
    obtain ⟨c, hc⟩ := List.exists_mem_of_ne_nil whole hdigits.1
    have hsign := List.dropWhile_eq_nil_iff.1 hbare c (List.mem_append_right _ hc)
    rw [isSign_eq_false (hw c hc)] at hsign
    cases hsign
  have hguard : ¬ ((sign ++ magnitude).getLast? = some '.' ∨ fraction.head?.any isSign = true ∨
      (sign ++ whole).dropWhile isSign = [] ∧ fraction = []) := by
    rw [hhead]
    rintro (hlast | hsign | hempty)
    · exact hm.getLast?_ne_point sign hlast
    · cases hsign
    · exact hbare hempty
  have hsize : ¬ UInt32.size ≤ fraction.length := Nat.not_le.2 hlength
  obtain ⟨hwhole, hfraction⟩ := hm.split hs
  rw [read?_eq hwhole hfraction, if_neg hguard, utf8ByteSize_ofList hf, if_neg hsize,
    unscaled?_unpointed hs hdigits]

theorem Numeral.isDigits (h : Numeral cs negative whole fraction) :
    ∀ c ∈ whole ++ fraction, isDigit c = true := by
  obtain ⟨sign, magnitude, rfl, -, hm⟩ := h
  exact hm.forms.1.2

theorem read?_eq_some_iff : read? cs = some d ↔ d.Canonical ∧ ∃ negative whole fraction,
    Numeral cs negative whole fraction ∧ fraction.length < UInt32.size ∧
      d.unscaled = signedValue negative (whole ++ fraction) ∧ d.scale.toNat = fraction.length := by
  constructor
  · intro h
    obtain ⟨negative, whole, fraction, hnumeral, hlength, rfl⟩ := numeral_of_read? h
    refine ⟨canonical_ofDigits hnumeral.isDigits, negative, whole, fraction, hnumeral, hlength,
      unscaled_ofDigits, UInt32.toNat_ofNat_of_lt' hlength⟩
  · rintro ⟨hcanonical, negative, whole, fraction, hnumeral, hlength, hunscaled, hscale⟩
    rw [read?_of_numeral hnumeral hlength, Option.some.injEq,
      (canonical_ofDigits hnumeral.isDigits).eq_iff hcanonical, unscaled_ofDigits]
    exact ⟨hunscaled.symm, by rw [← hscale]; exact UInt32.ofNat_toNat⟩

/-- Parsing gives the value of a numeral with fewer than `2 ^ 32` digits after its point, and refuses any
other text, which the error shows as a whole. -/
theorem parse_iff_numeral (text : String) :
    (∀ d, parse text = .ok d ↔ d.Canonical ∧ ∃ negative whole fraction,
      Numeral text.toList negative whole fraction ∧ fraction.length < UInt32.size ∧
        d.unscaled = signedValue negative (whole ++ fraction) ∧ d.scale.toNat = fraction.length) ∧
    ∀ e, parse text = .error e ↔ e = .decimal text ∧ ¬ ∃ negative whole fraction,
      Numeral text.toList negative whole fraction ∧ fraction.length < UInt32.size := by
  cases hread : read? text.toList with
  | none =>
    have hparse : parse text = .error (.decimal text) := by rw [parse, hread]
    have hnone : ∀ negative whole fraction,
        ¬ (Numeral text.toList negative whole fraction ∧ fraction.length < UInt32.size) := by
      rintro negative whole fraction ⟨hnumeral, hlength⟩
      rw [read?_of_numeral hnumeral hlength] at hread
      cases hread
    rw [hparse]
    constructor
    · intro d
      refine iff_of_false (by simp) ?_
      rintro ⟨-, negative, whole, fraction, hnumeral, hlength, -⟩
      exact hnone _ _ _ ⟨hnumeral, hlength⟩
    · intro e
      rw [Except.error.injEq, eq_comm, iff_self_and]
      rintro - ⟨negative, whole, fraction, h⟩
      exact hnone _ _ _ h
  | some d' =>
    have hparse : parse text = .ok d' := by rw [parse, hread]
    rw [hparse]
    constructor
    · intro d
      rw [← read?_eq_some_iff, hread, Except.ok.injEq, Option.some.injEq]
    · intro e
      refine iff_of_false (by simp) ?_
      rintro ⟨-, hnone⟩
      obtain ⟨-, negative, whole, fraction, hnumeral, hlength, -⟩ := read?_eq_some_iff.1 hread
      exact hnone ⟨negative, whole, fraction, hnumeral, hlength⟩

example : parse "-.25" = .ok ⟨true, ['2', '5'], 2⟩ := by decide +kernel

example : parse "1.-2" = .error (.decimal "1.-2") := by decide +kernel

end DurableFlow.Decimal
