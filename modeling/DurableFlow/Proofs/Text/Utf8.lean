import DurableFlow.Text.Utf8
import Mathlib.Tactic.SplitIfs

/-!
# Reading UTF-8 undoes writing it

`scan` finds a character at the front of bytes exactly if its UTF-8 form stands there, so a text has one
form in bytes and `decode` accepts no other.
-/

namespace DurableFlow.Text.Utf8

theorem lead_one {b : UInt8} (h : b.toNat < 0x80) : lead b = some ⟨b.toNat, 0, 0x80, 0xBF⟩ := by
  rw [lead, if_pos (UInt8.lt_iff_toNat_lt.2 h)]

theorem lead_two {b : UInt8} (h : 0xC2 ≤ b.toNat) (h' : b.toNat < 0xE0) :
    lead b = some ⟨b.toNat - 0xC0, 1, 0x80, 0xBF⟩ := by
  have h₁ : ¬ b < 0x80 := by rw [UInt8.lt_iff_toNat_lt]; change ¬ b.toNat < 0x80; omega
  have h₂ : ¬ b < 0xC2 := by rw [UInt8.lt_iff_toNat_lt]; change ¬ b.toNat < 0xC2; omega
  rw [lead, if_neg h₁, if_neg h₂, if_pos (UInt8.lt_iff_toNat_lt.2 h')]

theorem lead_three {b : UInt8} (h : 0xE0 ≤ b.toNat) (h' : b.toNat < 0xF0) :
    lead b = some ⟨b.toNat - 0xE0, 2, if b = 0xE0 then 0xA0 else 0x80,
      if b = 0xED then 0x9F else 0xBF⟩ := by
  have h₁ : ¬ b < 0x80 := by rw [UInt8.lt_iff_toNat_lt]; change ¬ b.toNat < 0x80; omega
  have h₂ : ¬ b < 0xC2 := by rw [UInt8.lt_iff_toNat_lt]; change ¬ b.toNat < 0xC2; omega
  have h₃ : ¬ b < 0xE0 := by rw [UInt8.lt_iff_toNat_lt]; change ¬ b.toNat < 0xE0; omega
  rw [lead, if_neg h₁, if_neg h₂, if_neg h₃, if_pos (UInt8.lt_iff_toNat_lt.2 h')]

theorem lead_four {b : UInt8} (h : 0xF0 ≤ b.toNat) (h' : b.toNat < 0xF5) :
    lead b = some ⟨b.toNat - 0xF0, 3, if b = 0xF0 then 0x90 else 0x80,
      if b = 0xF4 then 0x8F else 0xBF⟩ := by
  have h₁ : ¬ b < 0x80 := by rw [UInt8.lt_iff_toNat_lt]; change ¬ b.toNat < 0x80; omega
  have h₂ : ¬ b < 0xC2 := by rw [UInt8.lt_iff_toNat_lt]; change ¬ b.toNat < 0xC2; omega
  have h₃ : ¬ b < 0xE0 := by rw [UInt8.lt_iff_toNat_lt]; change ¬ b.toNat < 0xE0; omega
  have h₄ : ¬ b < 0xF0 := by rw [UInt8.lt_iff_toNat_lt]; change ¬ b.toNat < 0xF0; omega
  rw [lead, if_neg h₁, if_neg h₂, if_neg h₃, if_neg h₄, if_pos (UInt8.lt_iff_toNat_lt.2 h')]

theorem lead_eq_some {b : UInt8} {l : Lead} (h : lead b = some l) :
    b.toNat < 0x80 ∨ (0xC2 ≤ b.toNat ∧ b.toNat < 0xE0) ∨ (0xE0 ≤ b.toNat ∧ b.toNat < 0xF0) ∨
      (0xF0 ≤ b.toNat ∧ b.toNat < 0xF5) := by
  simp only [lead, UInt8.lt_iff_toNat_lt, UInt8.reduceToNat] at h
  split_ifs at h <;> omega

theorem scanRest_succ_eq_char {code taken : Nat} {low high : UInt8} {n : Nat} {bs : Bytes}
    {c k : Nat} {rest : Bytes} :
    scanRest code taken low high (n + 1) bs = .char c k rest ↔
      ∃ b bs', bs = b :: bs' ∧ low.toNat ≤ b.toNat ∧ b.toNat ≤ high.toNat ∧
        scanRest (64 * code + (b.toNat - 0x80)) (taken + 1) 0x80 0xBF n bs' = .char c k rest := by
  cases bs with
  | nil => simp [scanRest]
  | cons b bs =>
    simp only [scanRest, UInt8.le_iff_toNat_le, List.cons.injEq]
    split_ifs with h
    · constructor
      · intro hs
        exact ⟨b, bs, ⟨rfl, rfl⟩, h.1, h.2, hs⟩
      · rintro ⟨_, _, ⟨rfl, rfl⟩, _, _, hs⟩
        exact hs
    · constructor
      · intro hs
        simp at hs
      · rintro ⟨_, _, ⟨rfl, rfl⟩, hl, hh, _⟩
        exact absurd ⟨hl, hh⟩ h

theorem scanRest_zero_eq_char {code taken : Nat} {low high : UInt8} {bs : Bytes} {c k : Nat}
    {rest : Bytes} :
    scanRest code taken low high 0 bs = .char c k rest ↔ code = c ∧ taken = k ∧ bs = rest := by
  simp [scanRest]

theorem byte_eq_ofNat {b : UInt8} {n : Nat} (h : b.toNat = n) : b = UInt8.ofNat n := by
  rw [← h, UInt8.ofNat_toNat]

theorem val_ofNat {n : Nat} (h : n.isValidChar) : (Char.ofNat n).val.toNat = n := by
  rw [Char.ofNat, dif_pos h]
  rfl

theorem toNat_bound (b d x y : UInt8) :
    (if b = d then x else y).toNat = if b.toNat = d.toNat then x.toNat else y.toNat := by
  by_cases h : b = d
  · rw [if_pos h, if_pos (congrArg UInt8.toNat h)]
  · rw [if_neg h, if_neg (fun e => h (UInt8.toNat_inj.1 e))]

theorem exists_char_of_scan {b : UInt8} {bs rest : Bytes} {n k : Nat}
    (h : scan b bs = .char n k rest) :
    n.isValidChar ∧ b :: bs = String.utf8EncodeChar (Char.ofNat n) ++ rest := by
  cases hl : lead b with
  | none => simp [scan, hl] at h
  | some l =>
    simp only [scan, hl] at h
    rcases lead_eq_some hl with hb | ⟨hb, hb'⟩ | ⟨hb, hb'⟩ | ⟨hb, hb'⟩
    · obtain rfl := Option.some.inj ((lead_one hb).symm.trans hl)
      obtain ⟨rfl, rfl, rfl⟩ := scanRest_zero_eq_char.1 h
      have hv : b.toNat.isValidChar := by omega
      refine ⟨hv, ?_⟩
      rw [String.utf8EncodeChar, val_ofNat hv, if_pos (by omega), UInt8.ofNat_toNat]
      rfl
    · obtain rfl := Option.some.inj ((lead_two hb hb').symm.trans hl)
      obtain ⟨b₁, bs, rfl, h₁, h₁', h⟩ := scanRest_succ_eq_char.1 h
      obtain ⟨rfl, rfl, rfl⟩ := scanRest_zero_eq_char.1 h
      simp only [UInt8.reduceToNat] at h₁ h₁'
      have hv : (64 * (b.toNat - 0xC0) + (b₁.toNat - 0x80)).isValidChar := by
        simp only [Nat.isValidChar]; omega
      refine ⟨hv, ?_⟩
      rw [String.utf8EncodeChar, val_ofNat hv, if_neg (by omega), if_pos (by omega),
        ← byte_eq_ofNat (b := b) (by omega), ← byte_eq_ofNat (b := b₁) (by omega)]
      rfl
    · obtain rfl := Option.some.inj ((lead_three hb hb').symm.trans hl)
      obtain ⟨b₁, bs, rfl, h₁, h₁', h⟩ := scanRest_succ_eq_char.1 h
      obtain ⟨b₂, bs, rfl, h₂, h₂', h⟩ := scanRest_succ_eq_char.1 h
      obtain ⟨rfl, rfl, rfl⟩ := scanRest_zero_eq_char.1 h
      simp only [toNat_bound, UInt8.reduceToNat] at h₁ h₁' h₂ h₂'
      have hv : (64 * (64 * (b.toNat - 0xE0) + (b₁.toNat - 0x80)) + (b₂.toNat - 0x80)).isValidChar ∧
          0x7ff < 64 * (64 * (b.toNat - 0xE0) + (b₁.toNat - 0x80)) + (b₂.toNat - 0x80) := by
        simp only [Nat.isValidChar]
        split_ifs at h₁ h₁' <;> omega
      have hlow : 0x80 ≤ b₁.toNat ∧ b₁.toNat ≤ 0xBF := by split_ifs at h₁ h₁' <;> omega
      refine ⟨hv.1, ?_⟩
      rw [String.utf8EncodeChar, val_ofNat hv.1, if_neg (by omega), if_neg (by omega),
        if_pos (by omega), ← byte_eq_ofNat (b := b) (by omega),
        ← byte_eq_ofNat (b := b₁) (by omega), ← byte_eq_ofNat (b := b₂) (by omega)]
      rfl
    · obtain rfl := Option.some.inj ((lead_four hb hb').symm.trans hl)
      obtain ⟨b₁, bs, rfl, h₁, h₁', h⟩ := scanRest_succ_eq_char.1 h
      obtain ⟨b₂, bs, rfl, h₂, h₂', h⟩ := scanRest_succ_eq_char.1 h
      obtain ⟨b₃, bs, rfl, h₃, h₃', h⟩ := scanRest_succ_eq_char.1 h
      obtain ⟨rfl, rfl, rfl⟩ := scanRest_zero_eq_char.1 h
      simp only [toNat_bound, UInt8.reduceToNat] at h₁ h₁' h₂ h₂' h₃ h₃'
      have hv : (64 * (64 * (64 * (b.toNat - 0xF0) + (b₁.toNat - 0x80)) + (b₂.toNat - 0x80)) +
            (b₃.toNat - 0x80)).isValidChar ∧
          0xffff < 64 * (64 * (64 * (b.toNat - 0xF0) + (b₁.toNat - 0x80)) + (b₂.toNat - 0x80)) +
            (b₃.toNat - 0x80) := by
        simp only [Nat.isValidChar]
        split_ifs at h₁ h₁' <;> omega
      have hlow : 0x80 ≤ b₁.toNat ∧ b₁.toNat ≤ 0xBF := by split_ifs at h₁ h₁' <;> omega
      refine ⟨hv.1, ?_⟩
      rw [String.utf8EncodeChar, val_ofNat hv.1, if_neg (by omega), if_neg (by omega),
        if_neg (by omega), ← byte_eq_ofNat (b := b) (by omega),
        ← byte_eq_ofNat (b := b₁) (by omega), ← byte_eq_ofNat (b := b₂) (by omega),
        ← byte_eq_ofNat (b := b₃) (by omega)]
      rfl

theorem toNat_valid (c : Char) :
    c.val.toNat < 0xD800 ∨ 0xDFFF < c.val.toNat ∧ c.val.toNat < 0x110000 := c.valid

theorem scan_utf8EncodeChar (c : Char) (rest : Bytes) :
    ∃ b bs k, String.utf8EncodeChar c = b :: bs ∧
      scan b (bs ++ rest) = .char c.val.toNat k rest := by
  have hc := toNat_valid c
  have size (n : Nat) (h : n < 256) : (UInt8.ofNat n).toNat = n := UInt8.toNat_ofNat_of_lt' h
  rw [String.utf8EncodeChar]
  generalize c.val.toNat = n at hc
  split_ifs with h₁ h₂ h₃
  · refine ⟨_, _, 1, rfl, ?_⟩
    have hb := size n (by omega)
    rw [scan, lead_one (by omega)]
    exact scanRest_zero_eq_char.2 ⟨hb, rfl, rfl⟩
  · refine ⟨_, _, 2, rfl, ?_⟩
    have hb := size (n / 64 % 0x20 + 0xc0) (by omega)
    have hb₁ := size (n % 0x40 + 0x80) (by omega)
    rw [scan, lead_two (by omega) (by omega)]
    refine scanRest_succ_eq_char.2 ⟨_, _, rfl, ?_, ?_, scanRest_zero_eq_char.2 ⟨?_, rfl, rfl⟩⟩
    · rw [hb₁]; exact Nat.le_add_left _ _
    · rw [hb₁]; simp only [UInt8.reduceToNat]; omega
    · rw [hb, hb₁]; dsimp only; omega
  · refine ⟨_, _, 3, rfl, ?_⟩
    have hb := size (n / 4096 % 0x10 + 0xe0) (by omega)
    have hb₁ := size (n / 64 % 0x40 + 0x80) (by omega)
    have hb₂ := size (n % 0x40 + 0x80) (by omega)
    rw [scan, lead_three (by omega) (by omega)]
    refine scanRest_succ_eq_char.2 ⟨_, _, rfl, ?_, ?_, scanRest_succ_eq_char.2
      ⟨_, _, rfl, ?_, ?_, scanRest_zero_eq_char.2 ⟨?_, rfl, rfl⟩⟩⟩
    · rw [toNat_bound, hb, hb₁]; simp only [UInt8.reduceToNat]; split_ifs <;> omega
    · rw [toNat_bound, hb, hb₁]; simp only [UInt8.reduceToNat]; split_ifs <;> omega
    · rw [hb₂]; exact Nat.le_add_left _ _
    · rw [hb₂]; simp only [UInt8.reduceToNat]; omega
    · rw [hb, hb₁, hb₂]; dsimp only; omega
  · refine ⟨_, _, 4, rfl, ?_⟩
    have hb := size (n / 262144 % 0x08 + 0xf0) (by omega)
    have hb₁ := size (n / 4096 % 0x40 + 0x80) (by omega)
    have hb₂ := size (n / 64 % 0x40 + 0x80) (by omega)
    have hb₃ := size (n % 0x40 + 0x80) (by omega)
    rw [scan, lead_four (by omega) (by omega)]
    refine scanRest_succ_eq_char.2 ⟨_, _, rfl, ?_, ?_, scanRest_succ_eq_char.2
      ⟨_, _, rfl, ?_, ?_, scanRest_succ_eq_char.2
        ⟨_, _, rfl, ?_, ?_, scanRest_zero_eq_char.2 ⟨?_, rfl, rfl⟩⟩⟩⟩
    · rw [toNat_bound, hb, hb₁]; simp only [UInt8.reduceToNat]; split_ifs <;> omega
    · rw [toNat_bound, hb, hb₁]; simp only [UInt8.reduceToNat]; split_ifs <;> omega
    · rw [hb₂]; exact Nat.le_add_left _ _
    · rw [hb₂]; simp only [UInt8.reduceToNat]; omega
    · rw [hb₃]; exact Nat.le_add_left _ _
    · rw [hb₃]; simp only [UInt8.reduceToNat]; omega
    · rw [hb, hb₁, hb₂, hb₃]; dsimp only; omega

theorem decodeFrom_cons_char {index : Nat} {done : String} {b : UInt8} {bs rest : Bytes} {n k : Nat}
    (h : scan b bs = .char n k rest) :
    decodeFrom index done (b :: bs) =
      decodeFrom (index + k) (done.push (Char.ofNat n)) rest := by
  rw [decodeFrom]
  split <;> simp_all

theorem decodeFrom_encode (index : Nat) (done : String) (cs : List Char) :
    decodeFrom index done (cs.flatMap String.utf8EncodeChar) = .ok (done ++ String.ofList cs) := by
  induction cs generalizing index done with
  | nil => simp [decodeFrom]
  | cons c cs ih =>
    obtain ⟨b, bs, k, hc, hs⟩ := scan_utf8EncodeChar c (cs.flatMap String.utf8EncodeChar)
    rw [List.flatMap_cons, hc, List.cons_append, decodeFrom_cons_char hs, ih,
      show Char.ofNat c.val.toNat = c from Char.ofNat_toNat c, String.ofList_cons,
      String.push_eq_append, String.append_assoc]

theorem decode_encode (s : String) : decode (encode s) = .ok s := by
  rw [decode, encode, decodeFrom_encode, String.ofList_toList, String.empty_append]

theorem eq_of_decodeFrom {index : Nat} {done s : String} {bs : Bytes}
    (h : decodeFrom index done bs = .ok s) :
    ∃ cs, s = done ++ String.ofList cs ∧ bs = cs.flatMap String.utf8EncodeChar := by
  induction index, done, bs using decodeFrom.induct with
  | case1 index done =>
    rw [decodeFrom, Except.ok.injEq] at h
    exact ⟨[], by simp [h], rfl⟩
  | case2 index done b bs n k rest hs hlen ih =>
    rw [decodeFrom_cons_char hs] at h
    obtain ⟨cs, rfl, rfl⟩ := ih h
    refine ⟨Char.ofNat n :: cs, ?_, ?_⟩
    · rw [String.ofList_cons, String.push_eq_append, String.append_assoc]
    · rw [List.flatMap_cons, (exists_char_of_scan hs).2]
  | case3 index done b bs k hs =>
    rw [decodeFrom] at h
    split at h <;> simp_all
  | case4 index done b bs hs =>
    rw [decodeFrom] at h
    split at h <;> simp_all

/-- Bytes are read as a text exactly if they are its form. -/
theorem decode_eq_ok_iff {bs : Bytes} {s : String} : decode bs = .ok s ↔ bs = encode s := by
  constructor
  · intro h
    obtain ⟨cs, rfl, rfl⟩ := eq_of_decodeFrom h
    rw [encode, String.empty_append, String.toList_ofList]
  · rintro rfl
    exact decode_encode s

@[simp] theorem length_encode (s : String) : (encode s).length = s.utf8ByteSize := by
  have hs : s.toByteArray = s.toList.utf8Encode := by
    rw [← String.toByteArray_ofList, String.ofList_toList]
  rw [encode, ← String.size_toByteArray, hs, List.utf8Encode, List.size_toByteArray]

end DurableFlow.Text.Utf8
