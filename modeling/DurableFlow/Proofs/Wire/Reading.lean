import DurableFlow.Proofs.Text.Utf8
import DurableFlow.Wire.Reader
import Mathlib.Tactic.SplitIfs

/-!
# What a reader makes of what was written

Two properties relate a reader and the form it is for. `ReadsBack` says what the reader makes of a form,
whatever follows it: the value, or a fault where a condition fails. `Canonical` says that it accepts
nothing but forms. Each way to put readers together keeps both.
-/

namespace DurableFlow.Wire

variable {α β γ : Type}

/-- At the form of `x` the reader gives `x` and leaves what follows, or fails unless `p`. -/
def ReadsBack (read : Reader α) (write : α → Bytes) (f : WireFault) (x : α) (p : Prop)
    [Decidable p] : Prop :=
  ∀ rest, read (write x ++ rest) = if p then .ok (x, rest) else .error f

/-- What is read stood there in its form, and has the property `p`. -/
def Canonical (read : Reader α) (write : α → Bytes) (p : α → Prop) : Prop :=
  ∀ bs x rest, read bs = .ok (x, rest) → p x ∧ bs = write x ++ rest

theorem littleEndian_ofLittleEndian (bs : Bytes) :
    littleEndian bs.length (ofLittleEndian bs) = bs := by
  induction bs with
  | nil => rfl
  | cons b bs ih =>
    have hb := UInt8.toNat_lt b
    rw [List.length_cons, littleEndian, ofLittleEndian,
      show (b.toNat + 256 * ofLittleEndian bs) / 256 = ofLittleEndian bs by omega, ih,
      List.cons.injEq]
    refine ⟨UInt8.toNat_inj.1 ?_, rfl⟩
    rw [UInt8.toNat_ofNat']
    omega

theorem ofLittleEndian_lt (bs : Bytes) : ofLittleEndian bs < 1 <<< (8 * bs.length) := by
  rw [← littleEndian_ofLittleEndian bs, ofLittleEndian_littleEndian, length_littleEndian]
  apply Nat.mod_lt
  rw [Nat.one_shiftLeft]
  exact Nat.two_pow_pos _

section Parts

theorem splitFront?_eq_some_iff {k : Nat} {bs front rest : Bytes} :
    splitFront? k bs = some (front, rest) ↔ front.length = k ∧ bs = front ++ rest := by
  simp only [splitFront?]
  constructor
  · intro h
    split_ifs at h with hk
    obtain ⟨rfl, rfl⟩ := Prod.mk.inj (Option.some.inj h)
    exact ⟨hk, (List.take_append_drop k bs).symm⟩
  · rintro ⟨rfl, rfl⟩
    rw [List.take_left, List.drop_left, if_pos rfl]

theorem readBytes_append {k : Nat} {front : Bytes} (h : front.length = k) (rest : Bytes) :
    readBytes k (front ++ rest) = .ok (front, rest) := by
  rw [readBytes, splitFront?_eq_some_iff.2 ⟨h, rfl⟩]

theorem canonical_readBytes (k : Nat) : Canonical (readBytes k) id (·.length = k) := by
  intro bs front rest h
  rw [readBytes] at h
  split at h
  case h_1 r hr =>
    rw [Except.ok.injEq] at h
    exact splitFront?_eq_some_iff.1 (h ▸ hr)
  case h_2 => simp at h

theorem readNumber_append {k n : Nat} (h : n < 1 <<< (8 * k)) (rest : Bytes) :
    readNumber k (littleEndian k n ++ rest) = .ok (n, rest) := by
  rw [readNumber, readBytes_append (length_littleEndian k n)]
  simp only [ofLittleEndian_littleEndian, Nat.mod_eq_of_lt h]

theorem canonical_readNumber (k : Nat) :
    Canonical (readNumber k) (littleEndian k) (· < 1 <<< (8 * k)) := by
  intro bs n rest h
  rw [readNumber] at h
  split at h
  case h_1 front rest' hr =>
    obtain ⟨rfl, rfl⟩ := Prod.mk.inj (Except.ok.inj h)
    obtain ⟨rfl, rfl⟩ := canonical_readBytes k _ _ _ hr
    exact ⟨ofLittleEndian_lt front, by rw [littleEndian_ofLittleEndian]; rfl⟩
  case h_2 => simp at h

@[simp] theorem readTag_append {n : Nat} (h : n < 4294967296) (rest : Bytes) :
    readTag (tag n ++ rest) = .ok (n, rest) :=
  readNumber_append h rest

theorem canonical_readTag : Canonical readTag tag (· < 4294967296) :=
  canonical_readNumber 4

/-- Lengths below this bound have a form. -/
def lengthBound : Nat := 18446744073709551616

theorem readLength_append {n : Nat} (h : n < lengthBound) (rest : Bytes) :
    readLength (length n ++ rest) = .ok (n, rest) :=
  readNumber_append h rest

theorem canonical_readLength : Canonical readLength length (· < lengthBound) :=
  canonical_readNumber 8

theorem readBool_append (b : Bool) (rest : Bytes) : readBool (bool b ++ rest) = .ok (b, rest) := by
  cases b <;> rfl

theorem canonical_readBool : Canonical readBool bool fun _ => True := by
  intro bs b rest h
  cases bs with
  | nil => simp [readBool] at h
  | cons c bs =>
    rw [readBool] at h
    split_ifs at h with h₀ h₁
    · obtain ⟨rfl, rfl⟩ := Prod.mk.inj (Except.ok.inj h)
      exact ⟨trivial, by rw [h₀]; rfl⟩
    · obtain ⟨rfl, rfl⟩ := Prod.mk.inj (Except.ok.inj h)
      exact ⟨trivial, by rw [h₁]; rfl⟩

theorem readChar_append (c : Char) (rest : Bytes) :
    readChar (String.utf8EncodeChar c ++ rest) = .ok (c, rest) := by
  obtain ⟨b, bs, k, hc, hs⟩ := Text.Utf8.scan_utf8EncodeChar c rest
  rw [hc, List.cons_append, readChar]
  simp only [hs]
  rw [show Char.ofNat c.val.toNat = c from Char.ofNat_toNat c]

theorem canonical_readChar : Canonical readChar String.utf8EncodeChar fun _ => True := by
  intro bs c rest h
  cases bs with
  | nil => simp [readChar] at h
  | cons b bs =>
    rw [readChar] at h
    split at h
    case h_1 n k rest' hs =>
      obtain ⟨rfl, rfl⟩ := Prod.mk.inj (Except.ok.inj h)
      exact ⟨trivial, (Text.Utf8.exists_char_of_scan hs).2⟩
    case h_2 => simp at h

theorem readText_append {s : String} (h : s.utf8ByteSize < lengthBound) (rest : Bytes) :
    readText (text s ++ rest) = .ok (s, rest) := by
  have hs : splitFront? s.utf8ByteSize (Text.Utf8.encode s ++ rest) =
      some (Text.Utf8.encode s, rest) :=
    splitFront?_eq_some_iff.2 ⟨Text.Utf8.length_encode s, rfl⟩
  rw [readText, text, List.append_assoc, readLength_append h]
  simp only [hs, Text.Utf8.decode_encode]

theorem canonical_readText : Canonical readText text fun s => s.utf8ByteSize < lengthBound := by
  intro bs s rest h
  rw [readText] at h
  split at h
  case h_1 => simp at h
  case h_2 n rest₁ hn =>
    obtain ⟨hlt, rfl⟩ := canonical_readLength _ _ _ hn
    split at h
    case h_1 => simp at h
    case h_2 front rest₂ hf =>
      obtain ⟨rfl, rfl⟩ := splitFront?_eq_some_iff.1 hf
      split at h
      case h_1 t ht =>
        obtain ⟨rfl, rfl⟩ := Prod.mk.inj (Except.ok.inj h)
        rw [Text.Utf8.decode_eq_ok_iff] at ht
        subst ht
        rw [Text.Utf8.length_encode] at hlt ⊢
        exact ⟨hlt, by rw [text, List.append_assoc]⟩
      case h_2 => simp at h

end Parts

section Combinations

variable {read : Reader α} {write : α → Bytes} {f : WireFault} {x : α} {p : Prop} [Decidable p]

theorem ReadsBack.of_forall (h : ∀ rest, read (write x ++ rest) = .ok (x, rest)) :
    ReadsBack read write f x True := by
  intro rest
  rw [if_pos trivial, h]

theorem ReadsBack.map (h : ReadsBack read write f x p) (g : α → γ) (rest : Bytes) :
    map g read (write x ++ rest) = if p then .ok (g x, rest) else .error f := by
  rw [Wire.map, h]
  split_ifs <;> rfl

theorem ReadsBack.pair {read' : Reader β} {write' : β → Bytes} {y : β} {q : Prop} [Decidable q]
    (hx : ReadsBack read write f x p) (hy : ReadsBack read' write' f y q) :
    ReadsBack (readPair read read') (fun z => write z.1 ++ write' z.2) f (x, y) (p ∧ q) := by
  intro rest
  rw [readPair, List.append_assoc, hx]
  by_cases hp : p
  · simp only [if_pos hp]
    rw [hy]
    by_cases hq : q
    · simp only [if_pos hq, if_pos (And.intro hp hq)]
    · simp only [if_neg hq, if_neg fun h : p ∧ q => hq h.2]
  · simp only [if_neg hp, if_neg fun h : p ∧ q => hp h.1]

theorem readItems_append {q : α → Prop} [DecidablePred q] {xs : List α}
    (h : ∀ x ∈ xs, ReadsBack read write f x (q x)) (done : List α) (rest : Bytes) :
    readItems read done xs.length (xs.flatMap write ++ rest) =
      if ∀ x ∈ xs, q x then .ok (done.reverse ++ xs, rest) else .error f := by
  induction xs generalizing done with
  | nil => simp [readItems]
  | cons x xs ih =>
    rw [List.length_cons, List.flatMap_cons, List.append_assoc, readItems, h x List.mem_cons_self]
    by_cases hq : q x
    · simp only [if_pos hq]
      rw [ih fun y hy => h y (List.mem_cons_of_mem x hy)]
      simp only [List.forall_mem_cons, hq, true_and, List.reverse_cons, List.append_assoc,
        List.singleton_append]
    · have hn : ¬ ∀ y ∈ x :: xs, q y := fun h => hq (h x List.mem_cons_self)
      simp only [if_neg hq, if_neg hn]

def listBytes (write : α → Bytes) (xs : List α) : Bytes := length xs.length ++ xs.flatMap write

theorem ReadsBack.list {q : α → Prop} [DecidablePred q] {xs : List α}
    (hn : xs.length < lengthBound) (h : ∀ x ∈ xs, ReadsBack read write f x (q x)) :
    ReadsBack (readList read) (listBytes write) f xs (∀ x ∈ xs, q x) := by
  intro rest
  rw [readList, listBytes, List.append_assoc, readLength_append hn]
  exact readItems_append h [] rest

theorem Canonical.map {q : α → Prop} (h : Canonical read write q) {g : α → γ} {bs rest : Bytes}
    {z : γ} (hz : map g read bs = .ok (z, rest)) :
    ∃ x, z = g x ∧ q x ∧ bs = write x ++ rest := by
  rw [Wire.map] at hz
  split at hz
  case h_1 => simp at hz
  case h_2 x rest' hx =>
    obtain ⟨rfl, rfl⟩ := Prod.mk.inj (Except.ok.inj hz)
    exact ⟨x, rfl, h _ _ _ hx⟩

theorem Canonical.pair {read' : Reader β} {write' : β → Bytes} {q : α → Prop} {q' : β → Prop}
    (hx : Canonical read write q) (hy : Canonical read' write' q') :
    Canonical (readPair read read') (fun z => write z.1 ++ write' z.2) fun z => q z.1 ∧ q' z.2 := by
  intro bs z rest h
  rw [readPair] at h
  split at h
  case h_1 => simp at h
  case h_2 x rest₁ h₁ =>
    obtain ⟨hq, rfl⟩ := hx _ _ _ h₁
    split at h
    case h_1 => simp at h
    case h_2 y rest₂ h₂ =>
      obtain ⟨rfl, rfl⟩ := Prod.mk.inj (Except.ok.inj h)
      obtain ⟨hq', rfl⟩ := hy _ _ _ h₂
      exact ⟨⟨hq, hq'⟩, by rw [List.append_assoc]⟩

theorem Canonical.items {q : α → Prop} (hx : Canonical read write q) {n : Nat} {done xs : List α}
    {bs rest : Bytes} (h : readItems read done n bs = .ok (xs, rest)) :
    ∃ ys, xs = done.reverse ++ ys ∧ ys.length = n ∧ (∀ y ∈ ys, q y) ∧
      bs = ys.flatMap write ++ rest := by
  induction n generalizing done bs with
  | zero =>
    obtain ⟨rfl, rfl⟩ := Prod.mk.inj (Except.ok.inj h)
    exact ⟨[], by simp⟩
  | succ n ih =>
    rw [readItems] at h
    split at h
    case h_1 => simp at h
    case h_2 x rest₁ h₁ =>
      obtain ⟨hq, rfl⟩ := hx _ _ _ h₁
      obtain ⟨ys, rfl, hn, hys, rfl⟩ := ih h
      refine ⟨x :: ys, by simp, by simp [hn], List.forall_mem_cons.2 ⟨hq, hys⟩, ?_⟩
      rw [List.flatMap_cons, List.append_assoc]

theorem Canonical.list {q : α → Prop} (hx : Canonical read write q) :
    Canonical (readList read) (listBytes write) fun xs => ∀ x ∈ xs, q x := by
  intro bs xs rest h
  rw [readList] at h
  split at h
  case h_1 => simp at h
  case h_2 n rest₁ h₁ =>
    obtain ⟨_, rfl⟩ := canonical_readLength _ _ _ h₁
    obtain ⟨ys, rfl, rfl, hq, rfl⟩ := hx.items h
    exact ⟨hq, by simp only [listBytes, List.append_assoc]⟩

end Combinations

end DurableFlow.Wire
