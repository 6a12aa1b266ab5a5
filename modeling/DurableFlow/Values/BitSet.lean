import DurableFlow.Bytes

/-!
# Sets of small numbers, held as bits

Bit `j` of word `i` stands for the number `64 * i + j`. The last word is never zero, so that equal sets
have equal words. On the wire a set is the bytes of its words without trailing zero bytes.
-/

namespace DurableFlow

/-- Drops zeros from the end. -/
def trimZeros {α : Type} [OfNat α 0] [DecidableEq α] : List α → List α
  | [] => []
  | x :: xs =>
    match trimZeros xs with
    | [] => if x = 0 then [] else [x]
    | y :: ys => x :: y :: ys

theorem getLast?_trimZeros {α : Type} [OfNat α 0] [DecidableEq α] (xs : List α) :
    (trimZeros xs).getLast? ≠ some 0 := by
  induction xs with
  | nil => simp [trimZeros]
  | cons x xs ih =>
    rw [trimZeros]
    split
    · split <;> simp_all
    · rename_i y ys h
      rw [h] at ih
      simpa using ih

/-- A finite set of numbers. -/
structure BitSet where
  words : List UInt64
  trimmed : words.getLast? ≠ some 0 := by simp

namespace BitSet

instance : DecidableEq BitSet := fun s t =>
  decidable_of_iff (s.words = t.words) ⟨fun h => by cases s; cases t; simp_all, fun h => by rw [h]⟩

def empty : BitSet := { words := [] }

/-- The set with these words, trailing zeros or not. -/
def ofWords (ws : List UInt64) : BitSet := ⟨trimZeros ws, getLast?_trimZeros ws⟩

def mask (bit : Nat) : UInt64 := 1 <<< UInt64.ofNat bit

theorem testBit_mask {bit : Nat} (h : bit < 64) (j : Nat) :
    (mask bit).toNat.testBit j = decide (j = bit) := by
  have place : (UInt64.ofNat bit).toNat % 64 = bit := by
    rw [UInt64.toNat_ofNat']
    omega
  have one : (mask bit).toNat = 2 ^ bit := by
    rw [mask, UInt64.toNat_shiftLeft, place, UInt64.toNat_one, Nat.one_shiftLeft]
    exact Nat.mod_eq_of_lt (Nat.pow_lt_pow_right (by decide) h)
  rw [one, Nat.testBit_two_pow]
  exact decide_eq_decide.mpr eq_comm

theorem mask_ne_zero {bit : Nat} (h : bit < 64) : mask bit ≠ 0 := by
  intro zero
  have set := testBit_mask h bit
  simp [zero] at set

/-- Sets bits in word `i`, which may lie past the end. -/
def setBits (m : UInt64) : Nat → List UInt64 → List UInt64
  | 0, [] => [m]
  | 0, w :: ws => (w ||| m) :: ws
  | i + 1, [] => 0 :: setBits m i []
  | i + 1, w :: ws => w :: setBits m i ws

theorem setBits_ne_nil (m : UInt64) (i : Nat) (ws : List UInt64) : setBits m i ws ≠ [] := by
  cases i <;> cases ws <;> simp [setBits]

/-- Setting bits leaves no zero at the end: the last word is the old one, or one with bits just set. -/
theorem getLast?_setBits {m : UInt64} (hm : m ≠ 0) (i : Nat) (ws : List UInt64)
    (h : ws.getLast? ≠ some 0) : (setBits m i ws).getLast? ≠ some 0 := by
  induction i, ws using setBits.induct with
  | case1 => simpa [setBits] using hm
  | case2 w ws =>
    cases ws with
    | nil => simp [setBits, hm]
    | cons v ws => simpa [setBits] using h
  | case3 i ih =>
    rw [setBits, List.getLast?_cons_of_ne_nil (setBits_ne_nil m i [])]
    exact ih (by simp)
  | case4 i w ws ih =>
    rw [setBits, List.getLast?_cons_of_ne_nil (setBits_ne_nil m i ws)]
    refine ih ?_
    cases ws with
    | nil => simp
    | cons v ws => simpa using h

/-- Clears bits in word `i` if there is such a word. -/
def clearBits (m : UInt64) : Nat → List UInt64 → List UInt64
  | _, [] => []
  | 0, w :: ws => (w &&& ~~~m) :: ws
  | i + 1, w :: ws => w :: clearBits m i ws

def insert (s : BitSet) (n : Nat) : BitSet where
  words := setBits (mask (n % 64)) (n / 64) s.words
  trimmed := getLast?_setBits (mask_ne_zero (Nat.mod_lt n (by decide))) _ _ s.trimmed

def remove (s : BitSet) (n : Nat) : BitSet := ofWords (clearBits (mask (n % 64)) (n / 64) s.words)

def ofList (ns : List Nat) : BitSet := ns.foldl insert empty

def contains (s : BitSet) (n : Nat) : Bool := (s.words.getD (n / 64) 0).toNat.testBit (n % 64)

/-- The places of the bits that are set in a word. -/
def bits (w : UInt64) : List Nat := (List.range 64).filter w.toNat.testBit

/-- The members in increasing order. -/
def toList (s : BitSet) : List Nat :=
  s.words.zipIdx.flatMap fun (w, i) => (bits w).map (64 * i + ·)

def size (s : BitSet) : Nat := s.words.foldr (fun w n => (bits w).length + n) 0

def isEmpty (s : BitSet) : Bool := s.words.isEmpty

/-- The bytes of the words, lowest first, without trailing zero bytes. -/
def toBytes (s : BitSet) : Bytes := trimZeros (s.words.flatMap fun w => littleEndian 8 w.toNat)

/-- The words that bytes fill, the last one perhaps in part. -/
def wordsOfBytes : Bytes → List UInt64
  | [] => []
  | a :: b :: c :: d :: e :: f :: g :: h :: rest =>
    UInt64.ofNat (ofLittleEndian [a, b, c, d, e, f, g, h]) :: wordsOfBytes rest
  | short => [UInt64.ofNat (ofLittleEndian short)]

def ofBytes (bs : Bytes) : BitSet := ofWords (wordsOfBytes bs)

end BitSet

end DurableFlow
