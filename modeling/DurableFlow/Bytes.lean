/-!
# Bytes, words and hexadecimal text

A word of `k` bytes is a number of at most `8 * k` bits, lowest byte first.
-/

namespace DurableFlow

abbrev Bytes := List UInt8

/-- The lowest `k` bytes of a number, lowest first. -/
def littleEndian : Nat → Nat → Bytes
  | 0, _ => []
  | k + 1, n => UInt8.ofNat n :: littleEndian k (n / 256)

/-- The number whose bytes these are, lowest first. -/
def ofLittleEndian : Bytes → Nat
  | [] => 0
  | b :: bs => b.toNat + 256 * ofLittleEndian bs

@[simp] theorem length_littleEndian (k n : Nat) : (littleEndian k n).length = k := by
  induction k generalizing n with
  | zero => rfl
  | succ k ih => simp [littleEndian, ih]

theorem ofLittleEndian_littleEndian (k n : Nat) :
    ofLittleEndian (littleEndian k n) = n % (1 <<< (8 * k)) := by
  induction k generalizing n with
  | zero => simp [littleEndian, ofLittleEndian, Nat.mod_one]
  | succ k ih =>
    have step : 1 <<< (8 * (k + 1)) = 256 * (1 <<< (8 * k)) := by
      rw [Nat.shiftLeft_eq, Nat.shiftLeft_eq, show 8 * (k + 1) = 8 + 8 * k by omega, Nat.pow_add]
      omega
    simp only [littleEndian, ofLittleEndian, ih, UInt8.toNat_ofNat', Nat.reducePow]
    rw [step, Nat.mod_mul]

/-- The form that tells no more of bytes than their number. -/
def describeBytes (bs : Bytes) : String := s!"OpaqueBytes({bs.length} bytes)"

namespace Hex

/-- The digit of a number below 16, with the letter `a` for ten and so on. -/
def digit (a : Char) (n : Nat) : Char :=
  Char.ofNat (if n < 10 then '0'.toNat + n else a.toNat + (n - 10))

def pair (a : Char) (b : UInt8) : List Char := [digit a (b.toNat / 16), digit a (b.toNat % 16)]

/-- Two lower-case digits for each byte. -/
def lower (bs : Bytes) : String := String.ofList (bs.flatMap (pair 'a'))

/-- Two upper-case digits for each byte. -/
def upper (bs : Bytes) : String := String.ofList (bs.flatMap (pair 'A'))

def value? (c : Char) : Option Nat :=
  if '0' ≤ c ∧ c ≤ '9' then some (c.toNat - '0'.toNat)
  else if 'a' ≤ c ∧ c ≤ 'f' then some (c.toNat - 'a'.toNat + 10)
  else if 'A' ≤ c ∧ c ≤ 'F' then some (c.toNat - 'A'.toNat + 10)
  else none

/-- The bytes that `digits` spell after those already read, which stand in reverse. -/
def parseFrom (done : Bytes) : List Char → Option Bytes
  | [] => some done.reverse
  | [_] => none
  | h :: l :: rest =>
    match value? h, value? l with
    | some h, some l => parseFrom (UInt8.ofNat (16 * h + l) :: done) rest
    | _, _ => none

/-- The bytes a text of hexadecimal digits spells, in either case. -/
def parse? (s : String) : Option Bytes := parseFrom [] s.toList

end Hex

end DurableFlow
