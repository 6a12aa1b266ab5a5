import DurableFlow.Bytes

/-!
# Text as bytes

`encode` writes the UTF-8 form of a text. `decode` reads bytes back and, where they are no such form,
says where the first fault is and how many bytes it spans.
-/

namespace DurableFlow.Text

/-- The first fault in a byte sequence that is not UTF-8. -/
inductive Utf8Fault where
  /-- The `length` bytes from `index` on start no character. -/
  | broken (length index : Nat)
  /-- The bytes end inside the character that starts at `index`. -/
  | cut (index : Nat)
  deriving DecidableEq

def Utf8Fault.message : Utf8Fault → String
  | broken length index => s!"invalid utf-8 sequence of {length} bytes from index {index}"
  | cut index => s!"incomplete utf-8 byte sequence from index {index}"

namespace Utf8

def encode (s : String) : Bytes := s.toList.flatMap String.utf8EncodeChar

/-- What the first byte of a character announces. -/
structure Lead where
  /-- The bits of the code point that the byte holds. -/
  payload : Nat
  /-- How many bytes follow. -/
  following : Nat
  /-- Bounds of the next byte, which rule out long forms, surrogates and code points past the last. -/
  low : UInt8
  high : UInt8

def lead (b : UInt8) : Option Lead :=
  if b < 0x80 then some ⟨b.toNat, 0, 0x80, 0xBF⟩
  else if b < 0xC2 then none
  else if b < 0xE0 then some ⟨b.toNat - 0xC0, 1, 0x80, 0xBF⟩
  else if b < 0xF0 then
    some ⟨b.toNat - 0xE0, 2, if b = 0xE0 then 0xA0 else 0x80, if b = 0xED then 0x9F else 0xBF⟩
  else if b < 0xF5 then
    some ⟨b.toNat - 0xF0, 3, if b = 0xF0 then 0x90 else 0x80, if b = 0xF4 then 0x8F else 0xBF⟩
  else none

/-- What stands at the front of a byte sequence. -/
inductive Scan where
  | char (code length : Nat) (rest : Bytes)
  | broken (length : Nat)
  | cut

/-- Reads the bytes after the first of a character of which `taken` are read and give `code`. -/
def scanRest (code taken : Nat) (low high : UInt8) : Nat → Bytes → Scan
  | 0, rest => .char code taken rest
  | _ + 1, [] => .cut
  | n + 1, b :: rest =>
    if low ≤ b ∧ b ≤ high then scanRest (64 * code + (b.toNat - 0x80)) (taken + 1) 0x80 0xBF n rest
    else .broken taken

def scan (b : UInt8) (rest : Bytes) : Scan :=
  match lead b with
  | none => .broken 1
  | some l => scanRest l.payload 1 l.low l.high l.following rest

theorem length_rest_scanRest {code taken : Nat} {low high : UInt8} {n : Nat} {bs : Bytes}
    {c k : Nat} {rest : Bytes} (h : scanRest code taken low high n bs = .char c k rest) :
    rest.length ≤ bs.length := by
  induction n generalizing code taken low high bs with
  | zero => simp only [scanRest, Scan.char.injEq] at h; simp [h.2.2]
  | succ n ih =>
    cases bs with
    | nil => simp [scanRest] at h
    | cons b bs =>
      simp only [scanRest] at h
      split at h
      · exact Nat.le_succ_of_le (ih h)
      · simp at h

theorem length_rest_scan {b : UInt8} {bs : Bytes} {c k : Nat} {rest : Bytes}
    (h : scan b bs = .char c k rest) : rest.length ≤ bs.length := by
  unfold scan at h
  split at h
  · simp at h
  · exact length_rest_scanRest h

/-- Reads the characters from `index` on and adds them to those read before. -/
def decodeFrom (index : Nat) (done : String) : Bytes → Except Utf8Fault String
  | [] => .ok done
  | b :: bs =>
    match h : scan b bs with
    | .char code length rest =>
      have := length_rest_scan h
      decodeFrom (index + length) (done.push (Char.ofNat code)) rest
    | .broken length => .error (.broken length index)
    | .cut => .error (.cut index)
  termination_by bs => bs.length

def decode (bs : Bytes) : Except Utf8Fault String := decodeFrom 0 "" bs

end Utf8

end DurableFlow.Text
