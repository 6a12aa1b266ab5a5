import DurableFlow.Proofs.RoundTrip.Builtins
import DurableFlow.Proofs.Values.BitSet

/-!
# Sets of bits as bytes

Bit `j` of byte `i` of a written set stands for the number `8 * i + j`, so bytes number the members as words
do, only in smaller portions. Zero bytes at the end say nothing, and nothing else is lost on the way between
bytes and words.
-/

namespace DurableFlow

theorem exists_trimZeros {α : Type} [OfNat α 0] [DecidableEq α] (xs : List α) :
    ∃ k, xs = trimZeros xs ++ List.replicate k 0 := by
  induction xs with
  | nil => exact ⟨0, rfl⟩
  | cons x xs ih =>
    obtain ⟨k, rest⟩ := ih
    rw [trimZeros]
    cases h : trimZeros xs with
    | nil =>
      rw [h, List.nil_append] at rest
      by_cases zero : x = 0
      · refine ⟨k + 1, ?_⟩
        rw [if_pos zero, zero, List.nil_append, List.replicate_succ, ← rest]
      · refine ⟨k, ?_⟩
        rw [if_neg zero, List.singleton_append, ← rest]
    | cons y ys =>
      rw [h] at rest
      exact ⟨k, congrArg (x :: ·) rest⟩

theorem testBit_ofLittleEndian (bs : Bytes) (n : Nat) :
    (ofLittleEndian bs).testBit n = (bs.getD (n / 8) 0).toNat.testBit (n % 8) := by
  induction bs generalizing n with
  | nil => simp [ofLittleEndian]
  | cons b bs ih =>
    have first : b.toNat < 2 ^ 8 := b.toNat_lt
    have split := Nat.testBit_two_pow_mul_add (ofLittleEndian bs) first n
    rw [Nat.add_comm, show 2 ^ 8 = 256 from rfl] at split
    rw [ofLittleEndian, split]
    by_cases low : n < 8
    · rw [if_pos low, Nat.div_eq_of_lt low, Nat.mod_eq_of_lt low, List.getD_cons_zero]
    · rw [if_neg low, ih, show n / 8 = (n - 8) / 8 + 1 by omega, List.getD_cons_succ,
        show n % 8 = (n - 8) % 8 by omega]

namespace BitSet

theorem ofLittleEndian_word (w : UInt64) : ofLittleEndian (littleEndian 8 w.toNat) = w.toNat := by
  rw [ofLittleEndian_littleEndian, Nat.one_shiftLeft]
  exact Nat.mod_eq_of_lt w.toNat_lt

theorem wordsOfBytes_cons (b : UInt8) (bs : Bytes) :
    wordsOfBytes (b :: bs) =
      UInt64.ofNat (ofLittleEndian ((b :: bs).take 8)) :: wordsOfBytes ((b :: bs).drop 8) :=
  match bs with
  | [] | [_] | [_, _] | [_, _, _] | [_, _, _, _] | [_, _, _, _, _] | [_, _, _, _, _, _] => rfl
  | _ :: _ :: _ :: _ :: _ :: _ :: _ :: _ => rfl

theorem getD_wordsOfBytes (bs : Bytes) (i : Nat) :
    (wordsOfBytes bs).getD i 0 = UInt64.ofNat (ofLittleEndian ((bs.drop (8 * i)).take 8)) := by
  induction i generalizing bs with
  | zero =>
    cases bs with
    | nil => rfl
    | cons b bs => rw [wordsOfBytes_cons]; rfl
  | succ i ih =>
    cases bs with
    | nil => simp [wordsOfBytes, ofLittleEndian]
    | cons b bs =>
      rw [wordsOfBytes_cons, List.getD_cons_succ, ih, List.drop_drop,
        Nat.mul_add_one, Nat.add_comm 8]

theorem contains_ofBytes (bs : Bytes) (n : Nat) :
    (ofBytes bs).contains n = (bs.getD (n / 8) 0).toNat.testBit (n % 8) := by
  have small : n % 64 < 64 := Nat.mod_lt n (by decide)
  rw [ofBytes, contains_ofWords, getD_wordsOfBytes, UInt64.toNat_ofNat', Nat.testBit_mod_two_pow,
    decide_eq_true small, Bool.true_and, testBit_ofLittleEndian]
  have place : 8 * (n / 64) + n % 64 / 8 = n / 8 := by omega
  have kept : n % 64 / 8 < 8 := by omega
  rw [List.getD_eq_getElem?_getD, List.getElem?_take, if_pos kept, List.getElem?_drop, place,
    ← List.getD_eq_getElem?_getD, show n % 64 % 8 = n % 8 by omega]

theorem contains_ofBytes_at (bs : Bytes) (i : Nat) {j : Nat} (h : j < 8) :
    (ofBytes bs).contains (8 * i + j) = (bs.getD i 0).toNat.testBit j := by
  rw [contains_ofBytes, show (8 * i + j) / 8 = i by omega, show (8 * i + j) % 8 = j by omega]

theorem wordsOfBytes_flatMap (ws : List UInt64) :
    wordsOfBytes (ws.flatMap fun w => littleEndian 8 w.toNat) = ws := by
  induction ws with
  | nil => rfl
  | cons w ws ih =>
    have eight : (littleEndian 8 w.toNat).length = 8 := length_littleEndian 8 w.toNat
    rw [List.flatMap_cons, littleEndian, List.cons_append, wordsOfBytes_cons, ← List.cons_append,
      ← littleEndian, List.take_left' eight, List.drop_left' eight, ih, ofLittleEndian_word,
      UInt64.ofNat_toNat]

theorem ofBytes_toBytes (s : BitSet) : ofBytes s.toBytes = s := by
  refine eq_of_contains fun n => ?_
  rw [contains_ofBytes, toBytes, getD_trimZeros, ← contains_ofBytes, ofBytes, wordsOfBytes_flatMap,
    contains_ofWords, contains]

theorem contains_eq_byte (s : BitSet) (i : Nat) {j : Nat} (h : j < 8) :
    s.contains (8 * i + j) = (s.toBytes.getD i 0).toNat.testBit j := by
  conv_lhs => rw [← ofBytes_toBytes s]
  exact contains_ofBytes_at s.toBytes i h

theorem toBytes_ofBytes (bs : Bytes) : (ofBytes bs).toBytes = trimZeros bs := by
  -- Neither side ends in zero, so the bits of each byte decide.
  refine eq_of_getD_eq (getLast?_trimZeros _) (getLast?_trimZeros bs) fun i => ?_
  rw [getD_trimZeros]
  refine UInt8.toNat_inj.1 (eq_of_testBit_lt (UInt8.toNat_lt _) (UInt8.toNat_lt _) fun j low => ?_)
  rw [← contains_eq_byte _ i low, contains_ofBytes_at bs i low]

end BitSet

namespace Setting

variable {c : Setting}

theorem writeBody_bitSet (w : Value → Writer) (s : BitSet) (items : List Writer) (schema : Schema) :
    writeBody w Builtin.bitSet.serializer (.atom (.bitSet s)) items schema =
      .ok (.binary s.toBytes, schema) := rfl

theorem readBody_bitSet (bs : Bytes) (r : Reader) :
    c.readBody Builtin.bitSet.serializer (.binary bs) r = .ok (.atom (.bitSet (BitSet.ofBytes bs))) :=
  readBody_single rfl rfl

/-- Wherever the serializer for sets of bits is used, it reads what it has written as the same set. Any
bytes are read as the set of the numbers their bits stand for, and written again they lose the zeros at
their end and nothing else. -/
theorem bitSet_roundTrips_and_reads_bits (c : Setting) (w : Value → Writer) (items : List Writer)
    (r : Reader) (schema : Schema) :
    (∀ s : BitSet, ∃ body,
      writeBody w Builtin.bitSet.serializer (.atom (.bitSet s)) items schema = .ok (body, schema) ∧
        c.readBody Builtin.bitSet.serializer body r = .ok (.atom (.bitSet s))) ∧
      ∀ bs : Bytes, ∃ s : BitSet,
        c.readBody Builtin.bitSet.serializer (.binary bs) r = .ok (.atom (.bitSet s)) ∧
          (∀ (i : Nat) (j : Fin 8), s.contains (8 * i + j) = true ↔
            ∃ b, bs[i]? = some b ∧ b.toNat.testBit j = true) ∧
          ∃ front k, bs = front ++ List.replicate k 0 ∧ front.getLast? ≠ some 0 ∧
            writeBody w Builtin.bitSet.serializer (.atom (.bitSet s)) items schema =
              .ok (.binary front, schema) := by
  refine ⟨fun s => ⟨_, writeBody_bitSet w s items schema, ?_⟩, fun bs => ?_⟩
  · rw [readBody_bitSet, BitSet.ofBytes_toBytes]
  · obtain ⟨k, tail⟩ := exists_trimZeros bs
    refine ⟨BitSet.ofBytes bs, readBody_bitSet bs r, fun i j => ?_, trimZeros bs, k, tail,
      getLast?_trimZeros bs, ?_⟩
    · rw [BitSet.contains_ofBytes_at bs i j.isLt, List.getD_eq_getElem?_getD]
      cases bs[i]? with
      | none => simp
      | some b => simp
    · rw [writeBody_bitSet, BitSet.toBytes_ofBytes]

end Setting

example : (BitSet.ofBytes [0, 0, 5, 0]).toList = [16, 18] ∧
    (BitSet.ofBytes [0, 0, 5, 0]).toBytes = [0, 0, 5] := by
  decide

end DurableFlow
