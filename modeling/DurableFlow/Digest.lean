import DurableFlow.Bytes

/-!
# The SHA-256 digest
-/

namespace DurableFlow.Sha256

def roundConstants : List UInt32 := [
  0x428a2f98, 0x71374491, 0xb5c0fbcf, 0xe9b5dba5, 0x3956c25b, 0x59f111f1, 0x923f82a4, 0xab1c5ed5,
  0xd807aa98, 0x12835b01, 0x243185be, 0x550c7dc3, 0x72be5d74, 0x80deb1fe, 0x9bdc06a7, 0xc19bf174,
  0xe49b69c1, 0xefbe4786, 0x0fc19dc6, 0x240ca1cc, 0x2de92c6f, 0x4a7484aa, 0x5cb0a9dc, 0x76f988da,
  0x983e5152, 0xa831c66d, 0xb00327c8, 0xbf597fc7, 0xc6e00bf3, 0xd5a79147, 0x06ca6351, 0x14292967,
  0x27b70a85, 0x2e1b2138, 0x4d2c6dfc, 0x53380d13, 0x650a7354, 0x766a0abb, 0x81c2c92e, 0x92722c85,
  0xa2bfe8a1, 0xa81a664b, 0xc24b8b70, 0xc76c51a3, 0xd192e819, 0xd6990624, 0xf40e3585, 0x106aa070,
  0x19a4c116, 0x1e376c08, 0x2748774c, 0x34b0bcb5, 0x391c0cb3, 0x4ed8aa4a, 0x5b9cca4f, 0x682e6ff3,
  0x748f82ee, 0x78a5636f, 0x84c87814, 0x8cc70208, 0x90befffa, 0xa4506ceb, 0xbef9a3f7, 0xc67178f2]

/-- The eight words that a digest is made of. -/
structure Chain where
  a : UInt32
  b : UInt32
  c : UInt32
  d : UInt32
  e : UInt32
  f : UInt32
  g : UInt32
  h : UInt32

def initial : Chain :=
  ⟨0x6a09e667, 0xbb67ae85, 0x3c6ef372, 0xa54ff53a, 0x510e527f, 0x9b05688c, 0x1f83d9ab, 0x5be0cd19⟩

def rotate (x n : UInt32) : UInt32 := (x >>> n) ||| (x <<< (32 - n))

/-- Adds a mark, zeros and the length in bits, up to a whole number of blocks of 64 bytes. -/
def pad (m : Bytes) : Bytes :=
  m ++ (0x80 : UInt8) :: List.replicate ((119 - m.length % 64) % 64) 0 ++
    (littleEndian 8 (8 * m.length)).reverse

/-- The words of a byte sequence, highest byte first. -/
def words : Bytes → List UInt32
  | a :: b :: c :: d :: rest => UInt32.ofNat (ofLittleEndian [d, c, b, a]) :: words rest
  | _ => []

def round (s : Chain) (k w : UInt32) : Chain :=
  let choice := (s.e &&& s.f) ^^^ (~~~s.e &&& s.g)
  let majority := (s.a &&& s.b) ^^^ (s.a &&& s.c) ^^^ (s.b &&& s.c)
  let x := s.h + (rotate s.e 6 ^^^ rotate s.e 11 ^^^ rotate s.e 25) + choice + k + w
  let y := (rotate s.a 2 ^^^ rotate s.a 13 ^^^ rotate s.a 22) + majority
  ⟨x + y, s.a, s.b, s.c, s.d + x, s.e, s.f, s.g⟩

/-- The word that follows sixteen others in the schedule of a block. -/
def nextWord (ws : List UInt32) : UInt32 :=
  let x := ws.getD 1 0
  let y := ws.getD 14 0
  ws.getD 0 0 + (rotate x 7 ^^^ rotate x 18 ^^^ (x >>> 3)) + ws.getD 9 0 +
    (rotate y 17 ^^^ rotate y 19 ^^^ (y >>> 10))

/-- Runs the rounds with these constants; `ws` are the next sixteen words of the schedule. -/
def rounds : List UInt32 → List UInt32 → Chain → Chain
  | [], _, s => s
  | k :: ks, ws, s => rounds ks (ws.tail ++ [nextWord ws]) (round s k (ws.headD 0))

def compress (s : Chain) (block : List UInt32) : Chain :=
  let t := rounds roundConstants block s
  ⟨s.a + t.a, s.b + t.b, s.c + t.c, s.d + t.d, s.e + t.e, s.f + t.f, s.g + t.g, s.h + t.h⟩

/-- Compresses the first `n` blocks of a padded message. -/
def blocks : Nat → Chain → Bytes → Chain
  | 0, s, _ => s
  | n + 1, s, m => blocks n (compress s (words (m.take 64))) (m.drop 64)

/-- The digest of a message, 32 bytes. -/
def digest (m : Bytes) : Bytes :=
  let padded := pad m
  let s := blocks (padded.length / 64) initial padded
  [s.a, s.b, s.c, s.d, s.e, s.f, s.g, s.h].flatMap fun w => (littleEndian 4 w.toNat).reverse

end DurableFlow.Sha256
