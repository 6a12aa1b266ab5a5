import DurableFlow.Wire.Fault

/-!
# Writing and reading the parts of a payload

Numbers stand lowest byte first. A text, a byte string and a list start with their length in eight bytes,
a choice starts with its tag in four. A reader takes what it needs from the front and returns the rest.
-/

namespace DurableFlow.Wire

abbrev Reader (α : Type) := Bytes → Except WireFault (α × Bytes)

def tag (n : Nat) : Bytes := littleEndian 4 n

def length (n : Nat) : Bytes := littleEndian 8 n

def text (s : String) : Bytes := length s.utf8ByteSize ++ Text.Utf8.encode s

def bool (b : Bool) : Bytes := [if b then 1 else 0]

/-- The first `k` bytes and the rest, if there are as many. -/
def splitFront? (k : Nat) (bs : Bytes) : Option (Bytes × Bytes) :=
  let front := bs.take k
  if front.length = k then some (front, bs.drop k) else none

def readBytes (k : Nat) : Reader Bytes := fun bs =>
  match splitFront? k bs with
  | some r => .ok r
  | none => .error .endOfInput

/-- A number of `k` bytes. -/
def readNumber (k : Nat) : Reader Nat := fun bs =>
  match readBytes k bs with
  | .ok (front, rest) => .ok (ofLittleEndian front, rest)
  | .error e => .error e

def readTag : Reader Nat := readNumber 4

def readLength : Reader Nat := readNumber 8

def readBool : Reader Bool
  | [] => .error .endOfInput
  | b :: rest => if b = 0 then .ok (false, rest) else if b = 1 then .ok (true, rest) else .error (.badBool b)

def readChar : Reader Char
  | [] => .error .endOfInput
  | b :: rest =>
    match Text.Utf8.scan b rest with
    | .char code _ rest => .ok (Char.ofNat code, rest)
    | _ => .error .badChar

def readText : Reader String := fun bs =>
  match readLength bs with
  | .error e => .error e
  | .ok (n, rest) =>
    match splitFront? n rest with
    | none => .error .shortText
    | some (front, rest) =>
      match Text.Utf8.decode front with
      | .ok s => .ok (s, rest)
      | .error e => .error (.badText e)

variable {α β γ : Type}

/-- Reads `n` items after those already read, which stand in reverse. -/
def readItems (read : Reader α) (done : List α) : Nat → Reader (List α)
  | 0, bs => .ok (done.reverse, bs)
  | n + 1, bs =>
    match read bs with
    | .error e => .error e
    | .ok (x, rest) => readItems read (x :: done) n rest

def readList (read : Reader α) : Reader (List α) := fun bs =>
  match readLength bs with
  | .error e => .error e
  | .ok (n, rest) => readItems read [] n rest

def readPair (first : Reader α) (second : Reader β) : Reader (α × β) := fun bs =>
  match first bs with
  | .error e => .error e
  | .ok (x, rest) =>
    match second rest with
    | .error e => .error e
    | .ok (y, rest) => .ok ((x, y), rest)

def map (f : α → γ) (read : Reader α) : Reader γ := fun bs =>
  match read bs with
  | .error e => .error e
  | .ok (x, rest) => .ok (f x, rest)

end DurableFlow.Wire
