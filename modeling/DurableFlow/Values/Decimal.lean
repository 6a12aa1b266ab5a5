import DurableFlow.Values.Invalid

/-!
# Decimal numbers

A decimal is an integer and the number of its digits that stand after the point, so that `1.0` and `1.00`
are different values. `parse` reads an optional sign, digits and an optional fraction; `toString` writes
the form that reads back as the same value.
-/

namespace DurableFlow

structure Decimal where
  negative : Bool
  /-- The digits of the number without its point, without zeros before them. -/
  digits : List Char
  /-- How many digits stand after the point. -/
  scale : UInt32
  deriving DecidableEq

namespace Decimal

def zero : Decimal := ⟨false, ['0'], 0⟩

def isDigit (c : Char) : Bool := '0' ≤ c && c ≤ '9'

/-- The number that a list of digits spells. -/
def digitsValue (ds : List Char) : Nat := ds.foldl (fun n d => 10 * n + (d.toNat - '0'.toNat)) 0

/-- One or more digits. -/
def natural? (ds : List Char) : Option Nat :=
  if ds ≠ [] ∧ ds.all isDigit then some (digitsValue ds) else none

/-- Is there a minus in front, and what follows the sign? -/
def splitSign : List Char → Bool × List Char
  | '-' :: ds => (true, ds)
  | '+' :: ds => (false, ds)
  | ds => (false, ds)

/-- Digits without the zeros before them. -/
def trimZeros (ds : List Char) : List Char :=
  let trimmed := ds.dropWhile (· = '0')
  if trimmed = [] then ['0'] else trimmed

/-- The decimal with these digits. Zero is not negative. -/
def ofDigits (negative : Bool) (ds : List Char) (scale : UInt32) : Decimal :=
  let digits := trimZeros ds
  ⟨negative && digits ≠ ['0'], digits, scale⟩

/-- One or more digits after at most one sign. -/
def unscaled? (cs : List Char) (scale : UInt32) : Option Decimal :=
  let (negative, ds) := splitSign cs
  if ds ≠ [] ∧ ds.all isDigit then some (ofDigits negative ds scale) else none

/-- The decimal with these digits, of which `scale` stand after the point. -/
def ofUnscaled (text : String) (scale : UInt32) : Except InvalidValue Decimal :=
  match unscaled? text.toList scale with
  | some d => .ok d
  | none => .error (.decimal text)

def isSign (c : Char) : Bool := c = '-' || c = '+'

/-- The integer digits may be left out before a fraction. -/
def read? (cs : List Char) : Option Decimal :=
  let whole := cs.takeWhile (· ≠ '.')
  let fraction := (cs.dropWhile (· ≠ '.')).tail
  let bare := whole.dropWhile isSign = []
  if cs.getLast? = some '.' ∨ fraction.head?.any isSign ∨ (bare ∧ fraction = []) then none
  else
    let scale := (String.ofList fraction).utf8ByteSize
    if UInt32.size ≤ scale then none
    else unscaled? (if bare then whole ++ '0' :: fraction else whole ++ fraction) (UInt32.ofNat scale)

def parse (text : String) : Except InvalidValue Decimal :=
  match read? text.toList with
  | some d => .ok d
  | none => .error (.decimal text)

def isZero (d : Decimal) : Bool := d.digits = ['0']

def isNegative (d : Decimal) : Bool := d.negative

def unscaledText (d : Decimal) : String :=
  String.ofList (if d.negative then '-' :: d.digits else d.digits)

/-- Digits with a point before the last `scale` of them, and at least one digit before the point. -/
def withPoint (ds : List Char) (scale : Nat) : List Char :=
  if scale = 0 then ds
  else
    let padded := if ds.length ≤ scale then List.replicate (scale + 1 - ds.length) '0' ++ ds else ds
    padded.take (padded.length - scale) ++ '.' :: padded.drop (padded.length - scale)

protected def toString (d : Decimal) : String :=
  let text := withPoint d.digits d.scale.toNat
  String.ofList (if d.negative then '-' :: text else text)

end Decimal

/-- A currency code of three upper-case letters. -/
structure Currency where
  code : String
  deriving DecidableEq

def Currency.ofCode (code : String) : Except InvalidValue Currency :=
  if code.toList.length = 3 ∧ code.toList.all (fun c => 'A' ≤ c ∧ c ≤ 'Z') then .ok ⟨code⟩
  else .error (.currency code)

end DurableFlow
