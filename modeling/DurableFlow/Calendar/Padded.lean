/-!
# Numbers padded with zeros
-/

namespace DurableFlow

/-- A number in at least `width` digits. -/
def padded (width n : Nat) : String :=
  let ds := Nat.toDigits 10 n
  String.ofList (List.replicate (width - ds.length) '0' ++ ds)

end DurableFlow
