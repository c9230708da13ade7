/-!
# Decimals

A `Decimal` is a number as it is written: a sign, some digits and a power of
ten.  `short` keeps of a long row of digits those that fit 64 bits, and
`positional` writes a number without a power of ten.
-/

namespace TopicMesh

/-- The number `± digits * 10 ^ exponent`. -/
structure Decimal where
  /-- Whether there is a minus sign. -/
  negative : Bool
  /-- The digits as one natural number. -/
  digits : Nat
  /-- The power of ten. -/
  exponent : Int
deriving DecidableEq, Repr, Inhabited

namespace Decimal

/-! ## Digits -/

/-- The digits of a natural number, one for zero. -/
def digitsOf (n : Nat) : List Nat :=
  (Nat.toDigits 10 n).map fun c => c.toNat - 48

/-- The number of digits of a natural number, one for zero. -/
def digitCount (n : Nat) : Nat :=
  (Nat.toDigits 10 n).length

/-- Appends digits to a number while it fits 64 bits; also how many are left. -/
def append (n : Nat) : List Nat → Nat × Nat
  | [] => (n, 0)
  | d :: ds => if n * 10 + d < UInt64.size then append (n * 10 + d) ds else (n, ds.length + 1)

/-! ## Short decimals -/

/-- The number with some digits before the point, some after it, and a power of
ten, as much of it as 64 bits keep.  Digits before the point that are left still
count for the power; those after it do not.  Both rows of digits are tried one
after the other, so a digit after the point may be kept though one before it was
not. -/
def short (negative : Bool) (whole places : List Nat) (power : Int) : Decimal :=
  let (n, left) := append 0 whole
  let (m, unused) := append n places
  ⟨negative, m, power + left - (places.length - unused : Nat)⟩

/-- An integer, as much of it as 64 bits keep. -/
def ofInt (n : Int) : Decimal :=
  short (n < 0) (digitsOf n.natAbs) [] 0

/-! ## Text -/

/-- The digits of a number with its point in place: zeros fill the gap between
the digits and the point. -/
def positional (d : Decimal) : String :=
  let digits := Nat.toDigits 10 d.digits
  let places := (-d.exponent).toNat
  let padded := List.replicate (places + 1 - digits.length) '0' ++ digits ++
    List.replicate d.exponent.toNat '0'
  let whole := padded.take (padded.length - places)
  let fraction := padded.drop (padded.length - places)
  String.ofList ((if d.negative then ['-'] else []) ++ whole ++
    if fraction.isEmpty then [] else '.' :: fraction)

end Decimal

end TopicMesh
