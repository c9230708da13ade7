import TopicMesh.Decimal

/-!
# Doubles

A `Double` is a number that the 64-bit binary format can hold: 53 binary digits
and a power of two, an infinity, or no number at all.  The zeros keep their
sign.

Every operation computes exactly, with a fraction of natural numbers, and
`nearest` rounds once at the end.  A fraction half-way between two doubles goes
to the one whose last binary digit is zero (`roundQuotient`), and a fraction past
the largest double goes to infinity.

A decimal becomes a double in one of two ways.  `ofDecimal` gives the nearest
double.  `scaled` is the quicker way for a decimal whose digits fit 64 bits: it
multiplies or divides them by a power of ten, rounds up to three times and may end
beside the nearest double.
-/

namespace TopicMesh

/-- A number of the 64-bit binary format. -/
inductive Double
  /-- The number `± significand * 2 ^ exponent`. -/
  | finite (negative : Bool) (significand : Nat) (exponent : Int)
  | infinite (negative : Bool)
  | notANumber
deriving DecidableEq, Repr, Inhabited

namespace Double

/-- The exponent of the numbers closest to zero. -/
def minExponent : Int := -1074

/-- The exponent of the largest numbers. -/
def maxExponent : Int := 971

/-- Every significand is below this bound, two to the power of 53. -/
def significandBound : Nat := 9007199254740992

/-- The fraction `n * b ^ e` as numerator and denominator. -/
def fraction (n b : Nat) (e : Int) : Nat × Nat :=
  if 0 ≤ e then (n * Nat.pow b e.toNat, 1) else (n, Nat.pow b (-e).toNat)

/-- The natural number nearest to a quotient, of two the even one. -/
def roundQuotient (num den : Nat) : Nat :=
  let q := num / den
  let r := num % den
  if den < 2 * r ∨ (2 * r = den ∧ q % 2 = 1) then q + 1 else q

/-- A rounded quotient is at most half a unit away. -/
theorem roundQuotient_near {num den : Nat} (h : 0 < den) :
    2 * (roundQuotient num den * den) ≤ 2 * num + den ∧
      2 * num ≤ 2 * (roundQuotient num den * den) + den := by
  have split := Nat.div_add_mod num den
  have small := Nat.mod_lt num h
  unfold roundQuotient
  dsimp only
  rw [Nat.mul_comm] at split
  split
  · rw [Nat.add_mul]
    omega
  · omega

/-- The fraction `num / den` in units of `2 ^ e`. -/
def inUnits (num den : Nat) (e : Int) : Nat × Nat :=
  let (up, down) := fraction 1 2 e
  (num * down, den * up)

/-- The double nearest to a fraction, with the given sign. -/
def nearest (negative : Bool) (num den : Nat) : Double :=
  if num = 0 then .finite negative 0 minExponent
  else
    let low := max (num.log2 - den.log2 - 53 : Int) minExponent
    let (n, d) := inUnits num den low
    let e := if n / d < significandBound then low else low + 1
    let (n, d) := inUnits num den e
    let m := roundQuotient n d
    let (m, e) := if m < significandBound then (m, e) else (significandBound / 2, e + 1)
    if maxExponent < e then .infinite negative else .finite negative m e

/-- The double nearest to a natural number. -/
def ofNat (n : Nat) : Double :=
  nearest false n 1

/-- The double nearest to a power of ten. -/
def tenTo (k : Nat) : Double :=
  ofNat (Nat.pow 10 k)

/-- A double with the sign of its opposite. -/
def negate : Double → Double
  | finite negative m e => finite (!negative) m e
  | infinite negative => infinite !negative
  | notANumber => notANumber

/-- Whether a double is neither infinite nor no number. -/
def isFinite : Double → Bool
  | finite _ _ _ => true
  | _ => false

/-- Whether a double equals zero. -/
def isZero : Double → Bool
  | finite _ m _ => m = 0
  | _ => false

/-- The product of two doubles without sign, rounded. -/
def times : Double → Double → Double
  | finite _ m e, finite _ n k =>
    let (num, den) := fraction (m * n) 2 (e + k)
    nearest false num den
  | _, _ => infinite false

/-- The quotient of two doubles without sign, rounded. -/
def dividedBy : Double → Double → Double
  | finite _ m e, finite _ n k =>
    let (num, den) := fraction m 2 (e - k)
    nearest false num (n * den)
  | _, _ => infinite false

/-! ## From decimals -/

/-- The sign of a decimal on a double. -/
def signed (negative : Bool) (x : Double) : Double :=
  if negative then x.negate else x

/-- The double nearest to a decimal. -/
def ofDecimal (d : Decimal) : Double :=
  let places := d.exponent + Decimal.digitCount d.digits
  if d.digits = 0 ∨ places < -330 then .finite d.negative 0 minExponent
  else if 310 < places then .infinite d.negative
  else
    let (num, den) := fraction d.digits 10 d.exponent
    nearest d.negative num den

/-- The greatest power of ten that is a double. -/
def maxPower : Nat := 308

/-- A number without sign, times a power of ten.  A negative power beyond the
greatest is divided off in two steps; after two steps nothing is left of a number
of 64 bits. -/
def shifted (x : Double) (power : Int) : Double :=
  if x.isZero then x
  else if 0 ≤ power then
    if power ≤ maxPower then x.times (tenTo power.toNat) else .infinite false
  else
    let down := (-power).toNat
    if down ≤ maxPower then x.dividedBy (tenTo down)
    else if down ≤ 2 * maxPower then
      (x.dividedBy (tenTo maxPower)).dividedBy (tenTo (down - maxPower))
    else .finite false 0 minExponent

/-- The double that scaling arrives at. -/
def scaled (d : Decimal) : Double :=
  signed d.negative ((ofNat d.digits).shifted d.exponent)

/-! ## To natural numbers -/

/-- The nearest natural number up to a limit, of two the larger.  Negative
numbers, and what is no number, give zero. -/
def toNat (limit : Nat) : Double → Nat
  | finite false m e =>
    let (num, den) := fraction m 2 e
    min ((2 * num + den) / (2 * den)) limit
  | infinite false => limit
  | _ => 0

end Double

end TopicMesh
