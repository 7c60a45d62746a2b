/-!
# Rounding

Rounding a rational to the nearest integer, and to the nearest binary number with 53 significant digits. Ties go to
the even neighbour in both. The binary grid is the one of double precision: below `2 ^ -1022` its step no longer
shrinks. Nothing here is approximate, so laws about rounded arithmetic are laws about rationals.
-/

namespace ContractMigration.Numeric

/-- The integer nearest to a rational; of two equally near ones the even one. -/
def roundHalfEven (x : Rat) : Int :=
  let below := x.floor
  let rest := x - below
  if rest < 1 / 2 then below
  else if 1 / 2 < rest then below + 1
  else if below % 2 = 0 then below
  else below + 1

/-- The power of two with an integer exponent. -/
def twoPow (exponent : Int) : Rat :=
  if 0 ≤ exponent then (Nat.pow 2 exponent.toNat : Nat) else mkRat 1 (Nat.pow 2 (-exponent).toNat)

/-- The power of ten with an integer exponent. -/
def tenPow (exponent : Int) : Rat :=
  if 0 ≤ exponent then (Nat.pow 10 exponent.toNat : Nat) else mkRat 1 (Nat.pow 10 (-exponent).toNat)

/-- The exponent `e` with `2 ^ e ≤ x < 2 ^ (e + 1)`, for a positive `x`. -/
def binaryExponent (x : Rat) : Int :=
  let guess : Int := (x.num.natAbs.log2 : Int) - (x.den.log2 : Int)
  if x < twoPow guess then guess - 1 else guess

/-- The step of the binary grid around a positive `x`, as an exponent of two. -/
def gridExponent (x : Rat) : Int :=
  max (binaryExponent x - 52) (-1074)

/-- The point of the binary grid nearest to a rational; a tie goes to the point with the even significand. -/
def nearestDouble (x : Rat) : Rat :=
  if x = 0 then 0
  else
    let step := twoPow (gridExponent (if x < 0 then -x else x))
    roundHalfEven (x / step) * step

end ContractMigration.Numeric
