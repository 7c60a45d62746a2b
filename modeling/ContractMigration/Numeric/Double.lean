import ContractMigration.Numeric.Rounding

/-!
# Double-precision numbers

A number of double precision is a sign with a nonnegative rational on the binary grid, an infinity, or no number. A
zero keeps its sign. Numbers are read from decimals with one rounding, so what is written with enough digits reads
back as itself.
-/

namespace ContractMigration.Numeric

/-- A double-precision number. -/
inductive Double where
  | finite (negative : Bool) (magnitude : Rat)
  | infinite (negative : Bool)
  | notANumber
deriving DecidableEq, Repr

namespace Double

/-- The number nearest to a fraction; magnitudes from halfway between the largest number and `2 ^ 1024` upwards are
infinite. -/
def ofMagnitude (negative : Bool) (magnitude : Rat) : Double :=
  let rounded := nearestDouble magnitude
  if twoPow 1024 ≤ rounded then infinite negative else finite negative rounded

/-- The number nearest to `digits * 10 ^ exponent`. Exponents far outside the range of double precision are decided
without computing the power. -/
def ofDecimal (negative : Bool) (digits : Nat) (exponent : Int) : Double :=
  let size := (Nat.toDigits 10 digits).length + exponent
  if digits = 0 ∨ size < -330 then finite negative 0
  else if 310 < size then infinite negative
  else ofMagnitude negative (digits * tenPow exponent)

/-- The number nearest to an integer. -/
def ofInt (n : Int) : Double :=
  ofMagnitude (n < 0) n.natAbs

/-- The value of a finite number. -/
def value? : Double → Option Rat
  | finite negative magnitude => some (if negative then -magnitude else magnitude)
  | _ => none

end Double

end ContractMigration.Numeric
