import ContractMigration.Numeric.Double

/-!
# Decimal texts of numbers

Three ways to write a number: with a fixed count of places, with a comma between groups of three digits, and with
the fewest digits that read back as the same double-precision number. Fixed places round the exact value, with ties
to even. The shortest form looks for the first count of digits whose grid has a point inside the interval of values
that round to the number, and of those points takes the nearest.
-/

namespace ContractMigration.Numeric

/-- The decimal digits of `n`, padded with zeros to at least `width`. -/
def digitsPadded (width n : Nat) : List Char :=
  let digits := Nat.toDigits 10 n
  List.replicate (width - digits.length) '0' ++ digits

/-- A nonnegative rational with exactly `places` digits behind the point, or no point when there are none. -/
def fixedMagnitude (places : Nat) (x : Rat) : List Char :=
  let scaled := (roundHalfEven (x * tenPow places)).toNat
  let unit := Nat.pow 10 places
  let whole := Nat.toDigits 10 (scaled / unit)
  if places = 0 then whole else whole ++ '.' :: digitsPadded places (scaled % unit)

/-- A rational with exactly `places` digits behind the point. -/
def fixed (places : Nat) (x : Rat) : String :=
  String.ofList (if x < 0 then '-' :: fixedMagnitude places (-x) else fixedMagnitude places x)

/-- A double-precision number with exactly `places` digits behind the point. -/
def Double.fixed (places : Nat) : Double → String
  | finite negative magnitude =>
    String.ofList (if negative then '-' :: fixedMagnitude places magnitude else fixedMagnitude places magnitude)
  | infinite negative => if negative then "-inf" else "inf"
  | notANumber => "nan"

/-- Puts a comma before each group of three digits but the first; the digits come and go reversed. -/
def groupReversed : List Char → List Char
  | a :: b :: c :: d :: rest => a :: b :: c :: ',' :: groupReversed (d :: rest)
  | digits => digits

/-- A natural number with a comma between groups of three digits. -/
def grouped (n : Nat) : String :=
  String.ofList (groupReversed (Nat.toDigits 10 n).reverse).reverse

/-- An integer with a comma between groups of three digits. -/
def groupedInt (n : Int) : String :=
  if n < 0 then "-" ++ grouped n.natAbs else grouped n.natAbs

/-! ### Shortest form -/

/-- The exponent `k` with `10 ^ (k - 1) ≤ x < 10 ^ k`, for a positive `x`, found from a guess that is off by little. -/
def decimalExponent (x : Rat) : Int :=
  let guess : Int := binaryExponent x * 30103 / 100000
  let settle := [guess - 1, guess, guess + 1, guess + 2, guess + 3].find? fun k => x < tenPow k
  settle.getD guess

/-- Whether a rational rounds to the positive double-precision number `x`. -/
def roundsTo (x candidate : Rat) : Bool :=
  nearestDouble candidate == x

/-- The nearer to `x` of the two neighbours of `x` on the grid with the given step that round to `x`, as a multiple of
the step; of two equally near ones the even one. -/
def neighbourOnGrid (x step : Rat) : Option Nat :=
  let below := (x / step).floor.toNat
  let lower := (below : Rat) * step
  let upper := ((below + 1 : Nat) : Rat) * step
  match roundsTo x lower, roundsTo x upper with
  | false, false => none
  | true, false => some below
  | false, true => some (below + 1)
  | true, true =>
    if x - lower < upper - x then some below
    else if upper - x < x - lower then some (below + 1)
    else if below % 2 = 0 then some below
    else some (below + 1)

/-- The fewest digits that read back as the positive double-precision number `x`, and the exponent of ten of the last
of them, trying counts of digits upwards. -/
def shortestFrom (x : Rat) (exponent : Int) : (tries count : Nat) → Nat × Int
  | 0, _ => (0, 0)
  | tries + 1, count =>
    let last := exponent - count
    match neighbourOnGrid x (tenPow last) with
    | some digits => (digits, last)
    | none => shortestFrom x exponent tries (count + 1)

/-- How the shortest form is laid out: the exponents of the leading digit that are written without an exponent. -/
structure ShortestLayout where
  least : Int
  greatest : Int

/-- From one ten-thousandth up to below ten to the sixteenth a number is written without an exponent. -/
def ShortestLayout.standard : ShortestLayout :=
  ⟨-4, 15⟩

/-- The shortest form of a positive double-precision number. Without an exponent it always has a point and a digit
behind it; an exponent has a sign and at least two digits. -/
def shortestMagnitude (layout : ShortestLayout) (x : Rat) : List Char :=
  let (number, last) := shortestFrom x (decimalExponent x) 18 1
  let digits := (Nat.toDigits 10 number).reverse.dropWhile (· == '0') |>.reverse
  let leading := last + (Nat.toDigits 10 number).length - 1
  if layout.least ≤ leading ∧ leading ≤ layout.greatest then
    if leading < 0 then
      '0' :: '.' :: List.replicate (-leading - 1).toNat '0' ++ digits
    else
      let places := leading.toNat + 1
      let whole := digits.take places ++ List.replicate (places - digits.length) '0'
      let behind := digits.drop places
      whole ++ '.' :: (if behind.isEmpty then ['0'] else behind)
  else
    let mantissa := match digits with
      | [] => []
      | [d] => [d]
      | d :: more => d :: '.' :: more
    mantissa ++ 'e' :: (if leading < 0 then '-' else '+') :: digitsPadded 2 leading.natAbs

/-- The shortest form of a double-precision number. -/
def Double.shortest : Double → String
  | finite negative magnitude =>
    let text := if magnitude = 0 then "0.0".toList else shortestMagnitude .standard magnitude
    String.ofList (if negative then '-' :: text else text)
  | infinite negative => if negative then "-Infinity" else "Infinity"
  | notANumber => "NaN"

end ContractMigration.Numeric
