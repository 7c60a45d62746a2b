import ContractMigration.Json.Reader
import ContractMigration.Text.Blank
import ContractMigration.Text.Case
import ContractMigration.Validation.Basic

/-!
# Numbers and truth values from outside

Where a number or a truth value is expected, texts and other numbers are accepted as far as they plainly mean one. An
integer may be a whole number with a point, a truth value, or a text: a plain integer, or what becomes one without the
blanks around it, a plus sign, leading zeros, single underscores between digits and a fraction of zeros. A truth value
may be zero or one or one of twelve words. So it is with the library that runs; of a library in general no more is
asked than that it takes plain integers and truth values for themselves.
-/

namespace ContractMigration.Validation

open Text

/-! ### Integers -/

/-- The blanks that may surround a number: all but the four information separators. -/
def isPadding (c : Char) : Bool :=
  isBlank c && !(28 ≤ c.toNat && c.toNat ≤ 31)

/-- The text without the padding at its ends. -/
def unpadded (text : List Char) : List Char :=
  ((text.dropWhile isPadding).reverse.dropWhile isPadding).reverse

/-- What is left behind leading zeros and underscores, which may be a minus sign and more digits; `last` is the
character just passed. -/
def withoutZeros (last : Char) : List Char → Option (List Char)
  | [] => some [last]
  | c :: rest =>
    if c == '0' || c == '_' then withoutZeros c rest
    else if c.isDigit || c == '-' then some (c :: rest)
    else if c == '.' then some (last :: c :: rest)
    else none

/-- The text without leading zeros; it has to begin with a digit. -/
def withoutLeadingZeros : List Char → Option (List Char)
  | [] => none
  | c :: rest =>
    if c == '0' then withoutZeros c rest
    else if c.isDigit then some (c :: rest)
    else none

/-- The text without a point followed by zeros only, of which there is at least one. -/
def withoutZeroFraction (text : List Char) : List Char :=
  match text.dropWhile (· != '.') with
  | _ :: fraction => if !fraction.isEmpty && fraction.all (· == '0') then text.takeWhile (· != '.') else text
  | [] => text

/-- The text without underscores, if each stands alone inside the text. -/
def withoutUnderscores (text : List Char) : List Char :=
  if text.head? == some '_' || text.getLast? == some '_' || occursIn "__".toList text then text
  else text.filter (· != '_')

/-- Digits as a plain integer has them, with no zero in front and no fraction of zeros. -/
def plainDigits? (text : List Char) : Option (List Char) :=
  (withoutLeadingZeros text).map fun digits => withoutUnderscores (withoutZeroFraction digits)

/-- A text as a plain integer, as far as it is one at heart. A minus sign stays in front of the digits. -/
def asPlainInt? (text : List Char) : Option (List Char) :=
  match unpadded text with
  | '-' :: rest => (plainDigits? rest).map ('-' :: ·)
  | '+' :: rest => plainDigits? rest
  | bare => plainDigits? bare

/-- The most digits that a plain integer may have; a sign does not count. -/
def mostDigits : Nat :=
  4300

/-- Reads a plain integer: digits with an optional minus sign in front; several digits do not begin with a zero. Too
many digits are found out before anything behind them. -/
def readPlainInt (text : List Char) : Except ProblemKind Int :=
  let negative := text.head? == some '-'
  let (digits, after) := Json.splitDigits (if negative then text.drop 1 else text)
  if digits.isEmpty || (digits.head? == some '0' && 1 < digits.length) then .error .unreadableInt
  else if mostDigits < digits.length then .error .intTooLong
  else if !after.isEmpty then .error .unreadableInt
  else .ok (if negative then -(Json.digitsValue digits : Int) else Json.digitsValue digits)

/-- Reads an integer from a text. Only a text that begins with too many digits is reported as too long. -/
def intOfText (s : String) : Checked Int :=
  match readPlainInt s.toList with
  | .ok n => .accepted n
  | .error .intTooLong => .problem .intTooLong
  | .error _ =>
    match (asPlainInt? s.toList).map readPlainInt with
    | some (.ok n) => .accepted n
    | _ => .problem .unreadableInt

/-- Reads a text from outside as something that only a Unicode text can mean. -/
def ofUnicode {α : Type} (unreadable : ProblemKind) (read : String → Checked α) (s : CodeText) : Checked α :=
  match s.text? with
  | some characters => read characters
  | none => .problem unreadable

/-- Reads an integer from a number with a point. -/
def intOfDouble (x : Numeric.Double) : Checked Int :=
  match x.value? with
  | none => .problem .notFinite
  | some value =>
    if value.den ≠ 1 then .problem .fractionalInt
    else if value.num.natAbs < 9223372036854775808 then .accepted value.num
    else .problem .intTooLong

/-- An integer. -/
def integer : Json → Checked Int
  | .int n => .accepted n
  | .bool b => .accepted (if b then 1 else 0)
  | .str s => ofUnicode .unreadableInt intOfText s
  | .real x => intOfDouble x
  | _ => .problem .notInt

/-! ### Truth values -/

/-- The words for true. -/
def trueWords : List String :=
  ["1", "on", "t", "true", "y", "yes"]

/-- The words for false. -/
def falseWords : List String :=
  ["0", "off", "f", "false", "n", "no"]

/-- Reads a truth value from a text, without regard to the case of ASCII letters. -/
def boolOfText (s : String) : Checked Bool :=
  let word := String.ofList (s.toList.map Char.toLower)
  if trueWords.contains word then .accepted true
  else if falseWords.contains word then .accepted false
  else .problem .unreadableBool

/-- Whether an integer fits into a signed word of sixty-four bits. -/
def isWord (n : Int) : Bool :=
  -9223372036854775808 ≤ n && n < 9223372036854775808

/-- Reads a truth value from an integer. -/
def boolOfInt (n : Int) : Checked Bool :=
  if n = 0 then .accepted false
  else if n = 1 then .accepted true
  else if isWord n then .problem .unreadableBool
  else .problem .notBool

/-- A truth value. -/
def boolean : Json → Checked Bool
  | .bool b => .accepted b
  | .str s => ofUnicode .unreadableBool boolOfText s
  | .int n => boolOfInt n
  | .real x =>
    match intOfDouble x with
    | .accepted n => boolOfInt n
    | .rejected _ => .problem .notBool
  | _ => .problem .notBool

/-! ### Numbers of double precision -/

/-- Reads digits with an optional sign, point and exponent, or a word for an infinity or for no number. -/
def plainDouble? (text : List Char) : Option Numeric.Double :=
  let negative := text.head? == some '-'
  let unsigned := if negative || text.head? == some '+' then text.drop 1 else text
  let word := String.ofList (unsigned.map Char.toLower)
  if word == "inf" || word == "infinity" then some (.infinite negative)
  else if word == "nan" then some .notANumber
  else
    let (whole, afterWhole) := Json.splitDigits unsigned
    let (fraction, afterFraction) := match afterWhole with
      | '.' :: rest => Json.splitDigits rest
      | _ => ([], afterWhole)
    let (exponent, after) := Json.splitExponent afterFraction
    if !after.isEmpty || (whole.isEmpty && fraction.isEmpty) then none
    else
      let power := (exponent.map Json.Exponent.value).getD 0
      some (.ofDecimal negative (Json.digitsValue (whole ++ fraction)) (power - fraction.length))

/-- Reads a number from a text, which may have padding or underscores but not both. -/
def doubleOfText (s : String) : Checked Numeric.Double :=
  match plainDouble? (unpadded s.toList) with
  | some x => .accepted x
  | none =>
    match plainDouble? (withoutUnderscores s.toList) with
    | some x => .accepted x
    | none => .problem .unreadableFloat

/-- A number of double precision. -/
def double : Json → Checked Numeric.Double
  | .real x => .accepted x
  | .int n =>
    match Numeric.Double.ofInt n with
    | .finite negative magnitude => .accepted (.finite negative magnitude)
    | _ => .problem .notFloat
  | .bool b => .accepted (.ofInt (if b then 1 else 0))
  | .str s => ofUnicode .unreadableFloat doubleOfText s
  | _ => .problem .notFloat

end ContractMigration.Validation
