import ContractMigration.Json.Basic
import ContractMigration.Text.Hexadecimal
import ContractMigration.Text.Search

/-!
# Reading JSON

A text is read as one value between blanks. A text that is no value is refused with the offset of the place where
reading got stuck: the place of a missing value, key, colon or comma, of a control character inside a string or of
the offending escape, and for a string without an end the place where it begins. Besides the values of the format
the three words for infinities and for no number are read. An escape for a half of a surrogate pair stands for that
half, unless its other half stands beside it.

A reader may be given limits. What goes beyond them is refused where it is met, whatever follows it.
-/

namespace ContractMigration.Json

open Text

/-! ### Faults -/

/-- Why a text is not read: it is no value, as is clear at some offset, or it is beyond the limits. -/
inductive Fault where
  | stuck (offset : Nat)
  | beyond (excess : Excess)
deriving DecidableEq, Repr

/-- What a reader gives: a value with the offset and the text behind it, or a fault. -/
abbrev Reading (α : Type) := Except Fault (α × Nat × List Char)

/-- The blanks between the parts of a value. -/
def isSpace (c : Char) : Bool :=
  c == ' ' || c == '\t' || c == '\n' || c == '\r'

/-- Passes over blanks. -/
def skipSpace : (offset : Nat) → List Char → Nat × List Char
  | offset, c :: rest => if isSpace c then skipSpace (offset + 1) rest else (offset, c :: rest)
  | offset, [] => (offset, [])

/-! ### Strings -/

/-- The value of four hexadecimal digits. -/
def hexUnit? (a b c d : Char) : Option Nat :=
  match hexValue? a, hexValue? b, hexValue? c, hexValue? d with
  | some a, some b, some c, some d => some (((a * 16 + b) * 16 + c) * 16 + d)
  | _, _, _, _ => none

/-- The character that a short escape stands for. -/
def shortEscape? (c : Char) : Option Char :=
  if c == '"' || c == '\\' || c == '/' then some c
  else if c == 'b' then some (Char.ofNat 8)
  else if c == 'f' then some (Char.ofNat 12)
  else if c == 'n' then some '\n'
  else if c == 'r' then some '\r'
  else if c == 't' then some '\t'
  else none

/-- Reads the inside of a string that begins at offset `start`, up to its closing quote, onto the reversed code points
so far. -/
def readStringOnto (start : Nat) (done : List CodePoint) : (offset : Nat) → List Char → Reading CodeText
  | _, [] => .error (.stuck start)
  | _, ['\\'] => .error (.stuck start)
  | offset, '\\' :: 'u' :: a :: b :: c :: d :: rest =>
    match hexUnit? a b c d with
    | none => .error (.stuck (offset + 1))
    | some unit =>
      if rest.isEmpty then .error (.stuck (offset + 1))
      else readStringOnto start (.ofUnit unit :: done) (offset + 6) rest
  | offset, '\\' :: c :: rest =>
    if c == 'u' then .error (.stuck (offset + 1))
    else
      match shortEscape? c with
      | none => .error (.stuck offset)
      | some meant => readStringOnto start (.char meant :: done) (offset + 2) rest
  | offset, c :: rest =>
    if c == '"' then .ok (.ofPoints done.reverse, offset + 1, rest)
    else if c.toNat < 0x20 then .error (.stuck offset)
    else readStringOnto start (.char c :: done) (offset + 1) rest

/-- Reads a string from behind its opening quote. -/
def readString (offset : Nat) (text : List Char) : Reading CodeText :=
  readStringOnto (offset - 1) [] offset text

/-! ### Numbers -/

/-- The value of decimal digits. -/
def digitsValue (digits : List Char) : Nat :=
  digits.foldl (fun n c => n * 10 + (c.toNat - 48)) 0

/-- Splits the decimal digits off a text. -/
def splitDigits (text : List Char) : List Char × List Char :=
  (text.takeWhile Char.isDigit, text.dropWhile Char.isDigit)

/-- Splits a point and at least one digit off a text. -/
def splitFraction (text : List Char) : List Char × List Char :=
  match text with
  | '.' :: rest =>
    let (digits, after) := splitDigits rest
    if digits.isEmpty then ([], text) else (digits, after)
  | _ => ([], text)

/-- An exponent as it is written: whether it is negative, its digits, and the number of characters in all. -/
structure Exponent where
  negative : Bool
  digits : List Char
  width : Nat

/-- The value of an exponent. -/
def Exponent.value (exponent : Exponent) : Int :=
  if exponent.negative then -(digitsValue exponent.digits : Int) else digitsValue exponent.digits

/-- Splits an exponent with at least one digit off a text. -/
def splitExponent (text : List Char) : Option Exponent × List Char :=
  match text with
  | [] => (none, text)
  | c :: rest =>
    if c == 'e' || c == 'E' then
      let signed := rest.head? == some '-' || rest.head? == some '+'
      let (digits, after) := splitDigits (if signed then rest.drop 1 else rest)
      if digits.isEmpty then (none, text)
      else (some ⟨rest.head? == some '-', digits, digits.length + if signed then 2 else 1⟩, after)
    else (none, text)

/-- The number with the given digits before and behind the point and the given exponent. -/
def numberOf (negative : Bool) (whole fraction : List Char) (exponent : Option Exponent) : Json :=
  if fraction.isEmpty && exponent.isNone then
    int (if negative then -(digitsValue whole : Int) else digitsValue whole)
  else
    let power := (exponent.map Exponent.value).getD 0
    real (.ofDecimal negative (digitsValue (whole ++ fraction)) (power - fraction.length))

/-- Reads a number; a whole part has no zero in front of another digit. -/
def readNumber (limits : Limits) (offset : Nat) (text : List Char) : Reading Json :=
  let negative := text.head? == some '-'
  let unsigned := if negative then text.drop 1 else text
  let (whole, afterWhole) := match unsigned with
    | '0' :: rest => (['0'], rest)
    | _ => splitDigits unsigned
  if whole.isEmpty then .error (.stuck offset)
  else
    let (fraction, afterFraction) := splitFraction afterWhole
    let (exponent, after) := splitExponent afterFraction
    let isInteger := fraction.isEmpty && exponent.isNone
    match if isInteger then limits.integerExcess? whole.length else none with
    | some excess => .error (.beyond excess)
    | none =>
      let width := (if negative then 1 else 0) + whole.length + (if fraction.isEmpty then 0 else fraction.length + 1) +
        (exponent.map Exponent.width).getD 0
      .ok (numberOf negative whole fraction exponent, offset + width, after)

/-! ### Values -/

/-- The words that are values by themselves. -/
def wordValues : List (List Char × Json) :=
  [("null".toList, null), ("true".toList, bool true), ("false".toList, bool false),
    ("NaN".toList, real .notANumber), ("Infinity".toList, real (.infinite false)),
    ("-Infinity".toList, real (.infinite true))]

/-- Reads a word that is a value by itself, or a number. -/
def readScalar (limits : Limits) (offset : Nat) (text : List Char) : Reading Json :=
  let found := wordValues.findSome? fun (word, value) => (after? word text).map fun rest =>
    (value, offset + word.length, rest)
  match found with
  | some reading => .ok reading
  | none => readNumber limits offset text

mutual

/-- Reads a value that begins at the head of the text; `depth` counts the lists and objects around it. -/
def readValue (limits : Limits) : (fuel depth offset : Nat) → List Char → Reading Json
  | 0, _, offset, _ => .error (.stuck offset)
  | _ + 1, _, offset, [] => .error (.stuck offset)
  | fuel + 1, depth, offset, c :: rest =>
    if c == '"' then
      match readString (offset + 1) rest with
      | .error fault => .error fault
      | .ok (s, behind, after) => .ok (str s, behind, after)
    else if c == '[' then
      if limits.allowsNesting depth then
        match skipSpace (offset + 1) rest with
        | (behind, ']' :: after) => .ok (arr [], behind + 1, after)
        | (behind, after) => readItems limits fuel (depth + 1) [] behind after
      else .error (.beyond .nestedList)
    else if c == '\x7b' then
      if limits.allowsNesting depth then
        match skipSpace (offset + 1) rest with
        | (behind, '\x7d' :: after) => .ok (obj [], behind + 1, after)
        | (behind, after) => readMembers limits fuel (depth + 1) [] behind after
      else .error (.beyond .nestedObject)
    else readScalar limits offset (c :: rest)

/-- Reads the remaining items of a list onto the reversed ones. -/
def readItems (limits : Limits) : (fuel depth : Nat) → (done : List Json) → (offset : Nat) → List Char → Reading Json
  | 0, _, _, offset, _ => .error (.stuck offset)
  | fuel + 1, depth, done, offset, text =>
    match readValue limits fuel depth offset text with
    | .error fault => .error fault
    | .ok (item, behind, after) =>
      match skipSpace behind after with
      | (close, ']' :: rest) => .ok (arr (item :: done).reverse, close + 1, rest)
      | (comma, ',' :: rest) =>
        let (next, more) := skipSpace (comma + 1) rest
        readItems limits fuel depth (item :: done) next more
      | (place, _) => .error (.stuck place)

/-- Reads the remaining members of an object behind the ones already read. -/
def readMembers (limits : Limits) :
    (fuel depth : Nat) → (done : List (CodeText × Json)) → (offset : Nat) → List Char → Reading Json
  | 0, _, _, offset, _ => .error (.stuck offset)
  | fuel + 1, depth, done, offset, text =>
    match text with
    | '"' :: keyText =>
      match readString (offset + 1) keyText with
      | .error fault => .error fault
      | .ok (key, behind, after) =>
        match skipSpace behind after with
        | (colon, ':' :: rest) =>
          let (start, valueText) := skipSpace (colon + 1) rest
          match readValue limits fuel depth start valueText with
          | .error fault => .error fault
          | .ok (value, behind, after) =>
            let members := setMember done key value
            match skipSpace behind after with
            | (close, '\x7d' :: rest) => .ok (obj members, close + 1, rest)
            | (comma, ',' :: rest) =>
              let (next, more) := skipSpace (comma + 1) rest
              readMembers limits fuel depth members next more
            | (place, _) => .error (.stuck place)
        | (place, _) => .error (.stuck place)
    | _ => .error (.stuck offset)

end

/-- Reads a text as one value within limits. -/
def parseWithin (limits : Limits) (text : List Char) : Except Fault Json :=
  let (start, content) := skipSpace 0 text
  match readValue limits (2 * text.length + 2) 0 start content with
  | .error fault => .error fault
  | .ok (value, behind, after) =>
    match skipSpace behind after with
    | (_, []) => .ok value
    | (extra, _) => .error (.stuck extra)

/-- Reads a text as one value. -/
def parse (text : List Char) : Except Fault Json :=
  parseWithin {} text

end ContractMigration.Json
