import ContractMigration.Json.Basic
import ContractMigration.Text.Hexadecimal

/-!
# Writing JSON

A value is written on one line. The style says what stands between items and between a key and its value, and
whether characters beyond ASCII are escaped; an astral character is escaped as a surrogate pair, and a half of a pair by
itself is always escaped. A runtime that allows an integer only so many digits does not write a value with an integer
beyond that (`excess?`).
-/

namespace ContractMigration.Json

/-- How values are written. -/
structure Style where
  itemSeparator : List Char
  keySeparator : List Char
  asciiOnly : Bool

/-- One line of a log: a space behind each separator, ASCII only. -/
def Style.line : Style :=
  ⟨[',', ' '], [':', ' '], true⟩

/-- The shortest form, with all characters as they are. -/
def Style.compact : Style :=
  ⟨[','], [':'], false⟩

/-- A sixteen-bit unit as an escape. -/
def escapedUnit (unit : Nat) : List Char :=
  '\\' :: 'u' :: Text.hexPadded 4 unit

/-- A character inside a string. -/
def escapedChar (asciiOnly : Bool) (c : Char) : List Char :=
  if c == '"' then ['\\', '"']
  else if c == '\\' then ['\\', '\\']
  else if c == '\n' then ['\\', 'n']
  else if c == '\r' then ['\\', 'r']
  else if c == '\t' then ['\\', 't']
  else if c.toNat = 8 then ['\\', 'b']
  else if c.toNat = 12 then ['\\', 'f']
  else if c.toNat < 0x20 then escapedUnit c.toNat
  else if !asciiOnly || c.toNat < 0x7F then [c]
  else if c.toNat < 0x10000 then escapedUnit c.toNat
  else
    let rest := c.toNat - 0x10000
    escapedUnit (0xD800 + rest / 0x400) ++ escapedUnit (0xDC00 + rest % 0x400)

/-- A code point inside a string. -/
def escapedPoint (asciiOnly : Bool) : CodePoint → List Char
  | .char c => escapedChar asciiOnly c
  | .half number => escapedUnit (0xD800 + number.val)

/-- The decimal digits of an integer, behind a minus sign when it is negative. -/
def integerText (n : Int) : List Char :=
  if n < 0 then '-' :: Nat.toDigits 10 n.natAbs else Nat.toDigits 10 n.natAbs

/-- A string with its quotes. -/
def stringText (asciiOnly : Bool) (s : CodeText) : List Char :=
  '"' :: s.points.flatMap (escapedPoint asciiOnly) ++ ['"']

mutual

/-- The characters of a value. -/
def text (style : Style) : Json → List Char
  | null => "null".toList
  | bool b => if b then "true".toList else "false".toList
  | int n => integerText n
  | real x => x.shortest.toList
  | str s => stringText style.asciiOnly s
  | arr items => '[' :: itemsText style items ++ [']']
  | obj members => '\x7b' :: membersText style members ++ ['\x7d']

/-- The characters of the items of a list. -/
def itemsText (style : Style) : List Json → List Char
  | [] => []
  | [item] => text style item
  | item :: rest => text style item ++ (style.itemSeparator ++ itemsText style rest)

/-- The characters of the members of an object. -/
def membersText (style : Style) : List (CodeText × Json) → List Char
  | [] => []
  | [(key, value)] => stringText style.asciiOnly key ++ (style.keySeparator ++ text style value)
  | (key, value) :: rest =>
    stringText style.asciiOnly key ++ (style.keySeparator ++ (text style value ++
      (style.itemSeparator ++ membersText style rest)))

end

mutual

/-- The first integer of a value that has too many digits, in the order of writing. -/
def excess? (limits : Limits) : Json → Option Excess
  | int n => limits.integerExcess? (Nat.toDigits 10 n.natAbs).length
  | arr items => itemsExcess? limits items
  | obj members => membersExcess? limits members
  | null | bool _ | real _ | str _ => none

/-- The first integer with too many digits in items. -/
def itemsExcess? (limits : Limits) : List Json → Option Excess
  | [] => none
  | item :: rest => (excess? limits item).or (itemsExcess? limits rest)

/-- The first integer with too many digits in the values of members. -/
def membersExcess? (limits : Limits) : List (CodeText × Json) → Option Excess
  | [] => none
  | (_, value) :: rest => (excess? limits value).or (membersExcess? limits rest)

end

/-- A value on one line. -/
def print (style : Style) (json : Json) : String :=
  String.ofList (text style json)

end ContractMigration.Json
