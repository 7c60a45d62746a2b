/-!
# Hexadecimal digits and percent-encoded texts

Hexadecimal digits are written small and read in both cases.

A percent sign and two hexadecimal digits stand for a byte, and the bytes together for a text. A percent sign without
two digits behind it stands for itself. In a form a plus sign stands for a blank, which is settled before the bytes are
looked at.
-/

namespace ContractMigration.Text

/-- The lower-case hexadecimal digits of `n`, padded with zeros to `width`. -/
def hexPadded (width n : Nat) : List Char :=
  let digits := Nat.toDigits 16 n
  List.replicate (width - digits.length) '0' ++ digits

/-- The value of a hexadecimal digit. -/
def hexValue? (c : Char) : Option Nat :=
  if c.isDigit then some (c.toNat - 48)
  else if 'a' ≤ c ∧ c ≤ 'f' then some (c.toNat - 87)
  else if 'A' ≤ c ∧ c ≤ 'F' then some (c.toNat - 55)
  else none

/-! ### Percent signs -/

/-- The bytes that a percent-encoded text stands for. -/
def percentBytes : List Char → List UInt8
  | '%' :: high :: low :: rest =>
    match hexValue? high, hexValue? low with
    | some h, some l => UInt8.ofNat (h * 16 + l) :: percentBytes rest
    | _, _ => String.utf8EncodeChar '%' ++ percentBytes (high :: low :: rest)
  | c :: rest => String.utf8EncodeChar c ++ percentBytes rest
  | [] => []

/-- The text of bytes. Where bytes are no text, each of them beyond ASCII is shown as a replacement character. -/
def ofBytes (bytes : List UInt8) : List Char :=
  match String.fromUTF8? ⟨bytes.toArray⟩ with
  | some s => s.toList
  | none => bytes.map fun byte => if byte < 128 then Char.ofNat byte.toNat else Char.ofNat 0xFFFD

/-- The text that a percent-encoded text stands for. -/
def percentDecoded (text : List Char) : List Char :=
  ofBytes (percentBytes text)

/-- The text of a name or a value in a form. -/
def formDecoded (text : List Char) : List Char :=
  percentDecoded (text.map fun c => if c == '+' then ' ' else c)

/-- The names and values of a form: pairs between ampersands, of which empty ones do not count. -/
def formPairs (form : List Char) : List (String × String) :=
  ((form.splitOn '&').filter (!·.isEmpty)).map fun pair =>
    (String.ofList (formDecoded (pair.takeWhile (· != '='))),
      String.ofList (formDecoded ((pair.dropWhile (· != '=')).drop 1)))

end ContractMigration.Text
