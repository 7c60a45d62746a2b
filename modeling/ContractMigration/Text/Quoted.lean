import ContractMigration.Text.Hexadecimal
import ContractMigration.Text.Printable

/-!
# Quoted texts

A text as it is shown inside a message: between single quotes, or between double quotes when it holds a single
quote and no double one. The quote in use and the backslash are escaped, tabs and line ends have short escapes,
and every other unprintable character is written by its number in as few of two, four or eight hexadecimal digits
as it needs.
-/

namespace ContractMigration.Text

/-- A character inside a text quoted with `quote`. -/
def quotedChar (quote c : Char) : List Char :=
  if c == quote || c == '\\' then ['\\', c]
  else if c == '\n' then ['\\', 'n']
  else if c == '\r' then ['\\', 'r']
  else if c == '\t' then ['\\', 't']
  else if isPrintable c then [c]
  else if c.toNat < 0x100 then '\\' :: 'x' :: hexPadded 2 c.toNat
  else if c.toNat < 0x10000 then '\\' :: 'u' :: hexPadded 4 c.toNat
  else '\\' :: 'U' :: hexPadded 8 c.toNat

/-- The quote that a text is shown with. -/
def quoteFor (text : List Char) : Char :=
  if text.contains '\'' && !text.contains '"' then '"' else '\''

/-- The text between quotes, with escapes. -/
def quoted (text : List Char) : List Char :=
  let quote := quoteFor text
  quote :: text.flatMap (quotedChar quote) ++ [quote]

end ContractMigration.Text
