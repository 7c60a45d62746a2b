/-!
# Blanks and words

What counts as a blank, and the things done with blanks: trimming a text, cutting it into its words, and
collapsing it so that single spaces separate the words. A collapsed text has no blank but the space, none at
either end and no two in a row, and everything that reads a member of a contract relies on that.
-/

namespace ContractMigration.Text

/-- The twenty-nine blanks: the ASCII ones, the four information separators, the next-line control and the spaces
and line separators of the typographic planes. The zero-width space is not among them. -/
def isBlank (c : Char) : Bool :=
  let n := c.toNat
  (9 ≤ n && n ≤ 13) || (28 ≤ n && n ≤ 32) || n == 0x85 || n == 0xA0 || n == 0x1680 || (0x2000 ≤ n && n ≤ 0x200A) ||
    n == 0x2028 || n == 0x2029 || n == 0x202F || n == 0x205F || n == 0x3000

/-- The text without its leading blanks. -/
def trimLeft (text : List Char) : List Char :=
  text.dropWhile isBlank

/-- The text without its trailing blanks. -/
def trimRight (text : List Char) : List Char :=
  (text.reverse.dropWhile isBlank).reverse

/-- The text without the blanks at its ends. -/
def trim (text : List Char) : List Char :=
  trimRight (trimLeft text)

/-- The maximal pieces without blanks, in order. -/
def words (text : List Char) : List (List Char) :=
  (text.splitOnP isBlank).filter (!·.isEmpty)

/-- Words with one space between neighbours. -/
def unwords (pieces : List (List Char)) : List Char :=
  [' '].intercalate pieces

/-- The words of a text with one space between neighbours. -/
def collapse (text : List Char) : List Char :=
  unwords (words text)

end ContractMigration.Text
