import ContractMigration.Text.Alphanumeric

/-!
# Looking for a piece of a text

Substring tests, and the search for the first place where a reader accepts. A reader takes the text from a place
on and answers with what it found; the search tries it only where a word may begin, that is, not directly after a
character that would join on to it. Which characters join differs between searches, so it is an argument.
-/

namespace ContractMigration.Text

/-- Whether `piece` occurs in the text as a substring. -/
def occursIn (piece : List Char) : List Char → Bool
  | [] => piece.isEmpty
  | c :: rest => piece.isPrefixOf (c :: rest) || occursIn piece rest

/-- What follows `piece` at the start of the text. -/
def after? (piece text : List Char) : Option (List Char) :=
  piece.isPrefixOf? text

/-- Tries the reader at each place where a word may begin; `behind` is what was passed, reversed, and `joined` says
whether the character just passed joins on to a word. -/
def findWordFrom {α : Type} (joins : Char → Bool) (read : List Char → Option α) (behind : List Char) (joined : Bool) :
    List Char → Option (List Char × α)
  | [] => none
  | c :: rest =>
    match if joined then none else read (c :: rest) with
    | some found => some (behind.reverse, found)
    | none => findWordFrom joins read (c :: behind) (joins c) rest

/-- The first place where a word may begin and the reader accepts: the text before it, and what was read. -/
def findWord {α : Type} (joins : Char → Bool) (read : List Char → Option α) (text : List Char) :
    Option (List Char × α) :=
  findWordFrom joins read [] false text

/-- Reads a whole word: the text after it, provided that no word character follows directly. -/
def wholeWord? (word text : List Char) : Option (List Char) :=
  match after? word text with
  | some rest => if (rest.head?.map isWordChar).getD false then none else some rest
  | none => none

/-- The maximal runs of word characters, in order. -/
def wordRuns (text : List Char) : List (List Char) :=
  (text.splitOnP (!isWordChar ·)).filter (!·.isEmpty)

end ContractMigration.Text
