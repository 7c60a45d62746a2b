import ContractMigration.Text.Blank
import ContractMigration.Text.SortedWords

/-!
# Neighbours of a keyword

The words that stand next to a keyword in a body are collected once and sorted, so that a name is looked up among them
without going through the body again. Those in front of the keyword are kept reversed: on either side a name is looked
for at the beginning of a word.
-/

namespace ContractMigration.Solidity

open Text

/-- The words written next to a keyword: those behind it, and those in front of it, reversed. -/
structure Neighbours where
  behind : SortedWords
  inFront : SortedWords
deriving Repr

namespace Neighbours

/-- The words that directly follow the keyword and a space. A word that was found is passed over as a whole: the next
`skip` characters still belong to it. `passed` is the text in front, reversed. -/
def wordsBehind (keyword passed : List Char) : (skip : Nat) → List Char → List (List Char)
  | _, [] => []
  | skip + 1, c :: rest => wordsBehind keyword (c :: passed) skip rest
  | 0, c :: rest =>
    if !isBlank c && (' ' :: keyword.reverse).isPrefixOf passed then
      let more := rest.takeWhile (!isBlank ·)
      (c :: more) :: wordsBehind keyword (c :: passed) more.length rest
    else wordsBehind keyword (c :: passed) 0 rest

/-- The words, reversed, that a space and the keyword directly follow; `word` is the one being read. -/
def wordsInFront (keyword word : List Char) : List Char → List (List Char)
  | [] => []
  | c :: rest =>
    if !isBlank c then wordsInFront keyword (c :: word) rest
    else if !word.isEmpty && c == ' ' && keyword.isPrefixOf rest then word :: wordsInFront keyword [] rest
    else wordsInFront keyword [] rest

/-- The neighbours of a keyword in a masked body. -/
def ofText (keyword maskedBody : List Char) : Neighbours where
  behind := .ofList (wordsBehind keyword [] 0 maskedBody)
  inFront := .ofList (wordsInFront keyword [] maskedBody)

/-- Whether some word behind the keyword begins with the name, or some word in front of it ends with the name. -/
def adjoins (neighbours : Neighbours) (name : List Char) : Bool :=
  neighbours.behind.anyBegins name || neighbours.inFront.anyBegins name.reverse

end Neighbours

end ContractMigration.Solidity
