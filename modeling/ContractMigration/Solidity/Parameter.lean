import ContractMigration.Contract.Basic
import ContractMigration.Solidity.Bracket
import ContractMigration.Text.Alphanumeric
import ContractMigration.Text.Blank
import ContractMigration.Text.Search

/-!
# Identifiers and parameters

An identifier begins with an ASCII letter, an underscore or a dollar sign and goes on with word characters and
dollar signs.

A parameter list is split at its top-level commas. In each part the data locations and the word `indexed` are
dropped, and the last remaining word is the name if something stands before it and it is an identifier.
-/

namespace ContractMigration.Solidity

open Text

/-! ### Identifiers -/

/-- A character that an identifier may begin with. -/
def isIdentifierStart (c : Char) : Bool :=
  c.isAlpha || c == '_' || c == '$'

/-- A character that an identifier may go on with. -/
def isIdentifierChar (c : Char) : Bool :=
  isWordChar c || c == '$'

/-- Whether the whole text is one identifier. -/
def isIdentifier : List Char → Bool
  | [] => false
  | c :: rest => isIdentifierStart c && rest.all isIdentifierChar

/-! ### Parameters -/

/-- The words that say where a parameter is stored. -/
def dataLocationWords : List (List Char) :=
  ["memory".toList, "calldata".toList, "storage".toList]

/-- The name and the type of a parameter; either may be empty. -/
def nameAndType (part : List Char) : List Char × List Char :=
  let kept := (words part).filter fun word => !dataLocationWords.contains word && word != "indexed".toList
  match kept.reverse with
  | name :: before :: more =>
    if isIdentifier name && name != "payable".toList then (name, unwords (before :: more).reverse)
    else ([], unwords kept)
  | _ => ([], unwords kept)

/-- The type as it is recorded: a type that is not written is unknown. -/
def recordedType (typeName : List Char) : String :=
  if typeName.isEmpty then "unknown" else String.ofList typeName

/-- The parts of a parameter list that are not blank, collapsed. -/
def parameterParts (text : List Char) : List (List Char) :=
  ((splitOutsideBrackets [','] text).map collapse).filter (!·.isEmpty)

/-- Reads the parameters of a function. -/
def readParameters (text : List Char) : List Parameter :=
  (parameterParts text).map fun part =>
    let (name, typeName) := nameAndType part
    { name := String.ofList name, typeName := recordedType typeName }

/-- Reads the parameters of an event; one is indexed when `indexed` occurs anywhere in it. -/
def readEventParameters (text : List Char) : List EventParameter :=
  (parameterParts text).map fun part =>
    let (name, typeName) := nameAndType part
    { name := String.ofList name, typeName := recordedType typeName, indexed := occursIn "indexed".toList part }

end ContractMigration.Solidity
