import ContractMigration.Solidity.Member
import ContractMigration.Solidity.Neighbours
import ContractMigration.Solidity.Parameter

/-!
# State variables

A statement declares a variable when a type stands at its head and everything between the type and the first `=` is
modifiers and a name. A variable of function type is written differently and is told from a function declaration by
ending with a name. Whether a variable is constant or immutable is decided by its modifiers and also by any place in
the body where its name touches the keyword; the second test knows no scopes.
-/

namespace ContractMigration.Solidity

open Text

/-! ### Types -/

/-- Reads array suffixes onto the reversed ones: the suffixes, without spaces inside the brackets, and what follows. A
bracket that is not closed makes the whole declaration unreadable. -/
def readArraySuffixes (done : List (List Char)) : (fuel : Nat) → List Char → Option (List Char × List Char)
  | 0, rest => some (done.reverse.flatten, rest)
  | fuel + 1, rest =>
    match trimLeft rest with
    | '[' :: more =>
      match splitAtClosing '[' ']' more with
      | none => none
      | some (inside, after) => readArraySuffixes (('[' :: inside.filter (· != ' ') ++ [']']) :: done) fuel after
    | _ => some (done.reverse.flatten, rest)

/-- Reads a mapping type with its key and value types. -/
def readMapping (text : List Char) : Option (Option (List Char × List Char)) :=
  match after? "mapping".toList text with
  | none => none
  | some rest =>
    match trimLeft rest with
    | '(' :: more =>
      some ((splitAtClosing '(' ')' more).map fun (inside, after) =>
        ("mapping".toList ++ rest.takeWhile isBlank ++ '(' :: inside ++ [')'], after))
    | _ => none

/-- Reads a type that is one word, possibly dotted, or `address payable`. -/
def readPlainType (text : List Char) : Option (List Char × List Char) :=
  match after? "address payable".toList text with
  | some rest => some ("address payable".toList, rest)
  | none =>
    match text with
    | [] => none
    | c :: rest =>
      let inType := fun d => isIdentifierChar d || d == '.'
      if isIdentifierStart c then some (c :: rest.takeWhile inType, rest.dropWhile inType) else none

/-- Splits a declaration into its type and the rest. -/
def readType (text : List Char) : Option (List Char × List Char) :=
  let head :=
    match readMapping text with
    | some mapping => mapping
    | none => readPlainType text
  match head with
  | none => none
  | some (typeName, rest) =>
    (readArraySuffixes [] text.length rest).map fun (suffixes, after) => (typeName ++ suffixes, after)

/-! ### Modifiers -/

/-- The words that say from where something can be used. -/
def visibilityWords : List (List Char) :=
  ["public".toList, "private".toList, "internal".toList, "external".toList]

/-- The words that say what a function may do with the state and with value. -/
def mutabilityWords : List (List Char) :=
  ["pure".toList, "view".toList, "payable".toList]

/-- The words that may stand between the type and the name of a variable. -/
def variableModifierWords : List (List Char) :=
  ["public".toList, "private".toList, "internal".toList, "constant".toList, "immutable".toList, "transient".toList]

/-- The length of `override`, blanks and a flat list in parentheses, at the head of a text. -/
def overrideWidth? (text : List Char) : Option Nat :=
  match after? "override".toList text with
  | none => none
  | some rest =>
    let gap := rest.takeWhile isBlank
    let width := "override".length + gap.length
    match rest.drop gap.length with
    | '(' :: more =>
      let inside := more.takeWhile fun c => c != '(' && c != ')'
      if (more.drop inside.length).head? == some ')' then some (width + inside.length + 2) else some width
    | _ => some width

/-- Puts a space in place of each `override` where a word may begin, onto the reversed result; `skip` characters still
belong to the one just replaced. -/
def dropOverridesOnto (done : List Char) (skip : Nat) (joined : Bool) : List Char → List Char
  | [] => done.reverse
  | c :: rest =>
    match skip with
    | skip + 1 => dropOverridesOnto done skip (isWordChar c) rest
    | 0 =>
      match if joined then none else overrideWidth? (c :: rest) with
      | some width => dropOverridesOnto (' ' :: done) (width - 1) (isWordChar c) rest
      | none => dropOverridesOnto (c :: done) 0 (isWordChar c) rest

/-- The text with a space in place of each `override` and its list. -/
def dropOverrides (text : List Char) : List Char :=
  dropOverridesOnto [] 0 false text

/-! ### Fixings -/

/-- Where the two keywords stand that make a variable unchangeable. -/
structure Fixings where
  constants : Neighbours
  immutables : Neighbours

/-- The fixings of a masked body. -/
def Fixings.ofText (maskedBody : List Char) : Fixings where
  constants := .ofText "constant".toList maskedBody
  immutables := .ofText "immutable".toList maskedBody

/-! ### Declarations -/

/-- The record of a variable. -/
def variableRecord (fixings : Fixings) (typeName : List Char) (modifiers : List (List Char)) (name : List Char) :
    StateVariable where
  name := String.ofList name
  typeName := String.ofList typeName
  visibility := String.ofList ((modifiers.find? visibilityWords.contains).getD "internal".toList)
  isConstant := modifiers.contains "constant".toList || fixings.constants.adjoins name
  isImmutable := modifiers.contains "immutable".toList || fixings.immutables.adjoins name

/-- The text before the first `=`. -/
def beforeInitialiser (text : List Char) : List Char :=
  text.takeWhile (· != '=')

/-- Whether the text begins like a function type: `function`, then a parenthesis. -/
def beginsFunctionType (text : List Char) : Bool :=
  match after? "function".toList text with
  | none => false
  | some rest => (trimLeft rest).head? == some '('

/-- The words that end a function declaration and so name no variable. -/
def functionTailWords : List (List Char) :=
  visibilityWords ++ mutabilityWords ++ ["returns".toList, "virtual".toList, "override".toList]

/-- The modifiers that may follow a function type; `internal` is read as a part of the type. -/
def functionVariableModifiers : List (List Char) :=
  ["public".toList, "private".toList, "constant".toList, "immutable".toList]

/-- Reads a variable of function type: its type, its modifiers and its name. At least one word belongs to the type. -/
def splitFunctionVariable (text : List Char) : Option (List Char × List (List Char) × List Char) :=
  if !beginsFunctionType text then none
  else
    match (words (beforeInitialiser text)).reverse with
    | [] => none
    | name :: before =>
      if !isIdentifier name || functionTailWords.contains name then none
      else
        let modifiers := before.dropLast.takeWhile functionVariableModifiers.contains
        some (unwords (before.drop modifiers.length).reverse, modifiers.reverse, name)

/-- The words at the head of a statement that declares no variable. -/
def nonVariableWords : List (List Char) :=
  ["function".toList, "constructor".toList, "modifier".toList, "event".toList, "error".toList, "struct".toList,
    "enum".toList, "using".toList, "fallback".toList, "receive".toList, "type".toList, "pragma".toList,
    "import".toList]

/-- The first word of a statement, up to a space or a parenthesis. -/
def headWord (text : List Char) : List Char :=
  text.takeWhile fun c => c != ' ' && c != '('

/-- Reads what stands between the type and the initialiser: modifiers and a name. -/
def splitDeclarator (text : List Char) : Option (List (List Char) × List Char) :=
  match (words (dropOverrides (beforeInitialiser text))).reverse with
  | [] => none
  | name :: before =>
    let modifiers := before.reverse
    if isIdentifier name && !variableModifierWords.contains name && modifiers.all variableModifierWords.contains then
      some (modifiers, name)
    else none

/-- Reads a statement as the declaration of a variable. -/
def readVariable (fixings : Fixings) (text : List Char) : Option StateVariable :=
  let first := headWord text
  if first = "function".toList then
    (splitFunctionVariable text).map fun (typeName, modifiers, name) => variableRecord fixings typeName modifiers name
  else if nonVariableWords.contains first then none
  else
    match readType text with
    | none => none
    | some (typeName, rest) =>
      (splitDeclarator rest).map fun (modifiers, name) => variableRecord fixings typeName modifiers name

/-- Reads a member as a variable: only statements declare one. -/
def Member.readVariable (fixings : Fixings) (member : Member) : Option StateVariable :=
  match member.ending with
  | .block => none
  | .statement => Solidity.readVariable fixings member.text

/-- The variables of a masked body, in order. -/
def stateVariables (maskedBody : List Char) : List StateVariable :=
  (members maskedBody).filterMap (Member.readVariable (.ofText maskedBody))

end ContractMigration.Solidity
