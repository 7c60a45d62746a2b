import ContractMigration.Solidity.Variable

/-!
# Functions, modifiers and constructors

A signature is read from the header of a member: its name, the parameters in the parentheses behind the name, the
results in the parentheses behind `returns`, and from the words before `returns` the first visibility and the first
mutability. The constructor is put in front of the other functions wherever it stands.
-/

namespace ContractMigration.Solidity

open Text

/-- Reads `returns` as the last word before a parenthesis, and gives what follows the parenthesis. -/
def readReturns (text : List Char) : Option (List Char) :=
  match after? "returns".toList text with
  | none => none
  | some rest =>
    match trimLeft rest with
    | '(' :: more => some more
    | _ => none

/-- Splits what follows the parameters into the head with the modifiers and the results. -/
def splitReturns (text : List Char) : List Char × List Parameter :=
  match findWord isWordChar readReturns text with
  | none => (text, [])
  | some (head, more) =>
    (head, match splitAtClosing '(' ')' more with
      | none => []
      | some (inside, _) => readParameters inside)

/-- The first of the given words that stands in a text as a whole word. -/
def firstKeyword? (keywords : List (List Char)) (text : List Char) : Option (List Char) :=
  (wordRuns text).find? keywords.contains

/-- What a signature belongs to. -/
inductive SignatureRole where
  | function
  | constructor
  | modifier
deriving DecidableEq, Repr

/-- Reads a signature from what follows the opening parenthesis of its parameters. -/
def readSignature (role : SignatureRole) (name text : List Char) : Option Signature :=
  (splitAtClosing '(' ')' text).map fun (inside, after) =>
    let (head, returns) := splitReturns after
    { name := String.ofList name
      visibility := match role with
        | .function => String.ofList ((firstKeyword? visibilityWords head).getD "public".toList)
        | .constructor => "public"
        | .modifier => "internal"
      mutability := String.ofList ((firstKeyword? mutabilityWords head).getD "nonpayable".toList)
      parameters := readParameters inside
      returns
      isConstructor := role == .constructor
      isModifier := role == .modifier }

/-- Reads a word and an opening parenthesis, and gives what follows it. -/
def readOpened (word text : List Char) : Option (List Char) :=
  match after? word text with
  | none => none
  | some rest =>
    match trimLeft rest with
    | '(' :: more => some more
    | _ => none

/-- Reads a keyword, blanks and a name. -/
def readNamed (keyword text : List Char) : Option (List Char × List Char) :=
  match after? keyword text with
  | none => none
  | some rest =>
    let named := trimLeft rest
    let name := named.takeWhile isWordChar
    if (rest.takeWhile isBlank).isEmpty || name.isEmpty then none else some (name, named.drop name.length)

/-- Reads the header of a function up to its opening parenthesis: its name, which may be missing, and what follows. -/
def readFunctionHead (text : List Char) : Option (List Char × List Char) :=
  match wholeWord? "function".toList text with
  | none => none
  | some rest =>
    let named := trimLeft rest
    let name := named.takeWhile isWordChar
    match trimLeft (named.drop name.length) with
    | '(' :: more => some (name, more)
    | _ => none

/-- Reads the header of a function; one without a name is the fallback. -/
def readFunction (text : List Char) : Option (Option Signature) :=
  (readFunctionHead text).map fun (name, more) =>
    readSignature .function (if name.isEmpty then "fallback".toList else name) more

/-- Reads the header of a fallback or receive function. -/
def readSpecial (text : List Char) : Option (Option Signature) :=
  ["fallback".toList, "receive".toList].findSome? fun word => (readOpened word text).map (readSignature .function word)

/-- Reads the header of a modifier, with or without parameters. -/
def readModifier (text : List Char) : Option Signature :=
  match readNamed "modifier".toList text with
  | none => none
  | some (name, rest) =>
    match trimLeft rest with
    | '(' :: more => readSignature .modifier name more
    | _ => some { name := String.ofList name, visibility := "internal", isModifier := true }

/-- Reads the header of a function, of a fallback or receive function, or of a modifier. -/
def readCallable (text : List Char) : Option Signature :=
  match readFunction text with
  | some signature => signature
  | none =>
    match readSpecial text with
    | some signature => signature
    | none => readModifier text

/-- Reads a member as a function or modifier; a statement that declares a variable of function type is neither. -/
def Member.readCallable (member : Member) : Option Signature :=
  if member.ending = .statement ∧ (splitFunctionVariable member.text).isSome then none
  else Solidity.readCallable member.text

/-- Reads the members onto the reversed signatures. The first readable constructor is kept aside, and put in front at
the end; a second one is no signature at all. -/
def signaturesOnto (constructor : Option Signature) (done : List Signature) : List Member → List Signature
  | [] => constructor.toList ++ done.reverse
  | member :: rest =>
    match if constructor.isNone then readOpened "constructor".toList member.text else none with
    | some more => signaturesOnto (readSignature .constructor "constructor".toList more) done rest
    | none =>
      match member.readCallable with
      | some signature => signaturesOnto constructor (signature :: done) rest
      | none => signaturesOnto constructor done rest

/-- The signatures of a masked body: the constructor, then functions and modifiers in order. -/
def signatures (maskedBody : List Char) : List Signature :=
  signaturesOnto none [] (members maskedBody)

end ContractMigration.Solidity
