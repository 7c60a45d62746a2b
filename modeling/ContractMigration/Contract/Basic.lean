/-!
# Contracts

What is recovered of a contract, interface or library: its variables, functions and events with the types as they
are written. Visibility and mutability are words rather than enumerations, because a record that comes from outside
may carry any word there; the words that matter are tested where they matter.
-/

namespace ContractMigration

/-- The three kinds of declaration. -/
inductive DeclarationKind where
  | contract
  | interface
  | library
deriving DecidableEq, Repr

namespace DeclarationKind

/-- The keyword of a kind. -/
def word : DeclarationKind → String
  | contract => "contract"
  | interface => "interface"
  | library => "library"

/-- All kinds. -/
def all : List DeclarationKind :=
  [contract, interface, library]

end DeclarationKind

/-- A parameter; the name is empty when there is none. -/
structure Parameter where
  name : String := ""
  typeName : String
deriving DecidableEq, Repr

/-- A parameter of an event. -/
structure EventParameter where
  name : String := ""
  typeName : String
  indexed : Bool := false
deriving DecidableEq, Repr

/-- A variable declared in the body of a contract. -/
structure StateVariable where
  name : String
  typeName : String
  visibility : String := "internal"
  isConstant : Bool := false
  isImmutable : Bool := false
deriving DecidableEq, Repr

/-- Whether the type of the variable is a mapping. -/
def StateVariable.isMapping (declared : StateVariable) : Bool :=
  "mapping".toList.isPrefixOf declared.typeName.toList

/-- The signature of a function, a constructor, a fallback or receive function, or a modifier. -/
structure Signature where
  name : String
  visibility : String := "public"
  mutability : String := "nonpayable"
  parameters : List Parameter := []
  returns : List Parameter := []
  isConstructor : Bool := false
  isModifier : Bool := false
deriving DecidableEq, Repr

/-- Whether the function can be called from outside, and so becomes an instruction. -/
def Signature.isInstruction (signature : Signature) : Bool :=
  !signature.isConstructor && !signature.isModifier &&
    (signature.visibility == "public" || signature.visibility == "external")

/-- An event. -/
structure Event where
  name : String
  parameters : List EventParameter := []
deriving DecidableEq, Repr

/-- A contract, interface or library. -/
structure Contract where
  name : String
  kind : DeclarationKind := .contract
  isAbstract : Bool := false
  bases : List String := []
  stateVariables : List StateVariable := []
  functions : List Signature := []
  events : List Event := []
deriving DecidableEq, Repr

namespace Contract

/-- The functions that become instructions, in order. -/
def instructions (contract : Contract) : List Signature :=
  contract.functions.filter Signature.isInstruction

/-- The variables of mapping type, in order. -/
def mappings (contract : Contract) : List StateVariable :=
  contract.stateVariables.filter StateVariable.isMapping

/-- The variables that are no mappings, in order. -/
def fieldVariables (contract : Contract) : List StateVariable :=
  contract.stateVariables.filter fun declared => !declared.isMapping

end Contract

/-- The number of variables in all contracts. -/
def stateVariableCount (contracts : List Contract) : Nat :=
  (contracts.flatMap Contract.stateVariables).length

end ContractMigration
