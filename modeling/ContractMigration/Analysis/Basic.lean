import ContractMigration.Contract.Basic

/-!
# Analyses

The result of one pass over one source: the contracts in source order, the facts about the whole file, and the
diagnostics. An analysis with diagnostics is still the best that could be recovered, so whatever follows from an
analysis takes it as it is.
-/

namespace ContractMigration

/-- How much work a contract is. -/
inductive Complexity where
  | low
  | medium
  | high
deriving DecidableEq, Repr

namespace Complexity

/-- The word for a complexity. -/
def word : Complexity → String
  | low => "low"
  | medium => "medium"
  | high => "high"

/-- All complexities, in increasing order. -/
def all : List Complexity :=
  [low, medium, high]

end Complexity

/-- The facts about a file: the token standards it implements, how access is controlled, and how complex it is. -/
structure FileFacts where
  isErc20 : Bool := false
  isErc721 : Bool := false
  hasOwnable : Bool := false
  hasAccessControl : Bool := false
  hasMappings : Bool := false
  hasEvents : Bool := false
  complexity : Complexity := .low
  lineCount : Int := 0
deriving DecidableEq, Repr

/-- The analysis of one source. -/
structure Analysis extends FileFacts where
  contracts : List Contract := []
  pragma : String := "unknown"
  imports : List String := []
  errors : List String := []
deriving DecidableEq, Repr

namespace Analysis

/-- The contract that the migration is about: the first one that is not abstract, else the first one, else the first
declaration of any kind. -/
def subject (analysis : Analysis) : Option Contract :=
  let candidates := analysis.contracts.filter fun contract => contract.kind == .contract
  (candidates.find? fun contract => !contract.isAbstract) <|> candidates.head? <|> analysis.contracts.head?

/-- The variables of mapping type, in the order of contracts and declarations. -/
def mappings (analysis : Analysis) : List StateVariable :=
  analysis.contracts.flatMap fun contract => contract.mappings

/-- The number of signatures in all contracts, modifiers and constructors included. -/
def signatureCount (analysis : Analysis) : Nat :=
  (analysis.contracts.flatMap Contract.functions).length

/-- The token standard that the file implements. -/
def tokenStandard (analysis : Analysis) : String :=
  if analysis.isErc20 then "ERC-20"
  else if analysis.isErc721 then "ERC-721"
  else "Custom"

end Analysis

end ContractMigration
