import ContractMigration.Rule.Concepts
import ContractMigration.Rust.Naming
import ContractMigration.Rust.Type

/-!
# The rules about one analysis

Seven modules make the rules of a report. Each sees the analysis and the rules made before it; only the rules
about access and patterns look at the latter, so that nothing is said twice.
-/

namespace ContractMigration

open Concepts

/-- The state account of the main contract. -/
def contractStateRules (analysis : Analysis) : List MigrationRule :=
  match analysis.subject with
  | none => []
  | some contract =>
    let name := contract.name
    [{ contractStorage with
        evmConcept := s!"contract {name} storage"
        snippet := some (lines [
          "#[account]",
          "#[derive(Default)]",
          s!"pub struct {name}State \x7b",
          "    pub authority: Pubkey,",
          "    pub bump: u8,",
          "    pub is_initialized: bool,",
          "    // migrated fields below",
          "\x7d"]) }]

/-! ### State variables -/

/-- A mapping becomes one account per key. -/
def keyedRule (declared : StateVariable) : MigrationRule :=
  let name := declared.name
  let entry := pascalCase name ++ "Entry"
  let field := snakeCase name
  let value := (RustType.ofSolidity (innermostValueType declared.typeName)).text
  { mappingPerKey with
    evmConcept := "mapping: " ++ name
    evmDetail := declared.typeName
    snippet := some (lines [
      s!"// PDA for {name} entry",
      "#[account(",
      "    init_if_needed,",
      "    payer = payer,",
      s!"    space = 8 + {entry}::LEN,",
      s!"    seeds = [b\"{name}\", key.as_ref()],",
      "    bump",
      ")]",
      s!"pub {field}_entry: Account<'info, {entry}>,",
      "",
      "#[account]",
      s!"pub struct {entry} \x7b",
      "    pub key: Pubkey,",
      s!"    pub value: {value},",
      "    pub bump: u8,",
      "\x7d"]) }

/-- An owner becomes the authority. -/
def ownerRule (declared : StateVariable) : MigrationRule :=
  { ownable with evmDetail := "address " ++ declared.name ++ " — owner/admin" }

/-- Any other variable becomes a field of the state account. -/
def fieldRule (declared : StateVariable) : MigrationRule :=
  let name := declared.name
  let typeName := declared.typeName
  let field := snakeCase name
  let rustType := (RustType.ofSolidity typeName).text
  let qualifiers := [declared.visibility] ++ (if declared.isConstant then ["constant"] else []) ++
    (if declared.isImmutable then ["immutable"] else [])
  { category := .state
    evmConcept := s!"{typeName} {name}"
    evmDetail := "State variable (" ++ String.intercalate ", " qualifiers ++ ")"
    solanaConcept := "Account field"
    solanaDetail := s!"pub {field}: {rustType},"
    rationale :=
      "Primitive and fixed-size Solidity types map directly to Borsh-serialized fields in a Solana account struct."
    snippet := some (lines ["// Inside your #[account] struct:", s!"pub {field}: {rustType}, // {typeName}"]) }

/-- Whether a variable holds the address of an owner. -/
def StateVariable.isOwner (declared : StateVariable) : Bool :=
  Text.occursIn "owner".toList (Text.lower declared.name.toList) &&
    (declared.typeName == "address" || declared.typeName == "address payable")

/-- The rule for one variable. -/
def variableRule (declared : StateVariable) : MigrationRule :=
  if declared.isMapping then keyedRule declared
  else if declared.isOwner then ownerRule declared
  else fieldRule declared

/-- One rule for each variable of each contract. -/
def stateVariableRules (analysis : Analysis) : List MigrationRule :=
  analysis.contracts.flatMap fun contract => contract.stateVariables.map variableRule

/-! ### Instructions and events -/

/-- The types of parameters with commas between them. -/
def parameterTypes (parameters : List Parameter) : String :=
  String.intercalate ", " (parameters.map Parameter.typeName)

/-- The name of a parameter in the program; one without a name is named for its position. -/
def argumentName (index : Nat) (parameter : Parameter) : String :=
  if parameter.name.isEmpty then "arg" ++ toString index else snakeCase parameter.name

/-- The parameters of a handler, each behind a comma and with `mark` in front of its name. -/
def handlerArguments (mark : String) (parameters : List Parameter) : String :=
  String.join (parameters.mapIdx fun index parameter =>
    ", " ++ mark ++ argumentName index parameter ++ ": " ++ (RustType.ofSolidity parameter.typeName).text)

/-- The rule for one function. -/
def instructionRule (function : Signature) (names : HandlerName) : MigrationRule :=
  let name := function.name
  let handler := names.handler
  let context := names.context
  let arguments := handlerArguments "" function.parameters
  { category := .pattern
    evmConcept := "function " ++ name ++ "(" ++ parameterTypes function.parameters ++ ")"
    evmDetail := function.visibility ++ " " ++ function.mutability ++ " function"
    solanaConcept := "Anchor instruction"
    solanaDetail := s!"#[program] handler `{handler}` with its own Context struct"
    rationale :=
      "Each public or external Solidity function becomes one instruction handler in lib.rs. Every account it " ++
        "reads or writes must be listed in the Context."
    complexity := if function.mutability == "payable" then .medium else .low
    snippet := some (lines [
      s!"pub fn {handler}(ctx: Context<{context}>{arguments}) -> Result<()> \x7b",
      s!"    // TODO: migrate {name} logic",
      "    Ok(())",
      "\x7d"]) }

/-- One rule for each function of the main contract that can be called from outside. -/
def instructionRules (analysis : Analysis) : List MigrationRule :=
  match analysis.subject with
  | none => []
  | some contract =>
    List.zipWith instructionRule contract.instructions (handlerNames (contract.instructions.map Signature.name))

/-- The name of the field for a parameter of an event; one whose name gives none is named for its position. -/
def eventFieldName (index : Nat) (parameter : EventParameter) : String :=
  let name := snakeCase parameter.name
  if name.isEmpty then "value" ++ toString index else name

/-- The rule for one event. -/
def eventRule (event : Event) : MigrationRule :=
  let name := event.name
  let fields := event.parameters.mapIdx fun index parameter =>
    "    pub " ++ eventFieldName index parameter ++ ": " ++ (RustType.ofSolidity parameter.typeName).text ++ ","
  let types := event.parameters.map fun parameter => parameter.typeName ++ if parameter.indexed then " indexed" else ""
  { Concepts.event with
    evmConcept := "event " ++ name
    evmDetail := name ++ "(" ++ String.intercalate ", " types ++ ")"
    snippet := some (lines ["#[event]", s!"pub struct {name} \x7b", lines fields, "\x7d"]) }

/-- One rule for each event of the main contract. -/
def eventRules (analysis : Analysis) : List MigrationRule :=
  match analysis.subject with
  | none => []
  | some contract => contract.events.map eventRule

/-! ### Standards, access and patterns -/

/-- The rules for the token standards. -/
def tokenStandardRules (analysis : Analysis) : List MigrationRule :=
  (if analysis.isErc20 then [erc20] else []) ++ if analysis.isErc721 then [erc721] else []

/-- The rules for access control. An owner counts as handled when a concept before mentions one. -/
def accessControlRules (analysis : Analysis) (emitted : List MigrationRule) : List MigrationRule :=
  let handled := emitted.any fun rule => Text.occursIn "owner".toList rule.evmConcept.toList
  (if analysis.hasOwnable && !handled then [ownable] else []) ++
    if analysis.hasAccessControl then [accessControl] else []

/-- The patterns whose concept no rule before has. -/
def missingPatternRules (emitted : List MigrationRule) : List MigrationRule :=
  patterns.filter fun rule => !(emitted.map MigrationRule.evmConcept).contains rule.evmConcept

end ContractMigration
