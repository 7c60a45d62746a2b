import ContractMigration.Rule.Families

/-!
# The program file

The Rust source of the program: a handler and a context for each of the first eight instructions, the state account
with its size, an account per mapping, and the error codes. Handlers and contexts are named together, so each handler
refers to the context that stands for it. Every field of the state account has one term in its size.
-/

namespace ContractMigration.Skeleton

/-- The id of a program that is not deployed yet. -/
def placeholderId : String :=
  "Fg6PaFpoGXkYsidMpWTK6W2BeZ7FEfcYkg476zPFsLnS"

/-- The number of instructions that are written out. -/
def mostHandlers : Nat :=
  8

/-- Names for the functions of a list. -/
def namesOf (functions : List Signature) : List HandlerName :=
  handlerNames (functions.map Signature.name)

/-! ### Instructions -/

/-- The handler that creates the state. -/
def initializeHandler (contractName : String) : String :=
  lines [
    "    pub fn initialize(ctx: Context<Initialize>, bump: u8) -> Result<()> \x7b",
    "        let state = &mut ctx.accounts.state;",
    "        state.authority = ctx.accounts.authority.key();",
    "        state.bump = bump;",
    s!"        msg!(\"{contractName} initialized\");",
    "        Ok(())",
    "    \x7d"]

/-- The handler for one function, to be filled in. -/
def handler (function : Signature) (names : HandlerName) : String :=
  let name := function.name
  let types := parameterTypes function.parameters
  let handler := names.handler
  let context := names.context
  let arguments := handlerArguments "_" function.parameters
  lines [
    "", "",
    s!"    /// Migrated from Solidity: {name}({types})",
    s!"    pub fn {handler}(ctx: Context<{context}>{arguments}) -> Result<()> \x7b",
    "        let _state = &mut ctx.accounts.state;",
    s!"        // TODO: implement {name} logic",
    "        Ok(())",
    "    \x7d"]

/-- All handlers. -/
def handlers (contractName : String) (functions : List Signature) : String :=
  let shown := functions.take mostHandlers
  initializeHandler contractName ++ String.join (List.zipWith handler shown (namesOf shown))

/-! ### Accounts -/

/-- The field of the state account for a variable. -/
def stateField (declared : StateVariable) : String :=
  "    pub " ++ snakeCase declared.name ++ ": " ++ (RustType.ofSolidity declared.typeName).text ++ ",\n"

/-- The term for a variable in the size of the state account. -/
def sizeTerm (declared : StateVariable) : String :=
  "\n        + " ++ RustType.sizeText (RustType.ofSolidity declared.typeName).text ++ "  // " ++ declared.name

/-- The name of the account structure for a mapping. -/
def entryName (declared : StateVariable) : String :=
  pascalCase declared.name ++ "Entry"

/-- The names of the account structures: the state, then one entry per mapping. -/
def accountNames (contract : Contract) : List String :=
  (contract.name ++ "State") :: contract.mappings.map entryName

/-- The state account and its size. -/
def stateAccount (contract : Contract) : String :=
  let name := contract.name
  let fields := String.join (contract.fieldVariables.map stateField)
  let sizes := String.join (contract.fieldVariables.map sizeTerm)
  lines [
    "#[account]",
    "#[derive(Default)]",
    s!"pub struct {name}State \x7b",
    "    pub authority: Pubkey,",
    "    pub bump: u8,",
    s!"{fields}\x7d",
    "",
    s!"impl {name}State \x7b",
    "    pub const LEN: usize = 8    // discriminator",
    "        + 32                    // authority",
    s!"        + 1                     // bump{sizes};",
    "\x7d"]

/-- The account for the entries of a mapping. -/
def entryAccount (declared : StateVariable) : String :=
  let entry := entryName declared
  lines [
    "", "",
    "#[account]",
    s!"pub struct {entry} \x7b",
    "    pub key: Pubkey,",
    "    pub value: u64,",
    "    pub bump: u8,",
    "\x7d"]

/-- All account structures, with a note about the accounts of tokens. -/
def accounts (contract : Contract) (isErc20 : Bool) : String :=
  let note := if isErc20 then
      lines [
        "", "",
        "// SPL Token accounts are managed by the Token program — no custom struct needed.",
        "// Use Mint and TokenAccount from anchor_spl::token."]
    else ""
  stateAccount contract ++ String.join (contract.mappings.map entryAccount) ++ note

/-! ### Contexts -/

/-- The context of the handler that creates the state. -/
def initializeContext (contractName seed : String) : String :=
  lines [
    "#[derive(Accounts)]",
    "#[instruction(bump: u8)]",
    "pub struct Initialize<'info> \x7b",
    "    #[account(",
    "        init,",
    "        payer = authority,",
    s!"        space = {contractName}State::LEN,",
    s!"        seeds = [b\"{seed}\", authority.key().as_ref()],",
    "        bump",
    "    )]",
    s!"    pub state: Account<'info, {contractName}State>,",
    "",
    "    #[account(mut)]",
    "    pub authority: Signer<'info>,",
    "",
    "    pub system_program: Program<'info, System>,",
    "\x7d"]

/-- The context of one handler. -/
def context (contractName seed : String) (names : HandlerName) : String :=
  let context := names.context
  lines [
    "", "",
    "#[derive(Accounts)]",
    s!"pub struct {context}<'info> \x7b",
    "    #[account(",
    "        mut,",
    s!"        seeds = [b\"{seed}\", authority.key().as_ref()],",
    "        bump = state.bump,",
    "        constraint = authority.key() == state.authority @ ErrorCode::Unauthorized",
    "    )]",
    s!"    pub state: Account<'info, {contractName}State>,",
    "",
    "    pub authority: Signer<'info>,",
    "\x7d"]

/-- All contexts. -/
def contexts (contract : Contract) (functions : List Signature) : String :=
  let seed := snakeCase contract.name
  initializeContext contract.name seed ++
    String.join ((namesOf (functions.take mostHandlers)).map (context contract.name seed))

/-! ### Errors -/

/-- The error codes of the program with their messages. -/
def errorVariants (analysis : Analysis) : List (String × String) :=
  [("Unauthorized", "Signer is not authorized"), ("InvalidAmount", "Amount must be greater than zero"),
    ("InsufficientFunds", "Insufficient balance")] ++
    (if analysis.isErc20 then [("TransferFailed", "Token transfer failed")] else []) ++
    if analysis.hasAccessControl then [("MissingRole", "Caller does not have required role")] else []

/-- The error codes, numbered from 6000. -/
def errorEnum (analysis : Analysis) : String :=
  let variants := (errorVariants analysis).mapIdx fun index code =>
    let (name, message) := code
    let number := 6000 + index
    lines [s!"    #[msg(\"{message}\")]", s!"    {name} = {number},"]
  lines ["#[error_code]", "pub enum ErrorCode \x7b", lines variants, "\x7d"]

/-! ### The file -/

/-- The source of the program. -/
def programSource (contract : Contract) (analysis : Analysis) (programName : String) : String :=
  let functions := contract.instructions
  lines ([
    "use anchor_lang::prelude::*;"] ++
    (if analysis.isErc20 then [
      "use anchor_spl::token::\x7bself, Token, TokenAccount, Mint\x7d;",
      "use anchor_spl::associated_token::AssociatedToken;"]
    else []) ++ [
    "",
    s!"declare_id!(\"{placeholderId}\");",
    "",
    "// ── Program ──",
    "#[program]",
    s!"pub mod {programName} \x7b",
    "    use super::*;",
    "",
    handlers contract.name functions,
    "\x7d",
    "",
    "// ── Account Structs ──",
    accounts contract analysis.isErc20,
    "",
    "// ── Context Structs ──",
    contexts contract functions,
    "",
    "// ── Errors ──",
    errorEnum analysis,
    ""])

end ContractMigration.Skeleton
