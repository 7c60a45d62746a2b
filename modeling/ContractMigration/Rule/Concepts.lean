import ContractMigration.Rule.Basic
import ContractMigration.Text.Quoted

/-!
# The catalogue of concepts

The fixed table of what becomes of each concept. The rules of a report are made from these entries, either as they
are or with the details of a declaration put in. No two entries have the same concept, so a concept names its entry.
-/

namespace ContractMigration

namespace Concepts

/-- The storage of a contract becomes a state account. -/
def contractStorage : MigrationRule where
  category := .state
  evmConcept := "contract storage"
  evmDetail := "Persistent key-value storage slots on the EVM"
  evmType := some "storage"
  solanaConcept := "#[account] struct"
  solanaDetail := "Borsh-serialized struct inside a Program-owned account"
  solanaType := some "Account<'info, T>"
  rationale :=
    "The EVM gives each contract its own implicit key-value store. Solana has no implicit storage — all state " ++
      "lives in discrete accounts owned by the program."
  complexity := .medium
  snippet := some (lines [
    "#[account]",
    "#[derive(Default)]",
    "pub struct ProgramState \x7b",
    "    pub authority: Pubkey,  // 32",
    "    pub bump: u8,           //  1",
    "    // add your fields here",
    "\x7d"])
  docsLink := some "https://www.anchor-lang.com/docs/account-types"

/-- A mapping becomes one account per key. -/
def mappingPerKey : MigrationRule where
  category := .storage
  evmConcept := "mapping(K => V)"
  evmDetail := "Solidity hash-map — O(1) key lookup, unbounded entries"
  evmType := some "mapping"
  solanaConcept := "PDA per key"
  solanaDetail := "One account per entry, seeded by [b\"prefix\", key.as_ref()]"
  solanaType := some "Account<'info, EntryData>"
  rationale :=
    "Solana has no on-chain hash-map. Each mapping entry becomes its own PDA account. This enables parallel " ++
      "access and on-chain enumeration via indexers, but requires knowing the key upfront."
  complexity := .high
  snippet := some (lines [
    "// In Context struct:",
    "#[account(",
    "    init_if_needed,",
    "    payer = payer,",
    "    space = 8 + EntryData::LEN,",
    "    seeds = [b\"entry\", key.as_ref()],",
    "    bump",
    ")]",
    "pub entry: Account<'info, EntryData>,",
    "",
    "#[account]",
    "pub struct EntryData \x7b",
    "    pub key: Pubkey,",
    "    pub value: u64,",
    "    pub bump: u8,",
    "\x7d"])
  docsLink := some "https://www.anchor-lang.com/docs/pdas"

/-- An owner becomes an authority that has to sign. -/
def ownable : MigrationRule where
  category := .access
  evmConcept := "address owner (Ownable)"
  evmDetail := "OpenZeppelin Ownable — msg.sender == owner check"
  evmType := some "address"
  solanaConcept := "authority: Pubkey + Signer constraint"
  solanaDetail := "Store authority in state; validate with has_one or constraint"
  solanaType := some "Signer<'info>"
  rationale :=
    "There is no msg.sender on Solana. Signer identity must be validated explicitly in the account Context struct."
  complexity := .low
  snippet := some (lines [
    "#[account(",
    "    mut,",
    "    has_one = authority @ ErrorCode::Unauthorized",
    ")]",
    "pub state: Account<'info, ProgramState>,",
    "pub authority: Signer<'info>,"])
  docsLink := some "https://www.anchor-lang.com/docs/account-constraints"

/-- Roles become one account per grant. -/
def accessControl : MigrationRule where
  category := .access
  evmConcept := "AccessControl (roles)"
  evmDetail := "bytes32 roles, hasRole / grantRole / revokeRole"
  evmType := some "mapping(bytes32 => mapping(address => bool))"
  solanaConcept := "RoleGrant PDA per (role, user)"
  solanaDetail := "PDA existence = granted; closing the account = revoke"
  solanaType := some "Account<'info, RoleGrant>"
  rationale :=
    "Role membership is account-based on Solana. A PDA seeded by [role_id, user_pubkey] that exists = " ++
      "granted. Deterministic address makes checking cheap."
  complexity := .high
  snippet := some (lines [
    "#[account]",
    "pub struct RoleGrant \x7b",
    "    pub role:       [u8; 32],",
    "    pub grantee:    Pubkey,",
    "    pub granted_by: Pubkey,",
    "    pub bump:       u8,",
    "\x7d",
    "",
    "impl RoleGrant \x7b",
    "    pub const LEN: usize = 8 + 32 + 32 + 32 + 1;",
    "\x7d"])

/-- An ERC-20 token becomes a token of the shared token program. -/
def erc20 : MigrationRule where
  category := .token
  evmConcept := "ERC-20 token"
  evmDetail := "transfer / approve / transferFrom / balanceOf"
  solanaConcept := "SPL Token program"
  solanaDetail := "Shared token program; each holder has an Associated Token Account (ATA)"
  rationale :=
    "You do not rewrite token logic. The SPL Token program (or Token-2022 for extensions) is a shared " ++
      "on-chain program. Holders interact via ATAs — no custom program needed for basic fungible tokens."
  complexity := .low
  snippet := some (lines [
    "use anchor_spl::token::\x7bself, Token, TokenAccount, Mint\x7d;",
    "use anchor_spl::associated_token::AssociatedToken;",
    "",
    "// In context struct:",
    "pub mint: Account<'info, Mint>,",
    "#[account(",
    "    associated_token::mint = mint,",
    "    associated_token::authority = user,",
    ")]",
    "pub user_ata: Account<'info, TokenAccount>,"])
  docsLink := some "https://spl.solana.com/token"

/-- An ERC-721 token becomes a token with a supply of one. -/
def erc721 : MigrationRule where
  category := .token
  evmConcept := "ERC-721 NFT"
  evmDetail := "ownerOf / safeTransferFrom / tokenURI"
  solanaConcept := "SPL Token (supply=1) + Metaplex"
  solanaDetail := "NFT = mint with supply 1, decimals 0; metadata via mpl-token-metadata"
  rationale :=
    "Solana NFTs are standardized via Metaplex. tokenURI maps to the metadata URI field. Use Metaplex SDK for " ++
      "minting and updates."
  complexity := .medium
  docsLink := some "https://developers.metaplex.com/token-metadata"

/-- An event becomes an event structure. -/
def event : MigrationRule where
  category := .event
  evmConcept := "Solidity event / emit"
  evmDetail := "Bloom-filter indexed logs in the block"
  solanaConcept := "Anchor #[event] + emit!()"
  solanaDetail := "Emitted via sol_log_data; parsed by Anchor client addEventListener"
  rationale :=
    "Solana has no native log indexing like Ethereum. Anchor events use base64-encoded CPI logs that clients " ++
      "subscribe to. Off-chain indexers (Helius, Shyft) can index these."
  complexity := .low
  snippet := some (lines [
    "#[event]",
    "pub struct MyEvent \x7b",
    "    pub user:   Pubkey,",
    "    pub amount: u64,",
    "\x7d",
    "",
    "// In instruction:",
    "emit!(MyEvent \x7b user: ctx.accounts.user.key(), amount \x7d);"])

/-- A constructor becomes an instruction that creates the state. -/
def constructorPattern : MigrationRule where
  category := .pattern
  evmConcept := "constructor()"
  evmDetail := "Runs once at deployment; sets initial state"
  solanaConcept := "initialize instruction"
  solanaDetail := "An init instruction that creates the state PDA on first call"
  rationale :=
    "Solana programs have no constructors. An initialize instruction protected by an is_initialized flag " ++
      "serves the same purpose."
  complexity := .low
  snippet := some (lines [
    "pub fn initialize(ctx: Context<Initialize>, bump: u8) -> Result<()> \x7b",
    "    let s = &mut ctx.accounts.state;",
    "    require!(!s.is_initialized, ErrorCode::AlreadyInitialized);",
    "    s.authority = ctx.accounts.authority.key();",
    "    s.bump = bump;",
    "    s.is_initialized = true;",
    "    Ok(())",
    "\x7d"])

/-- A requirement becomes a checked condition with an error code. -/
def requirePattern : MigrationRule where
  category := .pattern
  evmConcept := "require(condition, \"msg\")"
  evmDetail := "Reverts transaction with error string on false"
  solanaConcept := "require!(condition, ErrorCode::Variant)"
  solanaDetail := "#[error_code] enum + require! macro"
  rationale :=
    "Anchor's require! macro maps directly to require(). Error codes are strongly typed enums — no " ++
      "stringly-typed messages at runtime."
  complexity := .low
  snippet := some (lines [
    "#[error_code]",
    "pub enum ErrorCode \x7b",
    "    #[msg(\"Unauthorized\")]",
    "    Unauthorized = 6000,",
    "    #[msg(\"Amount must be > 0\")]",
    "    InvalidAmount = 6001,",
    "\x7d",
    "",
    "// Usage:",
    "require!(amount > 0, ErrorCode::InvalidAmount);"])

/-- The block time becomes the clock. -/
def timestampPattern : MigrationRule where
  category := .pattern
  evmConcept := "block.timestamp"
  evmDetail := "Unix timestamp of current block"
  solanaConcept := "Clock::get()?.unix_timestamp"
  solanaDetail := "Must request Clock sysvar — pass as account or via Clock::get()"
  rationale :=
    "Solana's wall-clock time is available via the Clock sysvar. Note: Solana slot time varies (~400ms) and " ++
      "is not as precise as Ethereum block time."
  complexity := .low
  snippet := some (lines [
    "let clock = Clock::get()?;",
    "let now = clock.unix_timestamp; // i64 Unix seconds",
    "require!(now >= state.unlock_at, ErrorCode::TooEarly);"])

/-- A guard against reentrancy is largely not needed. -/
def reentrancyPattern : MigrationRule where
  category := .pattern
  evmConcept := "ReentrancyGuard / nonReentrant"
  evmDetail := "Prevents re-entrant calls within same transaction"
  solanaConcept := "Largely not needed — Solana runtime prevents most reentrancy"
  solanaDetail := "Cross-program invocations (CPIs) are validated at the runtime level"
  rationale :=
    "Solana's account model and runtime design prevent most classic reentrancy attacks. However, carefully " ++
      "audit CPI flows and avoid re-using writable accounts across CPIs."
  complexity := .low

/-- Received value becomes an explicit transfer. -/
def payablePattern : MigrationRule where
  category := .pattern
  evmConcept := "payable / msg.value"
  evmDetail := "ETH sent with the transaction"
  solanaConcept := "SOL transfer via SystemProgram::transfer"
  solanaDetail := "Debit payer account explicitly; no implicit value attachment"
  rationale :=
    "SOL transfers are explicit on Solana. Use SystemProgram::transfer in a CPI to move lamports between accounts."
  complexity := .medium
  snippet := some (lines [
    "anchor_lang::system_program::transfer(",
    "    CpiContext::new(",
    "        ctx.accounts.system_program.to_account_info(),",
    "        anchor_lang::system_program::Transfer \x7b",
    "            from: ctx.accounts.payer.to_account_info(),",
    "            to:   ctx.accounts.vault.to_account_info(),",
    "        \x7d,",
    "    ),",
    "    amount_lamports,",
    ")?;"])

/-- All entries, in order. -/
def entries : List MigrationRule :=
  [contractStorage, mappingPerKey, ownable, accessControl, erc20, erc721, event, constructorPattern,
    requirePattern, timestampPattern, reentrancyPattern, payablePattern]

/-- The entries for patterns, which every report gets. -/
def patterns : List MigrationRule :=
  entries.filter fun rule => rule.category == .pattern

/-- A concept that the catalogue has no entry for. -/
structure UnknownConcept where
  concept : String
deriving DecidableEq, Repr

/-- The wording of an unknown concept. -/
def UnknownConcept.message (unknown : UnknownConcept) : String :=
  String.ofList (Text.quoted unknown.concept.toList)

/-- The entry for a concept. -/
def template (concept : String) : Except UnknownConcept MigrationRule :=
  match entries.find? fun rule => rule.evmConcept == concept with
  | some rule => .ok rule
  | none => .error ⟨concept⟩

end Concepts

end ContractMigration
