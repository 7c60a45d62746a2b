import ContractMigration.Analysis.Basic
import ContractMigration.Checklist.Basic
import ContractMigration.Skeleton.Basic
import ContractMigration.Time.Timestamp
import ContractMigration.Validation.Basic

/-!
# The tasks of a migration

Which tasks there are for an analysis and for a skeleton, if one was made. The sections always come in the same order,
and the one about tokens is left out for anything that is no token.

The record of a checklist holds its progress in percent and takes no other number. A checklist is complete only when
its record takes it.
-/

namespace ContractMigration.Checklist

/-! ### Tasks that do not depend on the contract -/

/-- The tests to write and to run. -/
def testingTasks : List MigrationTask := [
  { text := "Write unit test for initialize instruction", urgency := .critical },
  { text := "Write tests for all public instruction handlers", urgency := .critical },
  { text := "Test PDA derivation and account creation/closure", urgency := .high },
  { text := "Test unauthorized access rejection", urgency := .high },
  { text := "`anchor test` — all tests passing on localnet", urgency := .critical },
  { text := "Use LiteSVM or Mollusk for fast in-process unit tests", urgency := .medium,
    detail := some "Much faster than spinning up a test-validator. Great for unit-testing individual instructions." },
  { text := "Integration test against devnet with real token accounts", urgency := .high }]

/-- What to check before strangers can call the program. -/
def securityTasks : List MigrationTask := [
  { text := "Verify all account owner checks (program owns PDAs)", urgency := .critical },
  { text := "Validate all account constraints in Context structs", urgency := .critical },
  { text := "Ensure no account is writable that should be read-only", urgency := .critical },
  { text := "Check for integer overflow — use checked_add, checked_mul", urgency := .critical },
  { text := "Signer spoofing prevention — all privileged callers use Signer<'info>", urgency := .critical },
  { text := "Audit CPI flows — verify callee program IDs match expected", urgency := .high },
  { text := "Review compute unit usage — add ComputeBudget instruction if >200k CUs", urgency := .medium },
  { text := "Run `anchor idl --out idl.json` and review for unintended exposure", urgency := .medium },
  { text := "Request peer code review or professional audit before mainnet", urgency := .high }]

/-- How the holders of a token come over. -/
def tokenTasks : List MigrationTask := [
  { text := "Install @wormhole-foundation/sdk", urgency := .critical,
    detail := some ("npm install @wormhole-foundation/sdk @wormhole-foundation/sdk-evm " ++
      "@wormhole-foundation/sdk-solana") },
  { text := "Initialize Wormhole SDK: wormhole('Testnet', [evm, solana])", urgency := .critical },
  { text := "Snapshot all EVM token holders and balances", urgency := .critical },
  { text := "Verify total supply matches sum of all holder balances", urgency := .critical },
  { text := "Collect EVM address → Solana wallet mapping from holders", urgency := .critical },
  { text := "Deploy and test NTT Manager + Transceiver on testnet (Sepolia → devnet)", urgency := .high },
  { text := "Run end-to-end NTT transfer test using TypeScript SDK", urgency := .high },
  { text := "Apply to Sunrise for liquidity routing (sunrisedefi.com)", urgency := .high,
    detail := some "Sunrise is the canonical gateway for new assets entering Solana with native liquidity." },
  { text := "Distribute SPL tokens to holders on mainnet", urgency := .critical },
  { text := "Revoke mint authority after full distribution (fixed supply)", urgency := .medium },
  { text := "Deploy liquidity pool on Orca or Raydium", urgency := .medium }]

/-- The way to the main chain. -/
def deploymentTasks : List MigrationTask := [
  { text := "`anchor deploy` to devnet — verify program ID matches Anchor.toml", urgency := .critical },
  { text := "Run full test suite against devnet deployment", urgency := .critical },
  { text := "Verify program upgrade authority wallet is secure", urgency := .high },
  { text := "`anchor deploy` to mainnet-beta", urgency := .critical },
  { text := "Verify on Solana Explorer (explorer.solana.com)", urgency := .high },
  { text := "Publish IDL on-chain: `anchor idl init <programId>`", urgency := .medium },
  { text := "Update frontend / SDK with mainnet program ID", urgency := .critical },
  { text := "Monitor for errors in first 48 hours using Helius / Shyft alerts", urgency := .high }]

/-! ### Tasks that depend on the contract -/

/-- The number of instructions that get a task of their own. -/
def mostInstructionTasks : Nat :=
  5

/-- What was found out and what has to be understood. -/
def analysisTasks (analysis : Analysis) : List MigrationTask :=
  let standard := analysis.tokenStandard
  let complexity := analysis.complexity.word
  let lineCount := analysis.lineCount
  let mappings := analysis.mappings.length
  let errors := analysis.errors.length
  [ { text := "Parse Solidity source code", urgency := .critical, automated := true },
    { text := s!"Detected token standard: {standard}", urgency := .critical, automated := true },
    { text := "Review all state variable → Solana account field mappings", urgency := .high },
    { text := "Identify all external contract calls / CPIs required", urgency := .high,
      detail := some ("EVM external calls become Anchor CPIs. Each called program must be included in the " ++
        "Context struct.") },
    { text := "Document business logic that must be preserved exactly", urgency := .critical },
    { text := s!"Contract complexity: {complexity} ({lineCount} lines)",
      urgency := if analysis.complexity = .high then .high else .medium, automated := true }] ++
    (if analysis.hasMappings then
      [{ text := s!"Design PDA seed scheme for {mappings} mapping(s)", urgency := .critical,
         detail := some ("Each mapping entry = 1 PDA. Seeds must be unique per entry. Store the bump in the " ++
          "account.") }]
    else []) ++
    match analysis.errors with
    | [] => []
    | first :: _ =>
      [{ text := s!"Resolve {errors} source analysis warning(s) — results may be partial", urgency := .high,
         detail := some first }]

/-- The task for one instruction. -/
def instructionTask (instruction : String) : MigrationTask where
  text := "Implement instruction: " ++ instruction
  urgency := .critical

/-- What has to be written. -/
def programTasks (analysis : Analysis) (skeleton : Option Skeleton) : List MigrationTask :=
  let hasFiles := match skeleton with
    | some skeleton => !skeleton.files.isEmpty
    | none => false
  let instructions := match skeleton with
    | some skeleton => skeleton.instructions.take mostInstructionTasks
    | none => []
  [ { text := "Anchor skeleton generated (lib.rs, Anchor.toml, Cargo.toml, tests)", urgency := .high,
      automated := hasFiles },
    { text := "Implement all instruction handlers (replace TODO blocks in lib.rs)", urgency := .critical },
    { text := "Verify account space (LEN) for every #[account] struct", urgency := .critical,
      detail := some ("Under-allocated accounts fail at init. Add 64+ bytes headroom. Anchor discriminator = 8 " ++
        "bytes.") },
    { text := "Add typed error codes for all business rule violations", urgency := .high },
    { text := "Implement Anchor #[event] + emit!() for all Solidity events", urgency := .medium },
    { text := "`anchor build` — zero compiler errors or warnings", urgency := .critical }] ++
    instructions.map instructionTask ++
    (if analysis.isErc20 then
      [ { text := "Deploy SPL Token mint (match ERC-20 decimals)", urgency := .critical },
        { text := "Integrate anchor_spl::token for transfer / mint / burn", urgency := .high },
        { text := "Test Associated Token Account (ATA) creation flow", urgency := .high }]
    else []) ++
    (if analysis.isErc721 then
      [ { text := "Integrate Metaplex Token Metadata for NFT metadata URI", urgency := .high },
        { text := "Implement mint-per-NFT with supply=1, decimals=0", urgency := .high }]
    else []) ++
    if analysis.hasOwnable || analysis.hasAccessControl then
      [{ text := "Implement authority / role checks in all privileged instructions", urgency := .critical,
         detail := some ("Use `has_one = authority` or " ++
          "`constraint = authority.key() == state.authority @ ErrorCode::Unauthorized`.") }]
    else []

/-- All tasks, section by section. -/
def sectionTasks (analysis : Analysis) (skeleton : Option Skeleton) : List (String × List MigrationTask) :=
  [("Analysis", analysisTasks analysis), ("Program Dev", programTasks analysis skeleton), ("Testing", testingTasks),
    ("Security", securityTasks)] ++
    (if analysis.isErc20 || analysis.isErc721 then [("Token Migration", tokenTasks)] else []) ++
    [("Deployment", deploymentTasks)]

/-- The checklist for an analysis and a skeleton, made at some time. -/
def build (analysis : Analysis) (skeleton : Option Skeleton) (now : Int) : Checklist :=
  let items := number (sectionTasks analysis skeleton)
  { contract := (analysis.subject.map Contract.name).getD "Unknown"
    tokenStandard := analysis.tokenStandard
    complexity := analysis.complexity.word
    generatedAt := timestamp now
    items
    sections := sectionsOf items
    progress := progressOf items }

/-! ### The record -/

/-- The least and the greatest progress that a record takes. -/
def progressLimits : Int × Int :=
  (0, 100)

/-- The record of a checklist. -/
def record (checklist : Checklist) : Validation.Checked Checklist :=
  (fun progress => { checklist with progress }) <$>
    (Validation.within progressLimits checklist.progress).under (.field "progress")

/-- The record of the checklist for an analysis and a skeleton, made at some time. -/
def buildRecord (analysis : Analysis) (skeleton : Option Skeleton) (now : Int) : Validation.Checked Checklist :=
  (build analysis skeleton now).record

end ContractMigration.Checklist
