import ContractMigration.Skeleton.Basic
import ContractMigration.Skeleton.Program

/-!
# The workspace

The four files of a workspace: the program, the two manifests, and a test that calls the first three instructions.
-/

namespace ContractMigration.Skeleton

/-! ### Manifests -/

/-- The version of the framework that the manifests ask for. -/
def frameworkVersion : String :=
  "0.30.0"

/-- The manifest of the workspace. -/
def workspaceManifest (programName : String) : String :=
  lines [
    "[features]",
    "seeds = false",
    "skip-lint = false",
    "",
    "[programs.localnet]",
    s!"{programName} = \"{placeholderId}\"",
    "",
    "[registry]",
    "url = \"https://api.apr.dev\"",
    "",
    "[provider]",
    "cluster = \"Devnet\"",
    "wallet = \"~/.config/solana/id.json\"",
    "",
    "[scripts]",
    "test = \"yarn run ts-mocha -p ./tsconfig.json -t 1000000 tests/**/*.ts\"",
    ""]

/-- The manifest of the program. -/
def programManifest (programName : String) : String :=
  lines [
    "[package]",
    s!"name = \"{programName}\"",
    "version = \"0.1.0\"",
    "description = \"Migrated from EVM\"",
    "edition = \"2021\"",
    "",
    "[lib]",
    "crate-type = [\"cdylib\", \"lib\"]",
    s!"name = \"{programName}\"",
    "",
    "[features]",
    "no-entrypoint = []",
    "no-idl = []",
    "no-log-ix-name = []",
    "cpi = [\"no-entrypoint\"]",
    "default = []",
    "",
    "[dependencies]",
    s!"anchor-lang = \x7b version = \"{frameworkVersion}\", features = [\"init-if-needed\"] \x7d",
    s!"anchor-spl = \x7b version = \"{frameworkVersion}\", features = [\"token\", \"associated_token\"] \x7d",
    ""]

/-! ### Tests -/

/-- The number of instructions that the test calls. -/
def mostTestCases : Nat :=
  3

/-- The test case for one function. -/
def testCase (function : Signature) (names : HandlerName) : String :=
  let name := function.name
  let handler := names.handler
  lines [
    s!"  it(\"Calls {handler}\", async () => \x7b",
    s!"    // TODO: implement test for {name}",
    "    const tx = await program.methods",
    s!"      .{handler}()",
    "      .accounts(\x7b",
    "        state: statePda,",
    "        authority: authority.publicKey,",
    "      \x7d)",
    "      .rpc();",
    s!"    console.log(\"{name} tx:\", tx);",
    "  \x7d);"]

/-- The test of the program. -/
def testSource (contract : Contract) (programName : String) : String :=
  let typeName := capitalized programName
  let seed := snakeCase contract.name
  let functions := contract.instructions.take mostTestCases
  let cases := String.intercalate "\n\n" (List.zipWith testCase functions (namesOf functions))
  lines [
    "import * as anchor from \"@coral-xyz/anchor\";",
    "import \x7b Program \x7d from \"@coral-xyz/anchor\";",
    s!"import \x7b {typeName} \x7d from \"../target/types/{programName}\";",
    "import \x7b expect \x7d from \"chai\";",
    "",
    s!"describe(\"{programName}\", () => \x7b",
    "  const provider = anchor.AnchorProvider.env();",
    "  anchor.setProvider(provider);",
    "",
    s!"  const program = anchor.workspace.{typeName} as Program<{typeName}>;",
    "  const authority = provider.wallet;",
    "",
    "  let statePda: anchor.web3.PublicKey;",
    "  let stateBump: number;",
    "",
    "  before(async () => \x7b",
    "    [statePda, stateBump] = anchor.web3.PublicKey.findProgramAddressSync(",
    s!"      [Buffer.from(\"{seed}\"), authority.publicKey.toBuffer()],",
    "      program.programId",
    "    );",
    "  \x7d);",
    "",
    "  it(\"Initializes the program state\", async () => \x7b",
    "    const tx = await program.methods",
    "      .initialize(stateBump)",
    "      .accounts(\x7b",
    "        state: statePda,",
    "        authority: authority.publicKey,",
    "        systemProgram: anchor.web3.SystemProgram.programId,",
    "      \x7d)",
    "      .rpc();",
    "",
    "    console.log(\"Initialize tx:\", tx);",
    "",
    s!"    const state = await program.account.{seed}State.fetch(statePda);",
    "    expect(state.authority.toString()).to.equal(authority.publicKey.toString());",
    "  \x7d);",
    "",
    cases,
    "\x7d);",
    ""]

/-! ### The skeleton -/

/-- What the one who fills in the skeleton should know. -/
def warningsFor (analysis : Analysis) : List String :=
  let count := analysis.errors.length
  (if analysis.isErc20 then ["ERC-20 detected — consider using SPL Token instead of reimplementing."] else []) ++
    (if analysis.isErc721 then ["ERC-721 detected — consider Metaplex Token Metadata program."] else []) ++
    (if analysis.complexity = .high then
      ["High complexity contract — manual review of account sizing required."] else []) ++
    if count = 0 then [] else [s!"Source analysis reported {count} error(s) — skeleton may be incomplete."]

/-- The skeleton for the main contract of an analysis. -/
def generate (analysis : Analysis) : Skeleton :=
  match analysis.subject with
  | none => { programName := "migration_example", warnings := ["No contract found."] }
  | some contract =>
    let name := snakeCase contract.name
    { programName := name
      files := [
        ⟨s!"programs/{name}/src/lib.rs", .rust, programSource contract analysis name⟩,
        ⟨"Anchor.toml", .toml, workspaceManifest name⟩,
        ⟨s!"programs/{name}/Cargo.toml", .toml, programManifest name⟩,
        ⟨s!"tests/{name}.ts", .typescript, testSource contract name⟩]
      instructions := (namesOf contract.instructions).map HandlerName.handler
      accountStructs := accountNames contract
      warnings := warningsFor analysis }

end ContractMigration.Skeleton
