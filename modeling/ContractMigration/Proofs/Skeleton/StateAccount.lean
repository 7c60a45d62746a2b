import ContractMigration.Analysis.Recovery
import ContractMigration.Proofs.Rust.Casing
import ContractMigration.Proofs.Skeleton.Layout
import Mathlib.Data.List.Nodup

/-!
# The fields of the state account

The state account has two fields of its own and one for each variable that is no mapping, and its size has one term for
each of them in the same order (`stateAccount_eq`). The variables are listed twice to write this, once for the fields
and once for the terms, but both lists say the same about a field: its size is the size of its type.

The names of the fields are in snake case, and nothing keeps them apart. Two variables share a field when their names
differ in case and underscores only as snake case ignores them, and a variable can take the name of one of the two
other fields (`state_fields_iff`).
-/

namespace ContractMigration.Skeleton

/-- A field of the state account, with the comment on its size. -/
structure StateField where
  name : String
  type : RustType
  comment : String
deriving DecidableEq, Repr

namespace StateField

/-- The field as it is written. -/
def text (field : StateField) : String :=
  "    pub " ++ field.name ++ ": " ++ field.type.text ++ ",\n"

/-- The term for the field in the size of the account: the size of its type. -/
def term (field : StateField) : String :=
  "\n        + " ++ RustType.sizeText field.type.text ++ field.comment

def authority : StateField :=
  ⟨"authority", .pubkey, "                    // authority"⟩

def bump : StateField :=
  ⟨"bump", .u8, "                     // bump"⟩

def ofVariable (declared : StateVariable) : StateField :=
  ⟨snakeCase declared.name, .ofSolidity declared.typeName, "  // " ++ declared.name⟩

end StateField

/-- The fields of the state account, in order. -/
def stateFields (contract : Contract) : List StateField :=
  .authority :: .bump :: contract.fieldVariables.map .ofVariable

/-- An account with fields, and its size: the discriminator and one term for each field. The comment of the last term
goes on to the end of the line, so the semicolon is part of it. -/
def accountText (contractName : String) (fields : List StateField) : String :=
  lines [
    "#[account]",
    "#[derive(Default)]",
    "pub struct " ++ contractName ++ "State \x7b",
    String.join (fields.map StateField.text) ++ "\x7d",
    "",
    "impl " ++ contractName ++ "State \x7b",
    "    pub const LEN: usize = 8    // discriminator" ++ String.join (fields.map StateField.term) ++ ";",
    "\x7d"]

/-- The fields and the terms of the size are written from one list. -/
theorem stateAccount_eq (contract : Contract) :
    stateAccount contract = accountText contract.name (stateFields contract) := by
  have hauthority : StateField.authority.text = "    pub authority: Pubkey," ++ "\n" ∧
      StateField.authority.term = "\n" ++ "        + 32                    // authority" := by decide +kernel
  have hbump : StateField.bump.text = "    pub bump: u8," ++ "\n" ∧
      StateField.bump.term = "\n" ++ "        + 1                     // bump" := by decide +kernel
  have hfield : StateField.text ∘ StateField.ofVariable = stateField := rfl
  have hterm : StateField.term ∘ StateField.ofVariable = sizeTerm := funext fun _ => (String.append_assoc ..).symm
  have hend : lines ["\x7d"] = "\x7d" := rfl
  rw [stateAccount, accountText, stateFields]
  simp only [List.map_cons, List.map_map, String.join_cons, hauthority, hbump, hfield, hterm, lines_cons_cons, hend,
    String.append_assoc]
  rfl

/-- The account stands in the program file. -/
theorem exists_file?_stateAccount {analysis : Analysis} {contract : Contract} (h : analysis.subject = some contract) :
    ∃ before after, (generate analysis).file? (programPath contract) =
      some ⟨programPath contract, .rust, before ++ accountText contract.name (stateFields contract) ++ after⟩ := by
  have hjoined : joined (accountDefinitions contract) =
      accountText contract.name (stateFields contract) ++ joined (contract.mappings.map entryDefinition) := by
    rw [joined, accountDefinitions, List.map_cons, String.join_cons, text_stateDefinition, stateAccount_eq]
    rfl
  refine ⟨programOpening contract analysis (snakeCase contract.name) ++ String.join (handlerTexts contract) ++
    "\n\x7d\n\n// ── Account Structs ──\n",
    joined (contract.mappings.map entryDefinition) ++ tokenNote analysis.isErc20 ++
    "\n\n// ── Context Structs ──\n" ++ joined (initializeDefinition contract :: contextDefinitions contract) ++
    "\n\n// ── Errors ──\n" ++ (errorDefinition analysis).text ++ "\n", ?_⟩
  rw [file?_programPath h, programLayout, hjoined]
  simp only [String.append_assoc]

/-! ### The names of the fields -/

theorem map_name_stateFields (contract : Contract) :
    (stateFields contract).map StateField.name =
      "authority" :: "bump" :: contract.fieldVariables.map fun declared => snakeCase declared.name := by
  rw [stateFields, List.map_cons, List.map_cons, List.map_map]
  rfl

theorem nodup_stateFields_iff {contract : Contract}
    (hdistinct : (contract.stateVariables.map StateVariable.name).Nodup) :
    ((stateFields contract).map StateField.name).Nodup ↔
      (∀ declared ∈ contract.fieldVariables, snakeCase declared.name ∉ ["authority", "bump"]) ∧
        ∀ declared ∈ contract.fieldVariables, ∀ other ∈ contract.fieldVariables, declared.name ≠ other.name →
          snakeCase declared.name ≠ snakeCase other.name := by
  have hnames : (contract.fieldVariables.map StateVariable.name).Nodup :=
    hdistinct.sublist (List.filter_sublist.map _)
  have hmap : (contract.fieldVariables.map fun declared => snakeCase declared.name) =
      (contract.fieldVariables.map StateVariable.name).map snakeCase := by
    rw [List.map_map]
    rfl
  have hvariables : (contract.fieldVariables.map fun declared => snakeCase declared.name).Nodup ↔
      ∀ declared ∈ contract.fieldVariables, ∀ other ∈ contract.fieldVariables, declared.name ≠ other.name →
        snakeCase declared.name ≠ snakeCase other.name := by
    rw [hmap, List.nodup_map_iff_inj_on hnames]
    simp only [List.forall_mem_map, ne_eq, not_imp_not]
  have hown : "authority" ∉ "bump" :: (contract.fieldVariables.map fun declared => snakeCase declared.name) ∧
        "bump" ∉ (contract.fieldVariables.map fun declared => snakeCase declared.name) ↔
      ∀ declared ∈ contract.fieldVariables, snakeCase declared.name ∉ ["authority", "bump"] := by
    have hne : "authority" ≠ "bump" := by decide
    simp only [List.mem_cons, List.mem_map, not_or, not_exists, not_and, hne, not_false_eq_true, true_and,
      List.not_mem_nil, and_true, ← forall_and]
  rw [map_name_stateFields, List.nodup_cons, List.nodup_cons, ← and_assoc, hown, hvariables]

/-- The account in the program file has a field for the authority, one for the bump and one for each variable that is no
mapping, and its size has one term for each of these, in their order. When no two variables of the contract share a
name, no two fields do exactly when no variable reads like one of the first two and no two variables of different
names read alike. -/
theorem state_fields_iff {analysis : Analysis} {contract : Contract} (h : analysis.subject = some contract)
    (hdistinct : (contract.stateVariables.map StateVariable.name).Nodup) :
    (∃ before after, (generate analysis).file? (programPath contract) =
        some ⟨programPath contract, .rust, before ++ accountText contract.name (stateFields contract) ++ after⟩) ∧
      (((stateFields contract).map StateField.name).Nodup ↔
        (∀ declared ∈ contract.fieldVariables, snakeCase declared.name ∉ ["authority", "bump"]) ∧
          ∀ declared ∈ contract.fieldVariables, ∀ other ∈ contract.fieldVariables, declared.name ≠ other.name →
            snakeCase declared.name ≠ snakeCase other.name) :=
  ⟨exists_file?_stateAccount h, nodup_stateFields_iff hdistinct⟩

/-- A mapping may be called like a field, and names may differ in one digit. -/
def cappedVault : Contract where
  name := "Vault"
  stateVariables := [{ name := "cap2", typeName := "uint256" }, { name := "cap_2", typeName := "address[]" },
    { name := "authority", typeName := "mapping(address => bool)" }]

theorem state_fields_cappedVault :
    ({ contracts := [cappedVault] } : Analysis).subject = some cappedVault ∧
      (cappedVault.stateVariables.map StateVariable.name).Nodup ∧
      (∀ declared ∈ cappedVault.fieldVariables, snakeCase declared.name ∉ ["authority", "bump"]) ∧
      ((stateFields cappedVault).map StateField.name).Nodup ∧
      (stateFields cappedVault).map StateField.text = ["    pub authority: Pubkey,\n", "    pub bump: u8,\n",
        "    pub cap2: u64,\n", "    pub cap_2: Vec<Pubkey>,\n"] := by
  have hsubject : ({ contracts := [cappedVault] } : Analysis).subject = some cappedVault := by decide
  have hdistinct : (cappedVault.stateVariables.map StateVariable.name).Nodup := by decide
  have hown : ∀ declared ∈ cappedVault.fieldVariables, snakeCase declared.name ∉ ["authority", "bump"] := by
    decide +kernel
  have hapart : ∀ declared ∈ cappedVault.fieldVariables, ∀ other ∈ cappedVault.fieldVariables,
      declared.name ≠ other.name → snakeCase declared.name ≠ snakeCase other.name := by decide +kernel
  exact ⟨hsubject, hdistinct, hown, (state_fields_iff hsubject hdistinct).2.2 ⟨hown, hapart⟩, by decide +kernel⟩

/-- Two spellings of one name share a field. -/
theorem state_fields_clash_totalSupply :
    let analysis := analyze "contract Vault \x7b uint256 totalSupply; uint256 total_supply; \x7d".toList
    ∃ contract ∈ analysis.subject,
      (contract.stateVariables.map StateVariable.name).Nodup ∧
        (∀ declared ∈ contract.stateVariables, Solidity.isPlainIdentifier declared.name.toList = true) ∧
        (stateFields contract).map StateField.name = ["authority", "bump", "total_supply", "total_supply"] ∧
        ¬((stateFields contract).map StateField.name).Nodup := by
  decide +kernel

end ContractMigration.Skeleton
