import ContractMigration.Analysis.Recovery
import ContractMigration.Proofs.Rust.Numbering
import ContractMigration.Proofs.Skeleton.Layout

/-!
# The types of the program file

Contexts are kept apart from each other and from the reserved names, and the fixed endings keep the other types of the
file apart from one another. What is left are mappings that read alike, and functions that read like a type which is not
reserved: the types are distinct, and no context has the name of a type in use, exactly when there are none
(`types_distinct_iff`).
-/

namespace ContractMigration.Skeleton

/-- The types that the program uses or imports. -/
def usedTypes : List String :=
  ["Account", "Program", "Context", "Signer", "System", "Pubkey", "Result", "Mint", "Token", "TokenAccount",
    "AssociatedToken"]

/-- The types in use that are not reserved. -/
def unreservedTypes : List String :=
  ["Account", "Program", "Context", "Pubkey", "Result"]

/-- The types that a context can have the name of: nothing reserves their names. -/
def exposedTypes (contract : Contract) : List String :=
  accountNames contract ++ "ErrorCode" :: unreservedTypes

/-- The contexts of the handlers that are written out, by their names. -/
def contextNames (contract : Contract) : List String :=
  (namesOf (contract.instructions.take mostHandlers)).map HandlerName.context

theorem map_name_contextDefinitions (contract : Contract) :
    (contextDefinitions contract).map TypeDefinition.name = contextNames contract := by
  rw [contextDefinitions, List.map_map]
  rfl

theorem map_name_typeDefinitions (contract : Contract) (analysis : Analysis) :
    (typeDefinitions contract analysis).map TypeDefinition.name =
      accountNames contract ++ "Initialize" :: contextNames contract ++ ["ErrorCode"] := by
  have haccounts : (accountDefinitions contract).map TypeDefinition.name = accountNames contract := by
    rw [accountDefinitions, List.map_cons, List.map_map]
    rfl
  rw [typeDefinitions, List.map_append, List.map_append, haccounts, List.map_cons, map_name_contextDefinitions]
  rfl

/-! ### Endings -/

theorem append_ne_of_not_suffix {ending name : String} (h : ¬ending.toList <:+ name.toList) (front : String) :
    front ++ ending ≠ name := by
  rintro rfl
  exact h ⟨front.toList, (String.toList_append).symm⟩

theorem endsPlain_append {ending : String} (h : EndsPlain ending) (hne : ending.toList ≠ []) (front : String) :
    EndsPlain (front ++ ending) := by
  intro c hc
  rw [String.toList_append, List.getLast?_append_of_ne_nil _ hne] at hc
  exact h c hc

/-- The name of every account ends in one of two ways. -/
theorem forall_accountNames {p : String → Prop} (contract : Contract) (hstate : ∀ front, p (front ++ "State"))
    (hentry : ∀ front, p (front ++ "Entry")) : ∀ name ∈ accountNames contract, p name :=
  List.forall_mem_cons.2 ⟨hstate _, List.forall_mem_map.2 fun _ _ => hentry _⟩

/-- A text that has neither ending is no account. -/
theorem not_mem_accountNames (contract : Contract) {name : String} (hstate : ¬"State".toList <:+ name.toList)
    (hentry : ¬"Entry".toList <:+ name.toList) : name ∉ accountNames contract := fun hmem =>
  forall_accountNames (p := (· ≠ name)) contract (append_ne_of_not_suffix hstate) (append_ne_of_not_suffix hentry)
    name hmem rfl

theorem accountNames_nodup_iff (contract : Contract) :
    (accountNames contract).Nodup ↔ (contract.mappings.map fun declared => pascalCase declared.name).Nodup := by
  have hentry : Function.Injective fun front : String => front ++ "Entry" := fun left right heq =>
    String.append_left_inj _ |>.1 heq
  have hentries : contract.mappings.map entryName =
      (contract.mappings.map fun declared => pascalCase declared.name).map (· ++ "Entry") := by
    rw [List.map_map]
    rfl
  have hstate : contract.name ++ "State" ∉ contract.mappings.map entryName := by
    intro hmem
    obtain ⟨declared, -, heq⟩ := List.mem_map.1 hmem
    have hlists := congrArg String.toList heq
    rw [entryName, String.toList_append, String.toList_append] at hlists
    exact absurd (List.append_inj_right' hlists rfl) (by decide)
  rw [accountNames, List.nodup_cons, hentries, List.nodup_map_iff hentry, ← hentries]
  exact ⟨And.right, fun hnodup => ⟨hstate, hnodup⟩⟩

/-! ### Contexts -/

section Contexts

variable (contract : Contract)

theorem contextNames_fresh :
    (contextNames contract).Nodup ∧ ∀ name ∈ contextNames contract, name ∉ reservedContexts :=
  contexts_fresh _ _ _

theorem endsPlain_of_mem_accountNames : ∀ name ∈ accountNames contract, EndsPlain name :=
  forall_accountNames contract (endsPlain_append (by decide) (by decide)) (endsPlain_append (by decide) (by decide))

theorem exposedTypes_plain : ∀ name ∈ exposedTypes contract, EndsPlain name ∧ name ∉ reservedContexts := by
  have hreserved : ∀ reserved ∈ reservedContexts,
      ¬"State".toList <:+ reserved.toList ∧ ¬"Entry".toList <:+ reserved.toList := by decide
  have hothers : ∀ name ∈ "ErrorCode" :: unreservedTypes, EndsPlain name ∧ name ∉ reservedContexts := by decide
  refine List.forall_mem_append.2 ⟨fun name hname => ?_, hothers⟩
  refine ⟨endsPlain_of_mem_accountNames contract name hname, fun hmem => ?_⟩
  exact not_mem_accountNames contract (hreserved name hmem).1 (hreserved name hmem).2 hname

/-- Some function that is written out reads like the type. -/
theorem mem_contextNames_iff
    (hplain : ∀ function ∈ contract.instructions, Solidity.isPlainIdentifier function.name.toList = true)
    {name : String} (hname : name ∈ exposedTypes contract) :
    name ∈ contextNames contract ↔
      ∃ function ∈ contract.instructions.take mostHandlers, pascalCase function.name = name := by
  obtain ⟨hends, hreserved⟩ := exposedTypes_plain contract name hname
  rw [contextNames, namesOf, mem_contexts_iff hends hreserved]
  · simp only [List.mem_map, exists_exists_and_eq_and]
  · refine List.forall_mem_map.2 fun function hfunction => ?_
    exact Solidity.ascii_of_isPlainIdentifier (hplain function (List.mem_of_mem_take hfunction))

end Contexts

/-! ### The types of the file -/

theorem typeNames_nodup_iff (contract : Contract) (analysis : Analysis) :
    ((typeDefinitions contract analysis).map TypeDefinition.name).Nodup ↔
      (contract.mappings.map fun declared => pascalCase declared.name).Nodup ∧
        ∀ name ∈ accountNames contract ++ ["ErrorCode"], name ∉ contextNames contract := by
  obtain ⟨hdistinct, hreserved⟩ := contextNames_fresh contract
  have hinitialize : "Initialize" ∉ contextNames contract := fun hmem => hreserved _ hmem (by decide)
  have haccounts : "Initialize" ∉ accountNames contract ∧ "ErrorCode" ∉ accountNames contract :=
    ⟨not_mem_accountNames contract (by decide) (by decide), not_mem_accountNames contract (by decide) (by decide)⟩
  -- what is left of the comparisons are the contexts with the accounts and with the error codes
  rw [map_name_typeDefinitions, List.nodup_append', List.nodup_append', List.nodup_cons, accountNames_nodup_iff]
  simp only [List.disjoint_left, List.mem_append, List.mem_cons]
  grind

theorem usedTypes_iff (contract : Contract) :
    (∀ name ∈ contextNames contract, name ∉ usedTypes) ↔ ∀ name ∈ unreservedTypes, name ∉ contextNames contract := by
  have hsplit : ∀ name ∈ usedTypes, name ∈ unreservedTypes ∨ name ∈ reservedContexts := by decide
  have hused : ∀ name ∈ unreservedTypes, name ∈ usedTypes := by decide
  refine ⟨fun h name hname hcontext => h name hcontext (hused name hname), fun h name hcontext hname => ?_⟩
  rcases hsplit name hname with hunreserved | hreserved
  · exact h name hunreserved hcontext
  · exact (contextNames_fresh contract).2 name hcontext hreserved

/-- The program file defines the types of `typeDefinitions`. They are pairwise distinct and no context has the name of a
type in use exactly when no two mappings read alike and no function that is written out reads like an account, like the
error codes or like a type in use that is not reserved. -/
theorem types_distinct_iff {analysis : Analysis} {contract : Contract} (h : analysis.subject = some contract)
    (hplain : ∀ function ∈ contract.instructions, Solidity.isPlainIdentifier function.name.toList = true) :
    (generate analysis).file? (programPath contract) =
        some ⟨programPath contract, .rust, programLayout contract analysis (snakeCase contract.name)⟩ ∧
      (((typeDefinitions contract analysis).map TypeDefinition.name).Nodup ∧
          (∀ name ∈ (contextDefinitions contract).map TypeDefinition.name, name ∉ usedTypes) ↔
        (contract.mappings.map fun declared => pascalCase declared.name).Nodup ∧
          ∀ function ∈ contract.instructions.take mostHandlers, pascalCase function.name ∉ exposedTypes contract) := by
  have hread : (∀ name ∈ exposedTypes contract, name ∉ contextNames contract) ↔
      ∀ function ∈ contract.instructions.take mostHandlers, pascalCase function.name ∉ exposedTypes contract := by
    constructor
    · intro hfree function hfunction hexposed
      exact hfree _ hexposed ((mem_contextNames_iff contract hplain hexposed).2 ⟨function, hfunction, rfl⟩)
    · intro hfree name hexposed hcontext
      obtain ⟨function, hfunction, rfl⟩ := (mem_contextNames_iff contract hplain hexposed).1 hcontext
      exact hfree function hfunction hexposed
  have hexposed : (∀ name ∈ exposedTypes contract, name ∉ contextNames contract) ↔
      (∀ name ∈ accountNames contract ++ ["ErrorCode"], name ∉ contextNames contract) ∧
        ∀ name ∈ unreservedTypes, name ∉ contextNames contract := by
    rw [← List.forall_mem_append, List.append_assoc]
    rfl
  refine ⟨file?_programPath h, ?_⟩
  rw [typeNames_nodup_iff, map_name_contextDefinitions, usedTypes_iff, and_assoc, ← hexposed, hread]

/-- A contract whose functions read like reserved types and like the name of the contract. -/
def mintingVault : Contract where
  name := "Vault"
  stateVariables := [{ name := "_balances", typeName := "mapping(address => uint256)" }]
  functions := [{ name := "mint" }, { name := "vault" }, { name := "balances" }, { name := "mint" }]

theorem types_distinct_mintingVault :
    ({ contracts := [mintingVault] } : Analysis).subject = some mintingVault ∧
      (∀ function ∈ mintingVault.instructions, Solidity.isPlainIdentifier function.name.toList = true) ∧
      ((typeDefinitions mintingVault { contracts := [mintingVault] }).map TypeDefinition.name).Nodup ∧
      ∀ name ∈ (contextDefinitions mintingVault).map TypeDefinition.name, name ∉ usedTypes := by
  have hsubject : ({ contracts := [mintingVault] } : Analysis).subject = some mintingVault := by decide
  have hplain : ∀ function ∈ mintingVault.instructions,
      Solidity.isPlainIdentifier function.name.toList = true := by decide +kernel
  exact ⟨hsubject, hplain, (types_distinct_iff hsubject hplain).2.2 (by decide +kernel)⟩

/-- The context of `result` has the name of a type that every handler uses, and that of `vaultState` the name of the
state account. -/
theorem types_clash_vaultState :
    let analysis := analyze
      "contract Vault \x7b function result() public \x7b\x7d function vaultState() public \x7b\x7d \x7d".toList
    ∃ contract ∈ analysis.subject,
      (∀ function ∈ contract.functions, Solidity.isPlainIdentifier function.name.toList = true) ∧
        (∀ declared ∈ contract.stateVariables, Solidity.isPlainIdentifier declared.name.toList = true) ∧
        ¬((typeDefinitions contract analysis).map TypeDefinition.name).Nodup ∧
        "Result" ∈ (contextDefinitions contract).map TypeDefinition.name ∧ "Result" ∈ usedTypes := by
  decide +kernel

end ContractMigration.Skeleton
