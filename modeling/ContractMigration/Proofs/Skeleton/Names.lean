import ContractMigration.Proofs.Rust.HandlerNames
import ContractMigration.Proofs.Skeleton.Layout

/-!
# One pair of names for each instruction

The handlers, the contexts, the test cases, the rules and the list of instructions number the functions each for
themselves, and not all of them number the same beginning of the list. As a beginning is numbered like the whole list
(`handlerNames_take`), an instruction has one handler and one context wherever it occurs (`instruction_names_agree`).
-/

namespace ContractMigration.Skeleton

/-! ### Beginnings of the list -/

theorem namesOf_take (functions : List Signature) (count : Nat) :
    namesOf (functions.take count) = (namesOf functions).take count := by
  rw [namesOf, List.map_take, handlerNames_take, namesOf]

theorem exists_namesOf_getElem? {functions : List Signature} {index : Nat} {function : Signature}
    (h : functions[index]? = some function) : ∃ names, (namesOf functions)[index]? = some names := by
  obtain ⟨hindex, -⟩ := List.getElem?_eq_some_iff.1 h
  have hlength : (namesOf functions).length = functions.length := by
    rw [namesOf, handlerNames, length_handlerNamesFrom, List.length_map]
  exact ⟨_, List.getElem?_eq_getElem (hlength ▸ hindex)⟩

section Shown

variable {functions : List Signature} {index : Nat} {function : Signature} {names : HandlerName}
variable (hfunction : functions[index]? = some function) (hnames : (namesOf functions)[index]? = some names)
include hfunction hnames

theorem getElem?_zipWith_namesOf {α : Type} (render : Signature → HandlerName → α) :
    (List.zipWith render functions (namesOf functions))[index]? = some (render function names) := by
  rw [List.getElem?_zipWith, hfunction, hnames]

/-- Functions that are left out at the end do not change how the others are shown. -/
theorem getElem?_zipWith_namesOf_take {α : Type} (render : Signature → HandlerName → α) {count : Nat}
    (hindex : index < count) :
    (List.zipWith render (functions.take count) (namesOf (functions.take count)))[index]? =
      some (render function names) := by
  refine getElem?_zipWith_namesOf ?_ ?_ render
  · rw [List.getElem?_take_of_lt hindex, hfunction]
  · rw [namesOf_take, List.getElem?_take_of_lt hindex, hnames]

end Shown

/-! ### The occurrences of an instruction -/

/-- The instruction at a position occurs by the same names in the list of instructions, in its rule, in its handler, in
the definition of its context and in its test case. Not every instruction has a handler that is written out, and fewer
have a test case. -/
structure CarriesNames (analysis : Analysis) (contract : Contract) (index : Nat) (function : Signature)
    (names : HandlerName) : Prop where
  instruction : (generate analysis).instructions[index]? = some names.handler
  rule : ∃ rule rest, (instructionRules analysis)[index]? = some rule ∧
    rule.evmConcept = "function " ++ function.name ++ "(" ++ parameterTypes function.parameters ++ ")" ∧
    rule.solanaDetail = "#[program] handler `" ++ names.handler ++ "` with its own Context struct" ∧
    rule.snippet = some (opening names ++ rest)
  handler : index < mostHandlers →
    ∃ rest, (handlerTexts contract)[index]? = some (handlerLead function ++ opening names ++ rest)
  context : index < mostHandlers →
    (contextDefinitions contract)[index]?.map TypeDefinition.name = some names.context
  testCase : index < mostTestCases →
    ∃ rest, (testCases contract)[index]? =
      some ("  it(\"Calls " ++ names.handler ++ testCaseMiddle function ++ names.handler ++ rest)

theorem instructionRule_snippet (function : Signature) (names : HandlerName) :
    ∃ rest, (instructionRule function names).snippet = some (opening names ++ rest) := by
  have hline : "pub fn " ++ names.handler ++ "(ctx: Context<" ++ names.context ++ ">" ++
        handlerArguments "" function.parameters ++ ") -> Result<()> \x7b" =
      opening names ++ (handlerArguments "" function.parameters ++ ") -> Result<()> \x7b") :=
    String.append_assoc
  have hcut := fun after => (String.intercalate_cons_append :
    lines ((opening names ++ (handlerArguments "" function.parameters ++ ") -> Result<()> \x7b")) :: after) = _)
  rw [← hline] at hcut
  exact ⟨_, congrArg some (hcut _)⟩

theorem carriesNames {analysis : Analysis} {contract : Contract} (h : analysis.subject = some contract) {index : Nat}
    {function : Signature} (hfunction : contract.instructions[index]? = some function) {names : HandlerName}
    (hnames : (namesOf contract.instructions)[index]? = some names) :
    CarriesNames analysis contract index function names where
  instruction := by
    rw [generate, h]
    show ((namesOf contract.instructions).map HandlerName.handler)[index]? = some names.handler
    rw [List.getElem?_map, hnames, Option.map_some]
  rule := by
    obtain ⟨rest, hsnippet⟩ := instructionRule_snippet function names
    refine ⟨instructionRule function names, rest, ?_, rfl, rfl, hsnippet⟩
    rw [instructionRules, h]
    exact getElem?_zipWith_namesOf hfunction hnames instructionRule
  handler := by
    intro hindex
    obtain ⟨rest, htext⟩ := handler_eq function names
    exact ⟨rest, htext ▸ getElem?_zipWith_namesOf_take hfunction hnames handler hindex⟩
  context := by
    intro hindex
    rw [contextDefinitions, namesOf_take, List.getElem?_map, List.getElem?_take_of_lt hindex, hnames]
    rfl
  testCase := by
    intro hindex
    obtain ⟨rest, htext⟩ := testCase_eq function names
    exact ⟨rest, htext ▸ getElem?_zipWith_namesOf_take hfunction hnames testCase hindex⟩

/-- A beginning of a list is numbered like the whole list. The program file and the test are made of handlers, contexts
and test cases, and each of these carries the names that the instruction has in the list of all instructions. -/
theorem instruction_names_agree {analysis : Analysis} {contract : Contract} (h : analysis.subject = some contract) :
    (∀ functions k, handlerNames (functions.take k) = (handlerNames functions).take k) ∧
      (generate analysis).file? (programPath contract) =
        some ⟨programPath contract, .rust, programLayout contract analysis (snakeCase contract.name)⟩ ∧
      (∃ opening,
        testSource { contract with functions := [] } (snakeCase contract.name) = opening ++ "\n\x7d);\n" ∧
          (generate analysis).file? (testPath contract) =
            some ⟨testPath contract, .typescript,
              opening ++ "\n\n".intercalate (testCases contract) ++ "\n\x7d);\n"⟩) ∧
      ∀ index function, contract.instructions[index]? = some function →
        ∃ names, (handlerNames (contract.instructions.map Signature.name))[index]? = some names ∧
          CarriesNames analysis contract index function names := by
  refine ⟨handlerNames_take, file?_programPath h, ?_, fun index function hfunction => ?_⟩
  · obtain ⟨opening, hopening, htest⟩ := testSource_eq contract (snakeCase contract.name)
    exact ⟨opening, hopening, htest ▸ file?_testPath h⟩
  · obtain ⟨names, hnames⟩ := exists_namesOf_getElem? hfunction
    exact ⟨names, hnames, carriesNames h hfunction hnames⟩

/-- Two functions of one name, one that is named like the handler of the second, and one whose context is reserved. -/
def overloaded : Contract where
  name := "Vault"
  functions := [{ name := "lock" }, { name := "lock" }, { name := "lock_2" }, { name := "mint" }]

theorem instruction_names_agree_overloaded :
    ({ contracts := [overloaded] } : Analysis).subject = some overloaded ∧
      CarriesNames { contracts := [overloaded] } overloaded 2 { name := "lock_2" } ⟨"lock_2_2", "Lock22"⟩ ∧
      CarriesNames { contracts := [overloaded] } overloaded 3 { name := "mint" } ⟨"mint", "MintAccounts"⟩ := by
  have hsubject : ({ contracts := [overloaded] } : Analysis).subject = some overloaded := by decide
  have hnumbered : handlerNames (overloaded.instructions.map Signature.name) =
      [⟨"lock", "Lock"⟩, ⟨"lock_2", "Lock2"⟩, ⟨"lock_2_2", "Lock22"⟩, ⟨"mint", "MintAccounts"⟩] := by decide +kernel
  obtain ⟨-, -, -, hcarries⟩ := instruction_names_agree hsubject
  rw [hnumbered] at hcarries
  obtain ⟨_, hlock, hlock_carries⟩ := hcarries 2 { name := "lock_2" } (by decide)
  obtain ⟨_, hmint, hmint_carries⟩ := hcarries 3 { name := "mint" } (by decide)
  obtain rfl := Option.some.inj hlock
  obtain rfl := Option.some.inj hmint
  exact ⟨hsubject, hlock_carries, hmint_carries⟩

end ContractMigration.Skeleton
