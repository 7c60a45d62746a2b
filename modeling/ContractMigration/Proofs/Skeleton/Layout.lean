import ContractMigration.Skeleton.Workspace

/-!
# How the files are laid out

The program file is an opening, the handlers of the instructions that are written out, and one definition for each type
that the file defines (`programLayout`). The test is an opening, which nothing but the name of the contract decides,
the test cases and a closing line (`testSource_eq`). Handlers, definitions and test cases are cut where the names of
an instruction or of a type stand, so what is said about the names in these lists is said about the files.
-/

namespace ContractMigration

/-! ### Lines -/

theorem lines_cons_cons (text next : String) (rest : List String) :
    lines (text :: next :: rest) = text ++ "\n" ++ lines (next :: rest) :=
  String.intercalate_cons_cons

theorem lines_append {before after : List String} (hbefore : before ≠ []) (hafter : after ≠ []) :
    lines (before ++ after) = lines before ++ "\n" ++ lines after :=
  String.intercalate_append_of_ne_nil hbefore hafter

/-- A line in three pieces, and the lines around it. -/
theorem lines_cut (before : List String) (left middle right : String) (after : List String) :
    lines (before ++ (left ++ middle ++ right) :: after) =
      lines (before ++ [left]) ++ middle ++ lines (right :: after) := by
  have hpieces : lines ((left ++ middle ++ right) :: after) = left ++ middle ++ lines (right :: after) :=
    String.intercalate_cons_append
  by_cases hbefore : before = []
  · subst hbefore
    exact hpieces
  · have hleft : lines [left] = left := String.intercalate_singleton
    rw [lines_append hbefore (List.cons_ne_nil _ _), lines_append hbefore (List.cons_ne_nil _ _), hpieces, hleft]
    simp only [String.append_assoc]

namespace Skeleton

/-! ### Handlers -/

/-- How a handler is opened, wherever it is written. -/
def opening (names : HandlerName) : String :=
  "pub fn " ++ names.handler ++ "(ctx: Context<" ++ names.context ++ ">"

/-- What stands in front of the handler of a function. -/
def handlerLead (function : Signature) : String :=
  lines ["", "",
    "    /// Migrated from Solidity: " ++ function.name ++ "(" ++ parameterTypes function.parameters ++ ")", "    "]

theorem handler_eq (function : Signature) (names : HandlerName) :
    ∃ rest, handler function names = handlerLead function ++ opening names ++ rest := by
  have hline : "    pub fn " ++ names.handler ++ "(ctx: Context<" ++ names.context ++ ">" ++
        handlerArguments "_" function.parameters ++ ") -> Result<()> \x7b" =
      "    " ++ opening names ++ (handlerArguments "_" function.parameters ++ ") -> Result<()> \x7b") := by
    rw [opening, show "    pub fn " = "    " ++ "pub fn " from rfl]
    simp only [String.append_assoc]
  have hcut := fun after => lines_cut ["", "",
    "    /// Migrated from Solidity: " ++ function.name ++ "(" ++ parameterTypes function.parameters ++ ")"]
    "    " (opening names) (handlerArguments "_" function.parameters ++ ") -> Result<()> \x7b") after
  simp only [← hline] at hcut
  exact ⟨_, hcut _⟩

/-- The handlers that are written out, in order. -/
def handlerTexts (contract : Contract) : List String :=
  let shown := contract.instructions.take mostHandlers
  List.zipWith handler shown (namesOf shown)

/-! ### Types -/

/-- A type that the program file defines: what stands in front of its name, the name, and what follows it. -/
structure TypeDefinition where
  lead : String
  name : String
  rest : String
deriving DecidableEq, Repr

namespace TypeDefinition

def text (definition : TypeDefinition) : String :=
  definition.lead ++ definition.name ++ definition.rest

/-- A definition that begins with a lead and a name. -/
def ofText (lead name text : String) : TypeDefinition :=
  ⟨lead, name, String.ofList (text.toList.drop (lead ++ name).toList.length)⟩

theorem text_ofText {lead name text rest : String} (h : text = lead ++ name ++ rest) :
    (ofText lead name text).text = text := by
  subst h
  apply String.toList_injective
  simp only [TypeDefinition.text, ofText, String.toList_append, String.toList_ofList, List.drop_left]

end TypeDefinition

/-- The state account. -/
def stateDefinition (contract : Contract) : TypeDefinition :=
  .ofText (lines ["#[account]", "#[derive(Default)]", "pub struct "]) (contract.name ++ "State") (stateAccount contract)

theorem text_stateDefinition (contract : Contract) : (stateDefinition contract).text = stateAccount contract := by
  have hline : "pub struct " ++ contract.name ++ "State \x7b" =
      "pub struct " ++ (contract.name ++ "State") ++ " \x7b" := by
    rw [show "State \x7b" = "State" ++ " \x7b" from rfl]
    simp only [String.append_assoc]
  have hcut := fun after => lines_cut ["#[account]", "#[derive(Default)]"] "pub struct " (contract.name ++ "State")
    " \x7b" after
  simp only [← hline] at hcut
  exact TypeDefinition.text_ofText (hcut _)

/-- The account for the entries of a mapping. -/
def entryDefinition (declared : StateVariable) : TypeDefinition :=
  .ofText (lines ["", "", "#[account]", "pub struct "]) (entryName declared) (entryAccount declared)

theorem text_entryDefinition (declared : StateVariable) :
    (entryDefinition declared).text = entryAccount declared :=
  TypeDefinition.text_ofText (lines_cut ["", "", "#[account]"] "pub struct " (entryName declared) " \x7b" _)

/-- The context of the handler that creates the state. -/
def initializeDefinition (contract : Contract) : TypeDefinition :=
  .ofText (lines ["#[derive(Accounts)]", "#[instruction(bump: u8)]", "pub struct "]) "Initialize"
    (initializeContext contract.name (snakeCase contract.name))

theorem text_initializeDefinition (contract : Contract) :
    (initializeDefinition contract).text = initializeContext contract.name (snakeCase contract.name) :=
  TypeDefinition.text_ofText
    (lines_cut ["#[derive(Accounts)]", "#[instruction(bump: u8)]"] "pub struct " "Initialize" "<'info> \x7b" _)

/-- The context of one handler. -/
def contextDefinition (contract : Contract) (names : HandlerName) : TypeDefinition :=
  .ofText (lines ["", "", "#[derive(Accounts)]", "pub struct "]) names.context
    (context contract.name (snakeCase contract.name) names)

theorem text_contextDefinition (contract : Contract) (names : HandlerName) :
    (contextDefinition contract names).text = context contract.name (snakeCase contract.name) names :=
  TypeDefinition.text_ofText (lines_cut ["", "", "#[derive(Accounts)]"] "pub struct " names.context "<'info> \x7b" _)

/-- The error codes. -/
def errorDefinition (analysis : Analysis) : TypeDefinition :=
  .ofText (lines ["#[error_code]", "pub enum "]) "ErrorCode" (errorEnum analysis)

theorem text_errorDefinition (analysis : Analysis) : (errorDefinition analysis).text = errorEnum analysis :=
  TypeDefinition.text_ofText (lines_cut ["#[error_code]"] "pub enum " "ErrorCode" " \x7b" _)

/-- The account structures, in order. -/
def accountDefinitions (contract : Contract) : List TypeDefinition :=
  stateDefinition contract :: contract.mappings.map entryDefinition

/-- The contexts of the handlers that are written out, in order. -/
def contextDefinitions (contract : Contract) : List TypeDefinition :=
  (namesOf (contract.instructions.take mostHandlers)).map (contextDefinition contract)

/-- The types that the program file defines, in order. -/
def typeDefinitions (contract : Contract) (analysis : Analysis) : List TypeDefinition :=
  accountDefinitions contract ++ initializeDefinition contract :: contextDefinitions contract ++
    [errorDefinition analysis]

/-! ### The files -/

/-- The texts of definitions, one behind the other. -/
def joined (definitions : List TypeDefinition) : String :=
  String.join (definitions.map TypeDefinition.text)

/-- A note about the accounts of tokens. -/
def tokenNote (isErc20 : Bool) : String :=
  if isErc20 then
    lines [
      "", "",
      "// SPL Token accounts are managed by the Token program — no custom struct needed.",
      "// Use Mint and TokenAccount from anchor_spl::token."]
  else ""

theorem accounts_eq (contract : Contract) (isErc20 : Bool) :
    accounts contract isErc20 = joined (accountDefinitions contract) ++ tokenNote isErc20 := by
  have hentries : contract.mappings.map entryAccount =
      (contract.mappings.map entryDefinition).map TypeDefinition.text := by
    rw [List.map_map]
    exact List.map_congr_left fun declared _ => (text_entryDefinition declared).symm
  rw [joined, accountDefinitions, List.map_cons, String.join_cons, ← hentries, text_stateDefinition]
  rfl

theorem contexts_eq (contract : Contract) :
    contexts contract contract.instructions =
      joined (initializeDefinition contract :: contextDefinitions contract) := by
  have hcontexts : (namesOf (contract.instructions.take mostHandlers)).map
        (context contract.name (snakeCase contract.name)) =
      (contextDefinitions contract).map TypeDefinition.text := by
    rw [contextDefinitions, List.map_map]
    exact List.map_congr_left fun names _ => (text_contextDefinition contract names).symm
  rw [joined, List.map_cons, String.join_cons, ← hcontexts, text_initializeDefinition]
  rfl

/-- The program file up to the handlers of the instructions. -/
def programOpening (contract : Contract) (analysis : Analysis) (programName : String) : String :=
  lines (["use anchor_lang::prelude::*;"] ++
    (if analysis.isErc20 then [
      "use anchor_spl::token::\x7bself, Token, TokenAccount, Mint\x7d;",
      "use anchor_spl::associated_token::AssociatedToken;"]
    else []) ++ [
    "",
    "declare_id!(\"" ++ placeholderId ++ "\");",
    "",
    "// ── Program ──",
    "#[program]",
    "pub mod " ++ programName ++ " \x7b",
    "    use super::*;",
    "",
    initializeHandler contract.name])

/-- The program file put together from its handlers and its types. Headings and a note stand between the handlers and
the types, between accounts and contexts, and in front of the error codes. -/
def programLayout (contract : Contract) (analysis : Analysis) (programName : String) : String :=
  programOpening contract analysis programName ++ String.join (handlerTexts contract) ++
    "\n\x7d\n\n// ── Account Structs ──\n" ++ joined (accountDefinitions contract) ++ tokenNote analysis.isErc20 ++
    "\n\n// ── Context Structs ──\n" ++ joined (initializeDefinition contract :: contextDefinitions contract) ++
    "\n\n// ── Errors ──\n" ++ (errorDefinition analysis).text ++ "\n"

theorem programSource_eq (contract : Contract) (analysis : Analysis) (programName : String) :
    programSource contract analysis programName = programLayout contract analysis programName := by
  have hhandlers : handlers contract.name contract.instructions =
      initializeHandler contract.name ++ String.join (handlerTexts contract) ++ "" := by
    rw [String.append_empty]
    rfl
  have haccounts : "\n\x7d\n\n// ── Account Structs ──\n" =
      "" ++ "\n" ++ "\x7d" ++ "\n" ++ "" ++ "\n" ++ "// ── Account Structs ──" ++ "\n" := rfl
  have hcontexts : "\n\n// ── Context Structs ──\n" =
      "\n" ++ "" ++ "\n" ++ "// ── Context Structs ──" ++ "\n" := rfl
  have herrors : "\n\n// ── Errors ──\n" = "\n" ++ "" ++ "\n" ++ "// ── Errors ──" ++ "\n" := rfl
  have hend : lines [""] = "" := rfl
  rw [programSource, hhandlers, accounts_eq, contexts_eq, ← text_errorDefinition]
  show lines (_ ++ (["", _, "", "// ── Program ──", "#[program]", _, "    use super::*;", ""] ++ _ :: _)) = _
  rw [← List.append_assoc, lines_cut, programLayout, programOpening, haccounts, hcontexts, herrors]
  simp only [lines_cons_cons, hend, String.append_assoc, String.append_empty, List.append_assoc, List.cons_append,
    List.nil_append]
  rfl

/-- What stands between the name of a handler and the call of it in its test case. -/
def testCaseMiddle (function : Signature) : String :=
  lines ["\", async () => \x7b", "    // TODO: implement test for " ++ function.name,
    "    const tx = await program.methods", "      ."]

theorem testCase_eq (function : Signature) (names : HandlerName) :
    ∃ rest, testCase function names =
      "  it(\"Calls " ++ names.handler ++ testCaseMiddle function ++ names.handler ++ rest := by
  have htitle := fun after => lines_cut [] "  it(\"Calls " names.handler "\", async () => \x7b" after
  have hcall := fun after => lines_cut ["\", async () => \x7b", "    // TODO: implement test for " ++ function.name,
    "    const tx = await program.methods"] "      ." names.handler "()" after
  have hmiddle := fun after => (htitle _).trans (congrArg ("  it(\"Calls " ++ names.handler ++ ·) (hcall after))
  exact ⟨_, (hmiddle _).trans (by
    rw [testCaseMiddle]
    simp only [← String.append_assoc]
    rfl)⟩

/-- The test cases, in order. -/
def testCases (contract : Contract) : List String :=
  let called := contract.instructions.take mostTestCases
  List.zipWith testCase called (namesOf called)

/-- What stands around the test cases is the test of a contract without functions. -/
theorem testSource_eq (contract : Contract) (programName : String) :
    ∃ opening, testSource { contract with functions := [] } programName = opening ++ "\n\x7d);\n" ∧
      testSource contract programName = opening ++ "\n\n".intercalate (testCases contract) ++ "\n\x7d);\n" := by
  have hclosing : "\n\x7d);\n" = "\n" ++ "\x7d);" ++ "\n" ++ "" := rfl
  have hend : lines [""] = "" := rfl
  -- Nothing but the name of a contract decides what is in front of its test cases.
  have hopening : ∃ opening, ∀ other : Contract, other.name = contract.name →
      testSource other programName = opening ++ "\n\n".intercalate (testCases other) ++ "\n\x7d);\n" :=
    ⟨_, fun other hname => by
      rw [hclosing]
      simp only [testSource, hname, lines_cons_cons, hend, ← String.append_assoc]
      rfl⟩
  obtain ⟨opening, hopening⟩ := hopening
  refine ⟨opening, ?_, hopening contract rfl⟩
  have hcases : "\n\n".intercalate (testCases { contract with functions := [] }) = "" := rfl
  rw [hopening { contract with functions := [] } rfl, hcases, String.append_empty]

/-! ### Where the files are -/

section Files

variable {analysis : Analysis} {contract : Contract}

/-- The path of the program file. -/
def programPath (contract : Contract) : String :=
  "programs/" ++ snakeCase contract.name ++ "/src/lib.rs"

/-- The path of the test. -/
def testPath (contract : Contract) : String :=
  "tests/" ++ snakeCase contract.name ++ ".ts"

variable (h : analysis.subject = some contract)
include h

theorem file?_programPath :
    (generate analysis).file? (programPath contract) =
      some ⟨programPath contract, .rust, programLayout contract analysis (snakeCase contract.name)⟩ := by
  rw [generate, h, ← programSource_eq]
  exact List.find?_cons_of_pos (beq_self_eq_true _)

theorem file?_testPath :
    (generate analysis).file? (testPath contract) =
      some ⟨testPath contract, .typescript, testSource contract (snakeCase contract.name)⟩ := by
  have hother : ∀ path : String, path.toList.head? ≠ some 't' → ¬(path == testPath contract) = true := by
    intro path hhead heq
    refine hhead ?_
    rw [beq_iff_eq.1 heq, testPath, String.toList_append, String.toList_append]
    rfl
  have hprograms : ∀ rest, ("programs/" ++ snakeCase contract.name ++ rest).toList.head? ≠ some 't' := by
    intro rest
    rw [String.toList_append, String.toList_append]
    show some 'p' ≠ some 't'
    decide
  rw [generate, h, Skeleton.file?]
  rw [List.find?_cons_of_neg, List.find?_cons_of_neg, List.find?_cons_of_neg, List.find?_cons_of_pos]
  · rfl
  · exact beq_self_eq_true _
  · exact hother _ (hprograms _)
  · exact hother "Anchor.toml" (by decide)
  · exact hother _ (hprograms _)

end Files

end Skeleton

end ContractMigration
