import ContractMigration.Proofs.Analysis.Degradation
import ContractMigration.Proofs.Solidity.Placement
import Mathlib.Data.List.Forall2

/-!
# What a contract is read from

A contract is read from its own declaration and from nothing around it: the declaration cut out of its source and
analysed alone gives the same contract and no diagnostic, whatever stands in front of it or behind it
(`analyze_declarations`). And within its declaration it is read from the masked text: two sources with the same masked
form have the same contracts and diagnostics and the facts that follow from them (`analyze_structure`), so what stands
in comments and strings cannot change them. Only the raw bodies, which no contract keeps, differ between two such
scans (`scan_shape`).
-/

namespace ContractMigration

open Solidity

/-! ### Analyses without faults -/

theorem recover_diagnostics (source masked : List Char) :
    (recover {} source masked).2 = ((scan source masked).failure.map Diagnostic.unterminated).toList := by
  have hnone : ∀ declarations, readingDiagnostics {} declarations = [] :=
    fun declarations => List.filterMap_eq_nil_iff.2 fun _ _ => rfl
  rw [recover, recoverOnto_exhausted (fun _ _ => rfl), hnone, List.nil_append]

theorem analyze_errors (source : List Char) :
    (analyze source).errors =
      ((scan source (mask source)).failure.map Diagnostic.unterminated).toList.map Diagnostic.message := by
  rw [← recover_diagnostics]
  rfl

/-! ### Declarations that stand alone -/

/-- An analysis that finds a single contract and has nothing to note. -/
structure Analysis.FindsOnly (contract : Contract) (analysis : Analysis) : Prop where
  contracts : analysis.contracts = [contract]
  errors : analysis.errors = []

/-- A declaration that is cut out of its source is the only one that the scan finds. -/
theorem Solidity.DeclaresAt.scan_text {source before head body after : List Char} {header : Header}
    (h : DeclaresAt source before head body after header) :
    scan (head ++ '\x7b' :: (body ++ ['\x7d'])) (mask (head ++ '\x7b' :: (body ++ ['\x7d']))) =
      ⟨[header.declaring 0 body], none⟩ := by
  have hdeclared : declaredBy '\x7b' (mask head) = some (0, header) :=
    declaredBy_eq_some_iff.2 ⟨rfl, h.last, h.isDeclaration⟩
  have hclose := h.balanced.closingFrom (by decide) []
  have hpast : (head ++ '\x7b' :: (body ++ ['\x7d'])).drop ((mask head).length + 1) = body ++ ['\x7d'] := by
    rw [length_mask, drop_succ_length_append]
  have hdone : (mask body ++ ['\x7d']).drop ((mask body).length + 1) = [] := drop_succ_length_append _ _ _
  have hfound : declarationOf 0 0 header (mask body).length (body ++ ['\x7d']) (mask body ++ ['\x7d']) =
      header.declaring 0 body := by
    rw [declarationOf, List.take_left, List.take_left' (length_mask body).symm]
    rfl
  rw [scan_eq_scanFrom, h.alone_eq, scanFrom_declared h.free (by decide) hdeclared hclose, hpast, hdone,
    scanFrom_free (fun c hc => absurd hc List.not_mem_nil), hfound]

/-- Every declaration of a source, analysed alone, gives the contract that it gives in the source. -/
theorem analyze_declarations (source : List Char) :
    List.Forall₂ (fun declaration contract => (analyze (declaration.text source)).FindsOnly contract)
      (scan source (mask source)).declarations (analyze source).contracts := by
  rw [analyze_contracts, List.forall₂_map_right_iff, List.forall₂_same]
  intro declaration hmem
  obtain ⟨before, head, body, after, header, hdeclares, rfl⟩ := (scan_laidOut source).declared declaration hmem
  have hscan := hdeclares.scan_text
  rw [hdeclares.text]
  constructor
  case contracts =>
    rw [analyze_contracts, hscan]
    rfl
  case errors =>
    rw [analyze_errors, hscan]
    rfl

/-- Neither the header that is left open in front of the declaration nor the body that is left open behind it belongs
to its text. -/
example :
    let source :=
      "// contract A \x7b\ncontract B is ; abstract contract C is B \x7b f(\x7b\x7d); \x7d \x7d interface D \x7b".toList
    (scan source (mask source)).declarations.map (Declaration.text source) =
      ["abstract contract C is B \x7b f(\x7b\x7d); \x7d".toList] := by
  decide +kernel

/-! ### Sources with the same masked form -/

namespace Solidity

/-- A declaration without its raw body. -/
def Declaration.shape (declaration : Declaration) : Declaration :=
  { declaration with body := [] }

/-- A scan without the raw bodies. -/
def Scan.shape (found : Scan) : Scan :=
  ⟨found.declarations.map Declaration.shape, found.failure⟩

theorem shape_declarationOf (offset start length : Nat) (header : Header) (inside other rest : List Char) :
    (declarationOf offset start header length inside rest).shape =
      (declarationOf offset start header length other rest).shape := rfl

/-- The raw text decides nothing but the raw bodies, however far the two texts go apart. -/
theorem scanFrom_shape (offset : Nat) (source other masked : List Char) :
    (scanFrom offset source masked).shape = (scanFrom offset other masked).shape := by
  rcases free_or_piece masked with hfree | ⟨piece, terminator, rest, rfl, hpiece, hterminator⟩
  · rw [scanFrom_free hfree, scanFrom_free hfree]
  · have hshort : rest.length < (piece ++ terminator :: rest).length := by
      rw [List.length_append, List.length_cons]
      omega
    cases hdeclared : declaredBy terminator piece with
    | none =>
      rw [scanFrom_passed hpiece hterminator hdeclared, scanFrom_passed hpiece hterminator hdeclared]
      exact scanFrom_shape _ _ _ rest
    | some found =>
      obtain ⟨start, header⟩ := found
      cases hclose : closingFrom '\x7b' '\x7d' 1 0 rest with
      | none =>
        rw [scanFrom_unterminated hpiece hterminator hdeclared hclose,
          scanFrom_unterminated hpiece hterminator hdeclared hclose]
      | some length =>
        have hbehind : (rest.drop (length + 1)).length < (piece ++ terminator :: rest).length := by
          rw [List.length_drop]
          omega
        have hlater := scanFrom_shape (offset + piece.length + length + 2)
          ((source.drop (piece.length + 1)).drop (length + 1)) ((other.drop (piece.length + 1)).drop (length + 1))
          (rest.drop (length + 1))
        simp only [Scan.shape, Scan.mk.injEq] at hlater
        rw [scanFrom_declared hpiece hterminator hdeclared hclose,
          scanFrom_declared hpiece hterminator hdeclared hclose]
        simp only [Scan.shape, List.map_cons, hlater.1, hlater.2,
          shape_declarationOf offset start length header _ (other.drop (piece.length + 1))]
termination_by masked.length

theorem scan_shape {source other : List Char} (h : mask source = mask other) :
    (scan source (mask source)).shape = (scan other (mask other)).shape := by
  rw [scan_eq_scanFrom, scan_eq_scanFrom, h, scanFrom_shape]

theorem map_contract_shape (found : Scan) :
    found.shape.declarations.map Declaration.contract = found.declarations.map Declaration.contract := by
  rw [Scan.shape, List.map_map]
  rfl

theorem failure_shape (found : Scan) : found.shape.failure = found.failure := rfl

end Solidity

/-- Two analyses that agree in everything that is read from the structure of the source. -/
structure Analysis.SameStructure (one other : Analysis) : Prop where
  contracts : one.contracts = other.contracts
  errors : one.errors = other.errors
  isErc20 : one.isErc20 = other.isErc20
  hasEvents : one.hasEvents = other.hasEvents
  complexity : one.complexity = other.complexity

theorem analyze_facts (source : List Char) :
    (analyze source).toFileFacts = factsOf (analyze source).contracts source := rfl

/-- Comments and the contents of strings cannot change the structure that an analysis finds. -/
theorem analyze_structure {source other : List Char} (h : mask source = mask other) :
    (analyze source).SameStructure (analyze other) := by
  have hshape := scan_shape h
  have hcontracts : (analyze source).contracts = (analyze other).contracts := by
    rw [analyze_contracts, analyze_contracts, ← map_contract_shape, hshape, map_contract_shape]
  have hfailure : (scan source (mask source)).failure = (scan other (mask other)).failure := by
    rw [← failure_shape, hshape, failure_shape]
  constructor
  case contracts => exact hcontracts
  case errors => rw [analyze_errors, analyze_errors, hfailure]
  all_goals
    rw [analyze_facts, analyze_facts, hcontracts]
    rfl

/-- A comment and a string that hold a brace, a header and a mapping in one source and something else in the other. -/
theorem analyze_structure_till :
    let braced :=
      "contract Till \x7b /* contract A \x7b */ uint256 sum; string note = \"\x7d mapping(\"; event Paid(); \x7d".toList
    let plain :=
      "contract Till \x7b /* 12 ; event B */ uint256 sum; string note = \"a \\\" ; f()\"; event Paid(); \x7d".toList
    mask braced = mask plain ∧ (analyze braced).SameStructure (analyze plain) :=
  ⟨by decide +kernel, analyze_structure (by decide +kernel)⟩

end ContractMigration
