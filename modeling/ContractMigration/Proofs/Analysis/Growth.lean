import ContractMigration.Analysis.Recovery
import ContractMigration.Proofs.Analysis.Facts
import ContractMigration.Proofs.Solidity.Growth

/-!
# Analyses of a source that goes on

Appending text to a source, however malformed, loses and alters nothing that was recovered from it: the recovered
contracts and imports stay the first ones, a version that was found stays, and the facts only grow
(`analyze_within_append`).
-/

namespace ContractMigration

open Solidity Text

/-- What one analysis found is all found by another, in the same order and unaltered. -/
structure Analysis.Within (found longer : Analysis) : Prop where
  contracts : found.contracts <+: longer.contracts
  imports : found.imports <+: longer.imports
  pragma : longer.pragma = found.pragma ∨ found.pragma = "unknown"
  isErc20 : found.isErc20 = true → longer.isErc20 = true
  isErc721 : found.isErc721 = true → longer.isErc721 = true
  hasOwnable : found.hasOwnable = true → longer.hasOwnable = true
  hasAccessControl : found.hasAccessControl = true → longer.hasAccessControl = true
  hasMappings : found.hasMappings = true → longer.hasMappings = true
  hasEvents : found.hasEvents = true → longer.hasEvents = true
  complexity : found.complexity.rank ≤ longer.complexity.rank
  lineCount : found.lineCount ≤ longer.lineCount

/-! ### Without faults -/

theorem recoverOnto_of_no_faults (ending : Option UnterminatedBody) (contracts : List Contract)
    (diagnostics : List Diagnostic) (number : Nat) (declarations : List Declaration) :
    (recoverOnto {} ending contracts diagnostics number declarations).1 =
      contracts.reverse ++ declarations.map Declaration.contract := by
  induction declarations generalizing contracts number with
  | nil => cases ending <;> simp only [recoverOnto, List.map_nil, List.append_nil]
  | cons declaration rest ih =>
    simp only [recoverOnto, extract, ih, List.reverse_cons, List.append_assoc, List.singleton_append, List.map_cons]

theorem recover_contracts (source masked : List Char) :
    (recover {} source masked).1 = (scan source masked).declarations.map Declaration.contract :=
  recoverOnto_of_no_faults _ [] [] 0 _

theorem analyze_contracts (source : List Char) :
    (analyze source).contracts = (scan source (mask source)).declarations.map Declaration.contract :=
  recover_contracts source (mask source)

/-! ### The analysis -/

theorem lineCount_append_le (source more : List Char) : lineCount source ≤ lineCount (source ++ more) := by
  simp only [lineCount, List.count_append]
  omega

/-- Whatever is appended to a source, everything recovered from it is recovered again. -/
theorem analyze_within_append (source more : List Char) : (analyze source).Within (analyze (source ++ more)) := by
  obtain ⟨front, last, last', rest, hmask, hlonger, hsame, hlast, hshort⟩ := exists_common_front source more
  -- the only characters that can change are a slash and the blank in its place
  have hfree : ∀ c ∈ last, isTerminator c = false ∧ c ≠ '\x7d' := fun c hc => by
    rcases hlast c (List.mem_append_left _ hc) with rfl | rfl
    · decide
    · decide
  have hsemicolon : ';' ∉ last ++ last' := fun hmem => by
    rcases hlast ';' hmem with h | h
    · exact absurd h (by decide)
    · exact absurd h (by decide)
  have hlen : source.length = front.length + last.length := by
    rw [← length_mask, hmask, List.length_append]
  have hmore : (source ++ more).length = (front ++ last' ++ rest).length := by
    rw [← length_mask, hlonger]
  have hcontracts : (analyze source).contracts <+: (analyze (source ++ more)).contracts := by
    rw [analyze_contracts, analyze_contracts, scan_eq_scanFrom, scan_eq_scanFrom, hmask, hlonger, List.append_assoc]
    exact (scanFrom_prefix_append (fun c hc => (hfree c hc).1) (fun hmem => (hfree _ hmem).2 rfl) 0 hlen more
      (last' ++ rest)).map _
  have hfacts := (membersWithin_of_sublist hcontracts.sublist).factsOf_atMost source more
  refine ⟨hcontracts, ?_, ?_, hfacts.isErc20, hfacts.isErc721, hfacts.hasOwnable, hfacts.hasAccessControl,
    hfacts.hasMappings, hfacts.hasEvents, hfacts.complexity, Int.ofNat_le.2 (lineCount_append_le source more)⟩
  · show (importedPaths source (mask source)).map String.ofList <+:
      (importedPaths (source ++ more) (mask (source ++ more))).map String.ofList
    rw [hmask, hlonger]
    exact (importedPaths_prefix_append hshort hsame hsemicolon hlen hmore).map _
  · show String.ofList (versionExpression (source ++ more) (mask (source ++ more))) =
        String.ofList (versionExpression source (mask source)) ∨
      String.ofList (versionExpression source (mask source)) = "unknown"
    rw [hmask, hlonger, List.append_assoc]
    by_cases hunknown : versionExpression source (front ++ last) = "unknown".toList
    · exact .inr (by rw [hunknown]; rfl)
    · refine .inl (congrArg _ (versionExpression_append (fun hmem => ?_) hlen more (last' ++ rest) hunknown))
      exact hsemicolon (List.mem_append_left _ hmem)

end ContractMigration
