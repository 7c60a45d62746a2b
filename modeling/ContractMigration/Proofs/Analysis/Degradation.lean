import ContractMigration.Proofs.Analysis.Growth

/-!
# Analyses under faults

A fault costs what it hits and nothing else (`analyze_degrades`). A declaration that cannot be read is left out and
noted, a scanner that fails keeps what it has yielded, and a search for facts that fails is made once more in the same
contracts before nothing counts as detected. The version, the imports and the number of lines never suffer.
-/

namespace ContractMigration

open Solidity

/-! ### The loop over the declarations -/

section Loop

variable (faults : Faults)

/-- The contracts that are read from declarations. -/
def readContracts (declarations : List Declaration) : List Contract :=
  (declarations.filter fun declaration => (faults.extraction declaration.name).isNone).map Declaration.contract

/-- The diagnostics for the declarations that cannot be read. -/
def readingDiagnostics (declarations : List Declaration) : List Diagnostic :=
  declarations.filterMap fun declaration =>
    (faults.extraction declaration.name).map (.extraction declaration.kind declaration.name)

variable {faults}

/-- While the scanner yields, every declaration is read or noted, and the loop goes on behind it. -/
theorem recoverOnto_append {reached : List Declaration} {number : Nat}
    (hscan : ∀ index < reached.length, faults.scan (number + index) = none) (ending : Option UnterminatedBody)
    (contracts : List Contract) (diagnostics : List Diagnostic) (rest : List Declaration) :
    recoverOnto faults ending contracts diagnostics number (reached ++ rest) =
      recoverOnto faults ending ((readContracts faults reached).reverse ++ contracts)
        ((readingDiagnostics faults reached).reverse ++ diagnostics) (number + reached.length) rest := by
  -- each declaration is put on top of one of the accumulators, so both go into the induction
  induction reached generalizing number contracts diagnostics with
  | nil => rfl
  | cons declaration reached ih =>
    have hhead : faults.scan number = none := hscan 0 (Nat.zero_lt_succ _)
    have htail : ∀ index < reached.length, faults.scan (number + 1 + index) = none := fun index hindex => by
      rw [Nat.add_right_comm]
      exact hscan (index + 1) (Nat.succ_lt_succ hindex)
    have hlength : number + (declaration :: reached).length = number + 1 + reached.length := by
      rw [List.length_cons]
      omega
    rw [List.cons_append, recoverOnto, hhead, hlength]
    cases hread : faults.extraction declaration.name with
    | none =>
      simp only [extract, hread, readContracts, readingDiagnostics, List.filter_cons, List.filterMap_cons,
        Option.isNone_none, if_true, Option.map_none, List.map_cons, List.reverse_cons, List.append_assoc,
        List.singleton_append]
      exact ih htail _ _
    | some failure =>
      simp only [extract, hread, readContracts, readingDiagnostics, List.filter_cons, List.filterMap_cons,
        Option.isNone_some, Bool.false_eq_true, if_false, Option.map_some, List.reverse_cons, List.append_assoc,
        List.singleton_append]
      exact ih htail _ _

/-- A scanner that does not fail is left behind its last declaration. -/
theorem recoverOnto_exhausted {declarations : List Declaration}
    (hscan : ∀ index < declarations.length, faults.scan index = none) (ending : Option UnterminatedBody) :
    recoverOnto faults ending [] [] 0 declarations =
      (readContracts faults declarations,
        readingDiagnostics faults declarations ++ (ending.map Diagnostic.unterminated).toList) := by
  have hloop := recoverOnto_append (fun index hindex => by rw [Nat.zero_add]; exact hscan index hindex)
    ending [] [] []
  rw [List.append_nil] at hloop
  rw [hloop]
  cases ending <;> simp only [recoverOnto, List.append_nil, List.reverse_cons, List.reverse_reverse, Option.map_none,
    Option.map_some, Option.toList_none, Option.toList_some]

/-- A scanner that fails is left before the declaration that it fails to yield. -/
theorem recoverOnto_stopped {declarations : List Declaration} {number : Nat} (hnumber : number < declarations.length)
    (hscan : ∀ index < number, faults.scan index = none) {failure : Failure} (hstop : faults.scan number = some failure)
    (ending : Option UnterminatedBody) :
    recoverOnto faults ending [] [] 0 declarations =
      (readContracts faults (declarations.take number),
        readingDiagnostics faults (declarations.take number) ++ [.scanner failure]) := by
  have hlength : (declarations.take number).length = number := List.length_take_of_le hnumber.le
  have hloop := recoverOnto_append
    (fun index hindex => by rw [Nat.zero_add]; exact hscan index (hlength ▸ hindex)) ending [] []
    (declarations.drop number)
  rw [List.take_append_drop, List.drop_eq_getElem_cons hnumber, hlength, Nat.zero_add] at hloop
  rw [hloop, recoverOnto, hstop]
  simp only [List.append_nil, List.reverse_cons, List.reverse_reverse]

end Loop

/-! ### The stages -/

namespace Stage

variable {α : Type}

theorem run_get_bind (next : Progress → Stage α) (progress : Progress) :
    (get >>= next).run.run progress = (next progress).run.run progress := rfl

theorem run_set_bind (after : Progress) (next : PUnit → Stage α) (progress : Progress) :
    (set after >>= next).run.run progress = (next ⟨⟩).run.run after := rfl

end Stage

section Stages

variable (faults : Faults) (source : List Char)

theorem findFacts_run (progress : Progress) :
    (findFacts faults source).run.run progress =
      (match faults.facts progress.searches with
        | some failure => .error failure
        | none => .ok (factsOf progress.contracts source),
        { progress with searches := progress.searches + 1 }) := by
  rw [findFacts, Stage.run_get_bind, Stage.run_set_bind]
  cases faults.facts progress.searches with
  | none => rfl
  | some failure => rfl

theorem salvage_run (progress : Progress) (failure : Failure) :
    (salvage faults source failure).run progress =
      (match faults.facts progress.searches with
        | some _ => { lineCount := lineCount source }
        | none => factsOf progress.contracts source,
        { progress.note (.aborted failure) with searches := progress.searches + 1 }) := by
  rw [salvage, StateT.run_bind, StateT.run_modify, pure_bind, StateT.run_bind, findFacts_run]
  simp only [Progress.note]
  cases faults.facts progress.searches with
  | none => rfl
  | some failure => rfl

/-- What has been found when the facts are looked for. -/
def recovered : Progress :=
  let found := recover faults source (mask source)
  { contracts := found.1
    pragma := versionExpression source (mask source)
    imports := importedPaths source (mask source)
    diagnostics := found.2 }

/-- Nothing fails before the facts are looked for: the loop keeps its faults to itself. -/
theorem attempt_run :
    (attempt faults source).run.run {} = (findFacts faults source).run.run (recovered faults source) := rfl

theorem attemptOrSalvage_run :
    (attemptOrSalvage faults source).run {} =
      match faults.facts 0 with
      | none => (factsOf (recovered faults source).contracts source, { recovered faults source with searches := 1 })
      | some failure => (salvage faults source failure).run { recovered faults source with searches := 1 } := by
  have hsearches : (recovered faults source).searches = 0 := rfl
  rw [attemptOrSalvage, StateT.run_bind, attempt_run, findFacts_run, hsearches]
  cases faults.facts 0 with
  | none => rfl
  | some failure => rfl

end Stages

/-! ### Schedules -/

/-- Which stages fail: the reading of the declarations with certain names, the scanner before it yields one
declaration, and the first few searches for facts. -/
structure FaultSchedule where
  unreadable : String → Option Failure
  stop : Option (Nat × Failure)
  missed : Nat
  miss : Nat → Failure

namespace FaultSchedule

variable (schedule : FaultSchedule)

def faults : Faults where
  extraction := schedule.unreadable
  scan number := (schedule.stop.filter fun stop => stop.1 == number).map Prod.snd
  facts call := if call < schedule.missed then some (schedule.miss call) else none

/-- The declarations that the scanner yields before it fails. -/
def reached (declarations : List Declaration) : List Declaration :=
  match schedule.stop with
  | some (number, _) => declarations.take number
  | none => declarations

/-- What ends the scan, if it does not come to its end. An unterminated body stands behind all declarations, so a
scanner that fails before one of them never gets there. -/
def ending (found : Scan) : Option Diagnostic :=
  match schedule.stop with
  | some (number, failure) =>
    if number < found.declarations.length then some (.scanner failure) else found.failure.map .unterminated
  | none => found.failure.map .unterminated

/-- What is noted when the first search for facts fails. -/
def interruption : Option Diagnostic :=
  if 1 ≤ schedule.missed then some (.aborted (schedule.miss 0)) else none

/-- The facts that are reported for the contracts of a source. -/
def survivingFacts (contracts : List Contract) (source : List Char) : FileFacts :=
  if schedule.missed ≤ 1 then factsOf contracts source else { lineCount := lineCount source }

variable {schedule}

theorem scan_of_running (hstop : schedule.stop = none) (number : Nat) : schedule.faults.scan number = none := by
  simp only [faults, hstop, Option.filter_none, Option.map_none]

theorem scan_of_stopped {number : Nat} {failure : Failure} (hstop : schedule.stop = some (number, failure)) :
    schedule.faults.scan number = some failure := by
  simp only [faults, hstop, Option.filter_some, beq_self_eq_true, if_true, Option.map_some]

theorem scan_of_stopped_elsewhere {number index : Nat} {failure : Failure}
    (hstop : schedule.stop = some (number, failure)) (hindex : number ≠ index) :
    schedule.faults.scan index = none := by
  simp only [faults, hstop, Option.filter_some, beq_false_of_ne hindex, Bool.false_eq_true, if_false, Option.map_none]

variable (schedule) (source : List Char)

theorem recover_eq (masked : List Char) :
    recover schedule.faults source masked =
      let found := scan source masked
      let reached := schedule.reached found.declarations
      (readContracts schedule.faults reached,
        readingDiagnostics schedule.faults reached ++ (schedule.ending found).toList) := by
  simp only [recover, reached, ending]
  cases hstop : schedule.stop with
  | none => exact recoverOnto_exhausted (fun index _ => scan_of_running hstop index) _
  | some stop =>
    obtain ⟨number, failure⟩ := stop
    by_cases hnumber : number < (scan source masked).declarations.length
    · simp only [if_pos hnumber]
      exact recoverOnto_stopped hnumber (fun index hindex => scan_of_stopped_elsewhere hstop hindex.ne')
        (scan_of_stopped hstop) _
    · -- the scanner is through before it could fail
      have hle : (scan source masked).declarations.length ≤ number := Nat.not_lt.1 hnumber
      simp only [if_neg hnumber, List.take_of_length_le hle]
      exact recoverOnto_exhausted
        (fun index hindex => scan_of_stopped_elsewhere hstop (hindex.trans_le hle).ne') _

theorem facts_of_missed {call : Nat} (hcall : call < schedule.missed) :
    schedule.faults.facts call = some (schedule.miss call) :=
  if_pos hcall

theorem facts_of_answered {call : Nat} (hcall : schedule.missed ≤ call) : schedule.faults.facts call = none :=
  if_neg (Nat.not_lt.2 hcall)

/-- The facts are looked for at most twice, and the failure of the first search is the one that is noted. -/
theorem attemptOrSalvage_eq :
    ∃ searches ≤ 2, (attemptOrSalvage schedule.faults source).run {} =
      let found := recovered schedule.faults source
      (schedule.survivingFacts found.contracts source,
        { found with diagnostics := found.diagnostics ++ schedule.interruption.toList, searches }) := by
  rw [attemptOrSalvage_run]
  by_cases hfirst : 1 ≤ schedule.missed
  · rw [facts_of_missed schedule hfirst]
    simp only [salvage_run, interruption, if_pos hfirst]
    refine ⟨2, le_rfl, ?_⟩
    by_cases hsecond : schedule.missed ≤ 1
    · simp only [facts_of_answered schedule hsecond, survivingFacts, if_pos hsecond]
      rfl
    · simp only [facts_of_missed schedule (Nat.not_le.1 hsecond), survivingFacts, if_neg hsecond]
      rfl
  · have hnone : schedule.missed ≤ 0 := by omega
    have hfew : schedule.missed ≤ 1 := by omega
    rw [facts_of_answered schedule hnone]
    simp only [interruption, if_neg hfirst, survivingFacts, if_pos hfew, Option.toList_none, List.append_nil]
    exact ⟨1, by decide, rfl⟩

end FaultSchedule

/-! ### The analysis -/

/-- What an analysis is under a schedule of faults. -/
structure Analysis.DegradedBy (schedule : FaultSchedule) (source : List Char) (analysis : Analysis) : Prop where
  contracts : analysis.contracts =
    readContracts schedule.faults (schedule.reached (scan source (mask source)).declarations)
  pragma : analysis.pragma = (analyze source).pragma
  imports : analysis.imports = (analyze source).imports
  errors : analysis.errors =
    (readingDiagnostics schedule.faults (schedule.reached (scan source (mask source)).declarations) ++
      (schedule.ending (scan source (mask source))).toList ++ schedule.interruption.toList).map Diagnostic.message
  facts : analysis.toFileFacts = schedule.survivingFacts analysis.contracts source
  lineCount : analysis.lineCount = source.count '\n' + 1

/-- Whatever fails, the analysis comes to an answer and loses only what the failure hits. -/
theorem analyze_degrades (schedule : FaultSchedule) (source : List Char) :
    (analyzeUnderFaults schedule.faults source).DegradedBy schedule source := by
  obtain ⟨searches, -, hrun⟩ := schedule.attemptOrSalvage_eq source
  have hrecover := schedule.recover_eq source (mask source)
  have hfacts : (analyzeUnderFaults schedule.faults source).toFileFacts =
      schedule.survivingFacts (analyzeUnderFaults schedule.faults source).contracts source := by
    simp only [analyzeUnderFaults, hrun]
  constructor
  case contracts =>
    simp only [analyzeUnderFaults, hrun, recovered, hrecover]
  case pragma =>
    simp only [analyzeUnderFaults, hrun]
    rfl
  case imports =>
    simp only [analyzeUnderFaults, hrun]
    rfl
  case errors =>
    simp only [analyzeUnderFaults, hrun, recovered, hrecover]
  case facts => exact hfacts
  case lineCount =>
    rw [hfacts, FaultSchedule.survivingFacts]
    split <;> rfl

end ContractMigration
