import ContractMigration.Analysis.Facts
import ContractMigration.Cost.Estimate
import ContractMigration.Proofs.Numeric.Rounding
import Mathlib.Algebra.Order.Field.Basic
import Mathlib.Tactic.NormNum
import Mathlib.Tactic.Ring

/-!
# The figures of a deployment in exact arithmetic

Both costs of a deployment are linear in the bytes of code, whose number is the same on both chains: the limit of the
Solana chain is never reached, since the other one holds for the code before (`programSize_exact`). A byte costs six
times as much on the Ethereum chain, but a deployment on the Solana chain has a fixed part of one dollar and sixty cents
against one dollar and six cents. The two hundred bytes of a single line make up for that, so a source, which has at
least one line, is deployed on the Solana chain for at most seven tenths of the dollars (`solanaDollars_le`). Cents do
not matter then: rounding to cents changes no amount by more than half a cent (`toCents_near`). Main statement:
`deployment_saves`.
-/

namespace ContractMigration

namespace Cost

open Numeric

/-- The report on a source and an analysis with nothing rounded but what is rounded to cents and to whole percents. -/
def exactReport (source : List Char) (analysis : Analysis) : CostReport :=
  estimate id (.ofAnalysis (lineCount source) analysis)

/-- The dollars for a deployment on the Ethereum chain. -/
def ethereumDollars (size : Size) : ℚ :=
  dollarsOfGas id size.deploymentGas

/-- The dollars for a deployment on the Solana chain. -/
def solanaDollars (size : Size) : ℚ :=
  dollarsOfSol id (deploymentSol id size)

/-- What the figures of a report are divided by. -/
def divisors (size : Size) : List ℚ :=
  [lamportsPerSol, 100, 1000, 1024, ethereumDollars size]

/-! ### Rounding -/

theorem roundHalfEven_near (x : ℚ) : x - 1 / 2 ≤ roundHalfEven x ∧ (roundHalfEven x : ℚ) ≤ x + 1 / 2 := by
  obtain ⟨hbelow, habove⟩ := abs_le.1 (roundedHalfEven_roundHalfEven x).near
  exact ⟨by linarith, by linarith⟩

/-- Rounding to cents changes an amount by at most half a cent. -/
theorem toCents_near (x : ℚ) : x - 1 / 200 ≤ toCents id x ∧ toCents id x ≤ x + 1 / 200 := by
  obtain ⟨hbelow, habove⟩ := roundHalfEven_near (x * 100)
  simp only [toCents, id_eq]
  constructor
  · linarith
  · linarith

/-! ### The two costs of a deployment -/

section Exact

variable (size : Size)

theorem ethereumDollars_exact : ethereumDollars size = size.deploymentGas * (63 / 1250000) := by
  simp only [ethereumDollars, dollarsOfGas, etherOfGas, etherPrice, gasPrice, id_eq]
  push_cast
  ring

theorem programSize_exact : programSize id size = size.bytecode * (3 / 2) := by
  have hcode : (size.bytecode : ℚ) ≤ 24576 := by exact_mod_cast Nat.min_le_right (size.lines * 200) bytecodeLimit
  have hprogram : (size.bytecode * (3 / 2) : ℚ) ≤ programLimit := by
    have hlimit : (programLimit : ℚ) = 204800 := by norm_num [programLimit]
    linarith
  simp only [programSize, id_eq]
  exact if_pos hprogram

theorem solanaDollars_exact : solanaDollars size = size.bytecode * (261 / 156250) + 8 / 5 := by
  simp only [solanaDollars, dollarsOfSol, deploymentSol, programSize_exact, solPrice, lamportsPerByte, lamportsPerSol,
    id_eq]
  push_cast
  ring

theorem bytecode_deploymentGas : 21000 + size.bytecode * 200 ≤ size.deploymentGas := by
  rw [Size.deploymentGas]
  omega

theorem le_solanaDollars : 8 / 5 ≤ solanaDollars size := by
  have hcode : (0 : ℚ) ≤ size.bytecode := Nat.cast_nonneg _
  rw [solanaDollars_exact]
  linarith

theorem savings_exact : savings id size = toCents id (ethereumDollars size - solanaDollars size) := rfl

end Exact

section Lines

variable {size : Size} (h : 0 < size.lines)
include h

theorem le_bytecode : 200 ≤ size.bytecode := by
  rw [Size.bytecode, bytecodeLimit]
  omega

/-- A deployment on the Solana chain costs at most seven tenths of one on the Ethereum chain. -/
theorem solanaDollars_le : solanaDollars size ≤ 7 / 10 * ethereumDollars size := by
  have hcode : (200 : ℚ) ≤ size.bytecode := by exact_mod_cast le_bytecode h
  have hgas : (21000 + size.bytecode * 200 : ℚ) ≤ size.deploymentGas := by exact_mod_cast bytecode_deploymentGas size
  rw [solanaDollars_exact, ethereumDollars_exact]
  linarith

theorem ethereumDollars_pos : 0 < ethereumDollars size := by
  have := solanaDollars_le h
  have := le_solanaDollars size
  linarith

/-- At least a quarter of the cost is saved, and not more than all of it. -/
theorem savings_bounds :
    ethereumDollars size / 4 ≤ savings id size ∧ savings id size ≤ ethereumDollars size := by
  have hle := solanaDollars_le h
  have hleast := le_solanaDollars size
  obtain ⟨hbelow, habove⟩ := toCents_near (ethereumDollars size - solanaDollars size)
  rw [savings_exact]
  constructor
  · linarith
  · linarith

theorem savedPercent_exact :
    savedPercent id size = roundHalfEven (savings id size / ethereumDollars size * 100) :=
  if_neg (ethereumDollars_pos h).ne'

theorem savedPercent_bounds : 0 < savedPercent id size ∧ savedPercent id size ≤ 100 := by
  have hpositive := ethereumDollars_pos h
  obtain ⟨hleast, hgreatest⟩ := savings_bounds h
  have hquarter : 1 / 4 ≤ savings id size / ethereumDollars size := by
    rw [le_div_iff₀ hpositive]
    linarith
  have hwhole : savings id size / ethereumDollars size ≤ 1 := (div_le_one hpositive).2 hgreatest
  obtain ⟨hbelow, habove⟩ := roundHalfEven_near (savings id size / ethereumDollars size * 100)
  rw [← savedPercent_exact h] at hbelow habove
  constructor
  · have hpercent : (0 : ℚ) < savedPercent id size := by linarith
    exact_mod_cast hpercent
  · have hpercent : (savedPercent id size : ℚ) < 101 := by linarith
    exact Int.lt_add_one_iff.1 (by exact_mod_cast hpercent)

end Lines

/-- Without a line the fixed parts alone would make the Solana chain the dearer one. -/
example : ethereumDollars ⟨0, 0, 0, 0⟩ < solanaDollars ⟨0, 0, 0, 0⟩ := by decide +kernel

/-- More lines, functions and variables need no less gas. -/
theorem deploymentGas_mono {size larger : Size} (hlines : size.lines ≤ larger.lines)
    (hfunctions : size.functions ≤ larger.functions) (hvariables : size.stateVariables ≤ larger.stateVariables) :
    size.deploymentGas ≤ larger.deploymentGas := by
  have hcode : size.bytecode ≤ larger.bytecode := min_le_min_right _ (Nat.mul_le_mul_right 200 hlines)
  rw [Size.deploymentGas, Size.deploymentGas]
  omega

/-- In exact arithmetic a deployment always costs less on the Solana chain, also in whole cents, and what is saved is
more than nothing and at most all of it. Nothing is divided by zero, so the share that is saved is always a quotient.
The gas grows with the source and the analysis. -/
theorem deployment_saves (source : List Char) (analysis : Analysis) :
    let size := Size.ofAnalysis (lineCount source) analysis
    let report := exactReport source analysis
    solanaDollars size < ethereumDollars size ∧
      report.solana.deployment < report.ethereum.deployment ∧
      0 < report.savings ∧
      (∀ divisor ∈ divisors size, divisor ≠ 0) ∧
      report.savedPercent = roundHalfEven (report.savings / ethereumDollars size * 100) ∧
      0 < report.savedPercent ∧ report.savedPercent ≤ 100 ∧
      ∀ (longer : List Char) (larger : Analysis), lineCount source ≤ lineCount longer →
        analysis.signatureCount ≤ larger.signatureCount →
        stateVariableCount analysis.contracts ≤ stateVariableCount larger.contracts →
        size.deploymentGas ≤ (Size.ofAnalysis (lineCount longer) larger).deploymentGas := by
  intro size report
  have hlines : 0 < size.lines := Nat.succ_pos _
  have hpositive := ethereumDollars_pos hlines
  have hle := solanaDollars_le hlines
  have hleast := le_solanaDollars size
  refine ⟨by linarith, ?cents, ?savings, ?divisors, savedPercent_exact hlines, (savedPercent_bounds hlines).1,
    (savedPercent_bounds hlines).2,
    fun longer larger => @deploymentGas_mono size (.ofAnalysis (lineCount longer) larger)⟩
  case cents =>
    have hsolana := (toCents_near (solanaDollars size)).2
    have hethereum := (toCents_near (ethereumDollars size)).1
    show toCents id (solanaDollars size) < toCents id (ethereumDollars size)
    linarith
  case savings =>
    have hquarter := (savings_bounds hlines).1
    show 0 < savings id size
    linarith
  case divisors =>
    have hlamports : (lamportsPerSol : ℚ) ≠ 0 := by norm_num [lamportsPerSol]
    simp only [divisors, List.forall_mem_cons]
    exact ⟨hlamports, by norm_num, by norm_num, by norm_num, hpositive.ne', by simp⟩

/-- The shortest source, and one that is a line longer and declares a function. -/
theorem deployment_saves_empty :
    let larger : Analysis := { contracts := [{ name := "Vault", functions := [{ name := "open" }] }] }
    lineCount [] ≤ lineCount ['\n'] ∧ Analysis.signatureCount {} ≤ larger.signatureCount ∧
      stateVariableCount [] ≤ stateVariableCount larger.contracts ∧
      (Size.ofAnalysis (lineCount []) {}).deploymentGas = 61000 ∧
      61000 ≤ (Size.ofAnalysis (lineCount ['\n']) larger).deploymentGas ∧
      (exactReport [] {}).savedPercent = 37 ∧ 0 < (exactReport [] {}).savings := by
  intro larger
  have hlines : lineCount [] ≤ lineCount ['\n'] := by decide
  have hfunctions : Analysis.signatureCount {} ≤ larger.signatureCount := by decide
  have hvariables : stateVariableCount [] ≤ stateVariableCount larger.contracts := by decide
  obtain ⟨-, -, hsavings, -, -, -, -, hgrows⟩ := deployment_saves [] {}
  have hgas : (Size.ofAnalysis (lineCount []) {}).deploymentGas = 61000 := by decide
  exact ⟨hlines, hfunctions, hvariables, hgas, hgas ▸ hgrows ['\n'] larger hlines hfunctions hvariables,
    by decide +kernel, hsavings⟩

end Cost

end ContractMigration
