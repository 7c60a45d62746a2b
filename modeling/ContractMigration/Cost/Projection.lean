import ContractMigration.Analysis.Basic
import ContractMigration.Numeric.Rounding

/-!
# Cost projections

Two fixed formulas project what a program costs on either chain from the number of lines of its source and from what
it declares. All prices are constants. A formula is written once for any arithmetic: `rounding` is applied to every
constant that is no integer and to the result of every operation, so rounding to the nearest double gives the figures
of a report, and the identity gives the exact reading of the same formula.
-/

namespace ContractMigration.Cost

open Numeric (roundHalfEven)

/-! ### Prices and limits -/

/-- The price of one ether in dollars. -/
def etherPrice : Nat := 2800

/-- The price of one SOL in dollars. -/
def solPrice : Nat := 160

/-- The price of one unit of gas in gwei. -/
def gasPrice : Nat := 18

/-- The lamports in one SOL. -/
def lamportsPerSol : Nat := 1000000000

/-- The lamports for one byte of an account that pays no rent. -/
def lamportsPerByte : Nat := 6960

/-- The lamports for one signature. -/
def signatureFee : Nat := 5000

/-- The most bytes of code that the Ethereum chain takes. -/
def bytecodeLimit : Nat := 24576

/-- The most bytes of code that the Solana chain takes. -/
def programLimit : Nat := 200 * 1024

/-- The gas for writing one slot. -/
def slotGas : Nat := 20000

/-- The transactions of one year. -/
def annualTransactions : Nat := 1000

/-! ### Inputs and figures -/

/-- What a projection depends on. -/
structure Size where
  lines : Nat
  functions : Nat
  stateVariables : Nat
  mappings : Nat
deriving DecidableEq, Repr

/-- The size of an analysed source. -/
def Size.ofAnalysis (lines : Nat) (analysis : Analysis) : Size where
  lines
  functions := analysis.signatureCount
  stateVariables := stateVariableCount analysis.contracts
  mappings := analysis.mappings.length

namespace Size

/-- The estimated bytes of code. -/
def bytecode (size : Size) : Nat :=
  min (size.lines * 200) bytecodeLimit

/-- The gas for a deployment. -/
def deploymentGas (size : Size) : Nat :=
  21000 + size.bytecode * 200 + size.functions * 15000 + size.stateVariables * 5000

/-- The gas for a transaction. -/
def transactionGas (size : Size) : Nat :=
  21000 + 30000 + size.functions * 2000

/-- The compute units for a transaction. -/
def computeUnits (size : Size) : Nat :=
  size.functions * 5000

/-- The bytes of the state account. -/
def accountSize (size : Size) : Nat :=
  size.stateVariables * 32 + 64

end Size

section Formulas

variable (rounding : Rat → Rat)

/-- Rounds to cents. -/
def toCents (amount : Rat) : Rat :=
  rounding ((roundHalfEven (rounding (amount * 100)) : Rat) / 100)

/-- The ether that an amount of gas costs. -/
def etherOfGas (gas : Nat) : Rat :=
  rounding (rounding (gas * gasPrice : Nat) * rounding (1 / 1000000000))

/-- The dollars that an amount of gas costs. -/
def dollarsOfGas (gas : Nat) : Rat :=
  rounding (etherOfGas rounding gas * etherPrice)

/-- The dollars that an amount of SOL costs. -/
def dollarsOfSol (amount : Rat) : Rat :=
  rounding (amount * solPrice)

/-- The dollars for a year on the Ethereum chain. -/
def annualEthereum (size : Size) : Rat :=
  rounding (rounding (dollarsOfGas rounding size.transactionGas * annualTransactions) +
    rounding (rounding (dollarsOfGas rounding slotGas * rounding size.stateVariables) * 5))

/-- The estimated bytes of a Solana program. -/
def programSize (size : Size) : Rat :=
  let bytes := rounding (size.bytecode * (3 / 2))
  if bytes ≤ programLimit then bytes else programLimit

/-- The SOL for a deployment. -/
def deploymentSol (size : Size) : Rat :=
  rounding (rounding (rounding (programSize rounding size * lamportsPerByte) / lamportsPerSol) + rounding (1 / 100))

/-- The SOL for a transaction. -/
def transactionSol (size : Size) : Rat :=
  rounding (rounding (signatureFee / lamportsPerSol) +
    rounding (rounding (rounding size.computeUnits * rounding (1 / 1000000)) / lamportsPerSol))

/-- The lamports for a transaction. -/
def transactionLamports (size : Size) : Int :=
  roundHalfEven (rounding (transactionSol rounding size * lamportsPerSol))

/-- The SOL that the state account holds. -/
def accountSol (size : Size) : Rat :=
  rounding (rounding (size.accountSize * lamportsPerByte : Nat) / lamportsPerSol)

/-- The dollars that the state account holds. -/
def accountDollars (size : Size) : Rat :=
  dollarsOfSol rounding (accountSol rounding size)

/-- The dollars for a year on the Solana chain, without the accounts of mappings. -/
def annualSolana (size : Size) : Rat :=
  rounding (rounding (dollarsOfSol rounding (transactionSol rounding size) * annualTransactions) +
    rounding (accountDollars rounding size * 2))

/-- The dollars for a year on the Solana chain, with one account for each mapping. -/
def annualSolanaWithMappings (size : Size) : Rat :=
  rounding (annualSolana rounding size + rounding (rounding size.mappings * accountDollars rounding size))

/-- The dollars saved on a deployment, in whole cents. -/
def savings (size : Size) : Rat :=
  toCents rounding (rounding (dollarsOfGas rounding size.deploymentGas -
    dollarsOfSol rounding (deploymentSol rounding size)))

/-- The part of the dollars for a deployment that is saved, in percent. -/
def savedPercent (size : Size) : Int :=
  let spent := dollarsOfGas rounding size.deploymentGas
  if spent = 0 then 0
  else roundHalfEven (rounding (rounding (savings rounding size / spent) * 100))

/-- A number of bytes in kilobytes. -/
def kilobytes (bytes : Rat) : Int :=
  roundHalfEven (rounding (bytes / 1024))

end Formulas

end ContractMigration.Cost
