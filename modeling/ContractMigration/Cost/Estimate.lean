import ContractMigration.Cost.Projection
import ContractMigration.Numeric.Decimal

/-!
# Cost estimates

The figures of a projection laid out for a report: the costs on either chain with a breakdown, and a comparison row by
row. The text of a figure is fixed in its places; dollars are shown in whole cents.
-/

namespace ContractMigration

open Cost Numeric

/-- One line of a breakdown or of the comparison. -/
structure CostItem where
  label : String
  ethValue : Option String := none
  solValue : Option String := none
  ethUsd : Option Rat := none
  solUsd : Option Rat := none
deriving DecidableEq, Repr

/-- The costs on one chain, in dollars unless they are called native. -/
structure ChainFigures where
  chain : String
  deploymentGas : Option Nat := none
  deployment : Rat
  deploymentNative : String
  transaction : Rat
  transactionNative : String
  storagePerSlot : Rat
  annual : Rat
  details : List CostItem
deriving DecidableEq, Repr

/-- The comparison of both chains. -/
structure CostReport where
  ethereum : ChainFigures
  solana : ChainFigures
  savedPercent : Int
  savings : Rat
  comparison : List CostItem
  assumptions : List String
deriving DecidableEq, Repr

namespace Cost

/-- What the figures rest on. -/
def assumptions : List String := [
  "ETH price: $" ++ toString etherPrice,
  "SOL price: $" ++ toString solPrice,
  "Gas price: " ++ toString gasPrice ++ " gwei (Ethereum)",
  "Solana base fee: " ++ grouped signatureFee ++ " lamports per signature",
  "Rent exemption: " ++ grouped lamportsPerByte ++ " lamports/byte",
  "Solana rent is refundable when accounts are closed",
  "Estimates based on static analysis — actual costs depend on implementation"]

section Reports

variable (rounding : Rat → Rat) (size : Size)

/-- The costs on the Ethereum chain. -/
def ethereumCost : ChainFigures where
  chain := "Ethereum"
  deploymentGas := some size.deploymentGas
  deployment := toCents rounding (dollarsOfGas rounding size.deploymentGas)
  deploymentNative := fixed 4 (etherOfGas rounding size.deploymentGas) ++ " ETH"
  transaction := toCents rounding (dollarsOfGas rounding size.transactionGas)
  transactionNative := fixed 5 (etherOfGas rounding size.transactionGas) ++ " ETH"
  storagePerSlot := toCents rounding (dollarsOfGas rounding slotGas)
  annual := toCents rounding (annualEthereum rounding size)
  details := [
    { label := "Estimated bytecode size",
      ethValue := some ("~" ++ toString (kilobytes rounding size.bytecode) ++ " KB") },
    { label := "Estimated deploy gas", ethValue := some (grouped size.deploymentGas) },
    { label := "Gas price assumption", ethValue := some (toString gasPrice ++ " gwei") },
    { label := "ETH price assumption", ethValue := some ("$" ++ toString etherPrice) },
    { label := "SSTORE cost (1 slot)", ethValue := some (grouped slotGas ++ " gas") },
    { label := "Per-tx gas (avg)", ethValue := some (grouped size.transactionGas) }]

/-- The costs on the Solana chain. The dollars of a transaction are so few that they keep four places. -/
def solanaCost : ChainFigures where
  chain := "Solana"
  deployment := toCents rounding (dollarsOfSol rounding (deploymentSol rounding size))
  deploymentNative := fixed 4 (deploymentSol rounding size) ++ " SOL"
  transaction :=
    rounding (toCents rounding (rounding (dollarsOfSol rounding (transactionSol rounding size) * 100)) / 100)
  transactionNative := "~" ++ groupedInt (transactionLamports rounding size) ++ " lamports"
  storagePerSlot := toCents rounding (accountDollars rounding size)
  annual := toCents rounding (annualSolanaWithMappings rounding size)
  details := [
    { label := "Program binary size",
      solValue := some ("~" ++ toString (kilobytes rounding (programSize rounding size)) ++ " KB") },
    { label := "Rent-exempt deposit", solValue := some (fixed 4 (deploymentSol rounding size) ++ " SOL (refundable)") },
    { label := "Base signature fee", solValue := some (grouped signatureFee ++ " lamports (~$0.0008)") },
    { label := "SOL price assumption", solValue := some ("$" ++ toString solPrice) },
    { label := "PDA accounts for mappings",
      solValue := some (toString size.mappings ++ " × ~" ++ toString size.accountSize ++ "B") },
    { label := "Compute budget (estimated)", solValue := some (grouped size.computeUnits ++ " CUs/tx") }]

/-- Both chains row by row. -/
def comparison : List CostItem :=
  let ethereum := ethereumCost rounding size
  let solana := solanaCost rounding size
  [ { label := "Deployment", ethValue := some ethereum.deploymentNative, ethUsd := some ethereum.deployment,
      solValue := some solana.deploymentNative, solUsd := some solana.deployment },
    { label := "Per Transaction", ethValue := some (grouped size.transactionGas ++ " gas"),
      ethUsd := some ethereum.transaction, solValue := some solana.transactionNative,
      solUsd := some solana.transaction },
    { label := "Storage (1 entry)", ethValue := some (grouped slotGas ++ " gas (permanent)"),
      ethUsd := some ethereum.storagePerSlot, solValue := some ("~" ++ toString size.accountSize ++ "B rent"),
      solUsd := some solana.storagePerSlot },
    { label := "Est. Annual (" ++ toString (annualTransactions / 1000) ++ "k txs)", ethUsd := some ethereum.annual,
      solUsd := some solana.annual }]

/-- The estimate for a program of some size. -/
def estimate : CostReport where
  ethereum := ethereumCost rounding size
  solana := solanaCost rounding size
  savedPercent := savedPercent rounding size
  savings := savings rounding size
  comparison := comparison rounding size
  assumptions := assumptions

end Reports

end Cost

/-- The estimate for an analysed source with some number of lines, in double precision. -/
def costReport (lines : Nat) (analysis : Analysis) : CostReport :=
  Cost.estimate nearestDouble (.ofAnalysis lines analysis)

end ContractMigration
