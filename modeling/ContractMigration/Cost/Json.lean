import ContractMigration.Cost.Estimate
import ContractMigration.Json.Basic

/-!
# Cost estimates as JSON

Amounts of money are written as real numbers, counts as integers.
-/

namespace ContractMigration

/-- An amount of money as a real number. -/
def Json.ofAmount (x : Rat) : Json :=
  .real (.finite (x < 0) (if x < 0 then -x else x))

/-- Writes a line of a breakdown. -/
def CostItem.toJson (item : CostItem) : Json :=
  .obj [("label", .str item.label), ("eth_value", .ofText? item.ethValue), ("sol_value", .ofText? item.solValue),
    ("eth_usd", (item.ethUsd.map Json.ofAmount).getD .null), ("sol_usd", (item.solUsd.map Json.ofAmount).getD .null)]

/-- Writes the costs on one chain. -/
def ChainFigures.toJson (cost : ChainFigures) : Json :=
  .obj [("chain", .str cost.chain),
    ("deployment_gas", (cost.deploymentGas.map fun gas : Nat => Json.int gas).getD .null),
    ("deployment_cost", .ofAmount cost.deployment), ("deployment_native", .str cost.deploymentNative),
    ("per_tx_cost", .ofAmount cost.transaction), ("per_tx_native", .str cost.transactionNative),
    ("storage_per_slot", .ofAmount cost.storagePerSlot), ("annual_maintenance_usd", .ofAmount cost.annual),
    ("details", .arr (cost.details.map CostItem.toJson))]

/-- Writes a report. -/
def CostReport.toJson (report : CostReport) : Json :=
  .obj [("ethereum", report.ethereum.toJson), ("solana", report.solana.toJson),
    ("savings_percent", .int report.savedPercent), ("savings_usd", .ofAmount report.savings),
    ("comparison", .arr (report.comparison.map CostItem.toJson)), ("assumptions", .ofTexts report.assumptions)]

end ContractMigration
