import EthereumLogs.Dbt.Models
import EthereumLogs.Pipeline
import EthereumLogs.DeltaWriter.Store

namespace EthereumLogs.Dbt
open Python Effect Duckdb LogNormalizer DeltaWriter

section Tests

variable (vars : DbtVars)

-- each predicate selects the rows that its dbt test returns

def ethereumLogsUint256Contract (log : LogRow) : Bool :=
  let status := log.dataUint256DecodeStatus
  let text := log.dataUint256DecimalText
  let isWord := status = uint256StatusDecimal38Available ∨ status = uint256StatusOutsideDecimal38Range
  (¬ isWord ∧ status ≠ uint256StatusNotUint256Word) ∨
    (status = uint256StatusNotUint256Word ∧ text ≠ none) ∨
    (isWord ∧ (text.map matchesCanonicalDecimal).getD false = false) ∨
    (status = uint256StatusDecimal38Available ∧ text.any (fun t => 38 < t.length)) ∨
    (status = uint256StatusOutsideDecimal38Range ∧ text.any (fun t => t.length ≤ 38))

def erc20AmountNumericStatusIntegrity (transfer : Erc20Transfer) : Bool :=
  let status := transfer.amountNumericStatus
  let text := transfer.rawAmountDecimalText
  let amount := transfer.rawAmountDecimal
  (status = uint256StatusDecimal38Available ∧
      (amount = none ∨ text.any (fun t => 38 < t.length))) ∨
    (status = uint256StatusOutsideDecimal38Range ∧
      (amount ≠ none ∨ text.any (fun t => t.length ≤ 38))) ∨
    amount.any (· < 0)

def erc20TransferIntegrity (transfer : Erc20Transfer) : Bool :=
  ¬ matchesHexWord 40 transfer.fromAddress ∨ ¬ matchesHexWord 40 transfer.toAddress ∨
    ¬ matchesHexWord 64 transfer.dataRaw ∨
    (transfer.rawAmountDecimalText.map matchesCanonicalDecimal).getD false = false ∨
    ¬ [uint256StatusDecimal38Available, uint256StatusOutsideDecimal38Range].contains
      transfer.amountNumericStatus

def nonUsdtAmountUsdtNull (transfer : Erc20Transfer) : Bool :=
  transfer.contractAddress ≠ lower vars.usdtContractAddress ∧
    (transfer.amountUsdtDecimalText ≠ none ∨ transfer.amountUsdt ≠ none)

def usdtAmountNumericNotNull (transfer : Erc20Transfer) : Bool :=
  transfer.contractAddress = lower vars.usdtContractAddress ∧
    (transfer.rawAmountDecimalText = none ∨
      transfer.amountNumericStatus ≠ uint256StatusDecimal38Available ∨
      transfer.rawAmountDecimal = none ∨ transfer.amountUsdtDecimalText = none ∨
      transfer.amountUsdt = none)

def treasuryFlowIntegrity (flow : TreasuryFlow) : Bool :=
  flow.chainId ≠ 1 ∨ flow.contractAddress ≠ lower vars.usdtContractAddress ∨
    flow.treasuryAddress ≠ lower vars.tetherTreasuryAddress ∨ flow.transferCount = 0 ∨
    flow.totalAmountRaw < 0 ∨ flow.totalAmountUsdt < 0

def ethereumLogsTests (logs : List LogRow) : Bool :=
  (logs.map logKey).Nodup ∧ logs.all (fun log => !ethereumLogsUint256Contract log)

def erc20TransfersTests (transfers : List Erc20Transfer) : Bool :=
  transfers.all fun transfer => !erc20AmountNumericStatusIntegrity transfer &&
    !erc20TransferIntegrity transfer && !nonUsdtAmountUsdtNull vars transfer &&
    !usdtAmountNumericNotNull vars transfer

def tetherTreasuryFlowTests (flows : List TreasuryFlow) : Bool :=
  (flows.map TreasuryFlow.toFlowKey).Nodup ∧ flows.all (fun flow => !treasuryFlowIntegrity vars flow)

end Tests

structure Warehouse where
  erc20Transfers : Option (List Erc20Transfer)
  tetherTreasuryFlow : Option (List TreasuryFlow)
  qualitySummaryWindow : Option Window
deriving DecidableEq, Repr

namespace Warehouse

def empty : Warehouse := ⟨none, none, none⟩

def transfers (warehouse : Warehouse) : List Erc20Transfer := warehouse.erc20Transfers.getD []

def flows (warehouse : Warehouse) : List TreasuryFlow := warehouse.tetherTreasuryFlow.getD []

-- no row is read before the view exists, or when one of its sums raises
def qualitySummary (usdtDecimals : Nat) (warehouse : Warehouse) : Option QualitySummary :=
  warehouse.qualitySummaryWindow.bind fun window =>
    tetherTreasuryFlowQualitySummary usdtDecimals window warehouse.flows

end Warehouse

inductive DbtNode where
  | ethereumLogs | ethereumLogsTests | erc20Transfers | erc20TransfersTests | tetherTreasuryFlow
  | tetherTreasuryFlowTests | tetherTreasuryFlowQualitySummary
  | tetherTreasuryFlowQualitySummaryTests
deriving DecidableEq, Repr

structure DbtProcess where
  startError : Option String
  failing : DbtNode → Bool
  timesOut : Bool
  now : Instant

def dbtBuildTimeoutSeconds : Nat := 900

def DbtProcess.failure (process : DbtProcess) : Exc :=
  if process.timesOut then
    .dbtBuildError s!"dbt build timed out after {dbtBuildTimeoutSeconds} seconds."
  else .dbtBuildError "dbt build failed with exit code 1."

-- a node that fails, or whose tests return rows, stops every node below it
def runNode (process : DbtProcess) (node : DbtNode) (passes : Bool) : Action Warehouse Unit :=
  if process.failing node ∨ passes = false then throw process.failure else pure ()

variable (vars : DbtVars) (process : DbtProcess) (window : Window)

-- delete+insert on the unique_key; the first build creates the table
def buildErc20Transfers (deltaScan : List LogRow) : Action Warehouse Unit := do
  runNode process .erc20Transfers (vars.usdtDecimals ≤ 38)
  Eff.modify fun warehouse => { warehouse with
    erc20Transfers := some (Keyed.replace transferKey warehouse.transfers
      (erc20Transfers vars window deltaScan)) }

def buildTetherTreasuryFlow : Action Warehouse Unit := do
  let warehouse ← Eff.get
  runNode process .tetherTreasuryFlow (flowSumsFit vars window warehouse.transfers)
  Eff.modify fun warehouse => { warehouse with
    tetherTreasuryFlow := some (Keyed.replace TreasuryFlow.toFlowKey warehouse.flows
      (tetherTreasuryFlow vars window process.now warehouse.transfers)) }

def buildQualitySummary : Action Warehouse Unit := do
  runNode process .tetherTreasuryFlowQualitySummary true
  Eff.modify fun warehouse => { warehouse with qualitySummaryWindow := some window }

def testErc20Transfers : Action Warehouse Unit := do
  let warehouse ← Eff.get
  runNode process .erc20TransfersTests (erc20TransfersTests vars warehouse.transfers)

def testTetherTreasuryFlow : Action Warehouse Unit := do
  let warehouse ← Eff.get
  runNode process .tetherTreasuryFlowTests (tetherTreasuryFlowTests vars warehouse.flows)

-- not_null on the four totals evaluates every sum of the view
def testQualitySummary : Action Warehouse Unit := do
  let warehouse ← Eff.get
  runNode process .tetherTreasuryFlowQualitySummaryTests
    (warehouse.qualitySummary vars.usdtDecimals).isSome

def dbtBuild (table : Option DeltaTable) : Action Warehouse Unit := do
  runNode process .ethereumLogs table.isSome
  runNode process .ethereumLogsTests (ethereumLogsTests (ethereumLogs (storedRows table)))
  buildErc20Transfers vars process window (storedRows table)
  testErc20Transfers vars process
  buildTetherTreasuryFlow vars process window
  testTetherTreasuryFlow vars process
  buildQualitySummary process window
  testQualitySummary vars process

def startProcess : Except Exc Unit :=
  match process.startError with
  | some reason => .error (.dbtBuildError s!"dbt build process could not start: {reason}")
  | none => .ok ()

def finishProcess : Except Exc Unit :=
  if process.timesOut then .error process.failure else .ok ()

def runDbtBuild (_settings : PipelineSettings) (windowStart windowEnd : Instant)
    (table : Option DeltaTable) : Action Warehouse JsonObject := do
  Eff.ofExcept (startProcess process)
  dbtBuild vars process ⟨windowStart, windowEnd⟩ table
  Eff.ofExcept (finishProcess process)
  pure
    [("returncode", .int 0),
     ("vars", .obj [("window_start", .str (utcIsoformat windowStart)),
      ("window_end", .str (utcIsoformat windowEnd))])]

end EthereumLogs.Dbt
