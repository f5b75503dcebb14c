import EthereumLogs.Config
import EthereumLogs.LogNormalizer
import EthereumLogs.Dbt.Duckdb
import EthereumLogs.Library.Grouping
import EthereumLogs.Library.Keyed
import Mathlib.Algebra.BigOperators.Group.List.Basic
import Mathlib.Algebra.Order.Ring.Rat

namespace EthereumLogs.Dbt
open Python Duckdb LogNormalizer

structure DbtVars where
  usdtContractAddress : Text
  tetherTreasuryAddress : Text
  usdtDecimals : Nat
deriving DecidableEq, Repr

structure Window where
  start : Instant
  stop : Instant
deriving DecidableEq, Repr

def Window.Contains (window : Window) (t : Instant) : Prop := window.start ≤ t ∧ t < window.stop

instance (window : Window) (t : Instant) : Decidable (window.Contains t) :=
  inferInstanceAs (Decidable (_ ∧ _))

def stagedLog (row : LogRow) : LogRow :=
  { row with
    blockHash := lower row.blockHash
    transactionHash := lower row.transactionHash
    contractAddress := lower row.contractAddress
    topic0 := row.topic0.map lower
    topic1 := row.topic1.map lower
    topic2 := row.topic2.map lower
    topic3 := row.topic3.map lower
    dataRaw := lower row.dataRaw }

def ethereumLogs (deltaScan : List LogRow) : List LogRow := deltaScan.map stagedLog

abbrev LogKey := Int × Text × Int

def logKey (log : LogRow) : LogKey := (log.chainId, log.transactionHash, log.logIndex)

structure Erc20Transfer where
  chainId : Int
  blockNumber : Int
  blockTimestampUtc : Instant
  blockDateUtc : Int
  intervalStartUtc : Instant
  intervalEndUtc : Instant
  transactionHash : Text
  logIndex : Int
  contractAddress : Text
  fromAddress : Text
  toAddress : Text
  dataRaw : Text
  rawAmountDecimalText : Option Text
  rawAmountDecimal : Option Rat
  amountNumericStatus : Text
  amountUsdtDecimalText : Option Text
  amountUsdt : Option Rat
  ingestedAtUtc : Instant
deriving DecidableEq, Repr

def transferKey (transfer : Erc20Transfer) : LogKey :=
  (transfer.chainId, transfer.transactionHash, transfer.logIndex)

def HasTransferShape (log : LogRow) : Prop :=
  log.topic0 = some transferTopic0 ∧ log.topic1 ≠ none ∧ log.topic2 ≠ none ∧ log.topic3 = none ∧
    log.dataUint256DecodeStatus ∈
      [uint256StatusDecimal38Available, uint256StatusOutsideDecimal38Range] ∧
    log.removed.getD false = false

instance (log : LogRow) : Decidable (HasTransferShape log) :=
  inferInstanceAs (Decidable (_ ∧ _))

def sourceLogs (window : Window) (logs : List LogRow) : List LogRow :=
  logs.filter fun log => HasTransferShape log ∧ window.Contains log.blockTimestampUtc

def decodeEthereumAddress : Option Text → Option Text
  | none => none
  | some topic =>
    if matchesHexWord 64 (lower topic) then some (lower ("0x".toList ++ right topic 40)) else none

def rawAmountDecimal (status : Text) (text : Option Text) : Option Rat :=
  if status = uint256StatusDecimal38Available then text.bind (tryCastDecimal 0) else none

def shiftDecimalPoint (decimals : Nat) (text : Text) : Text :=
  if text.length ≤ decimals then "0.".toList ++ lpad text decimals '0'
  else left text (text.length - decimals) ++ ['.'] ++ right text decimals

def amountUsdtDecimalText (vars : DbtVars) (contractAddress status : Text) (text : Option Text) :
    Option Text :=
  if contractAddress = lower vars.usdtContractAddress ∧ status = uint256StatusDecimal38Available then
    text.map (shiftDecimalPoint vars.usdtDecimals)
  else none

def decodeTransfer (vars : DbtVars) (log : LogRow) : Option Erc20Transfer := do
  let fromAddress ← decodeEthereumAddress log.topic1
  let toAddress ← decodeEthereumAddress log.topic2
  let amountText := amountUsdtDecimalText vars log.contractAddress log.dataUint256DecodeStatus
    log.dataUint256DecimalText
  pure
    { chainId := log.chainId
      blockNumber := log.blockNumber
      blockTimestampUtc := log.blockTimestampUtc
      blockDateUtc := log.blockDateUtc
      intervalStartUtc := log.intervalStartUtc
      intervalEndUtc := log.intervalEndUtc
      transactionHash := log.transactionHash
      logIndex := log.logIndex
      contractAddress := log.contractAddress
      fromAddress := fromAddress
      toAddress := toAddress
      dataRaw := log.dataRaw
      rawAmountDecimalText := log.dataUint256DecimalText
      rawAmountDecimal := rawAmountDecimal log.dataUint256DecodeStatus log.dataUint256DecimalText
      amountNumericStatus := log.dataUint256DecodeStatus
      amountUsdtDecimalText := amountText
      amountUsdt := amountText.bind (tryCastDecimal vars.usdtDecimals)
      ingestedAtUtc := log.ingestedAtUtc }

-- qualify row_number() over (partition by key order by ingested_at_utc desc) = 1
def latestIngested (transfers : List Erc20Transfer) : List Erc20Transfer :=
  Keyed.latest transferKey (fun a b => b.ingestedAtUtc ≤ a.ingestedAtUtc) transfers

def erc20Transfers (vars : DbtVars) (window : Window) (deltaScan : List LogRow) :
    List Erc20Transfer :=
  latestIngested ((sourceLogs window (ethereumLogs deltaScan)).filterMap (decodeTransfer vars))

inductive Direction where
  | inflow | outflow
deriving DecidableEq, Repr

structure FlowKey where
  chainId : Int
  contractAddress : Text
  treasuryAddress : Text
  hourStartUtc : Instant
  direction : Direction
deriving DecidableEq, Repr

structure TreasuryFlow extends FlowKey where
  transferCount : Nat
  totalAmountRaw : Rat
  totalAmountUsdt : Rat
  sourceIntervalStartUtc : Instant
  updatedAtUtc : Instant
deriving DecidableEq, Repr

def IsTreasuryTransfer (vars : DbtVars) (transfer : Erc20Transfer) : Prop :=
  transfer.contractAddress = lower vars.usdtContractAddress ∧
    transfer.amountNumericStatus = uint256StatusDecimal38Available ∧
    transfer.rawAmountDecimal ≠ none ∧ transfer.amountUsdt ≠ none ∧
    (transfer.fromAddress = lower vars.tetherTreasuryAddress ∨
      transfer.toAddress = lower vars.tetherTreasuryAddress) ∧
    ¬ (transfer.fromAddress = lower vars.tetherTreasuryAddress ∧
      transfer.toAddress = lower vars.tetherTreasuryAddress)

instance (vars : DbtVars) (transfer : Erc20Transfer) : Decidable (IsTreasuryTransfer vars transfer) :=
  inferInstanceAs (Decidable (_ ∧ _))

def treasuryTransfers (vars : DbtVars) (window : Window) (transfers : List Erc20Transfer) :
    List Erc20Transfer :=
  transfers.filter fun transfer =>
    IsTreasuryTransfer vars transfer ∧ window.Contains transfer.blockTimestampUtc

def directionOf (treasuryAddress : Text) (transfer : Erc20Transfer) : Option Direction :=
  if transfer.toAddress = treasuryAddress then some .inflow
  else if transfer.fromAddress = treasuryAddress then some .outflow
  else none

def classify (vars : DbtVars) (transfer : Erc20Transfer) : Option FlowKey :=
  (directionOf (lower vars.tetherTreasuryAddress) transfer).map fun direction =>
    { chainId := transfer.chainId
      contractAddress := transfer.contractAddress
      treasuryAddress := lower vars.tetherTreasuryAddress
      hourStartUtc := dateTruncHour transfer.blockTimestampUtc
      direction := direction }

def sumRaw (transfers : List Erc20Transfer) : Rat :=
  (transfers.filterMap Erc20Transfer.rawAmountDecimal).sum

def sumUsdt (transfers : List Erc20Transfer) : Rat :=
  (transfers.filterMap Erc20Transfer.amountUsdt).sum

-- sum() of the two amount columns of one group
def sumsFit (vars : DbtVars) (transfers : List Erc20Transfer) : Bool :=
  (sumDecimal 0 (transfers.filterMap Erc20Transfer.rawAmountDecimal)).isSome &&
    (sumDecimal vars.usdtDecimals (transfers.filterMap Erc20Transfer.amountUsdt)).isSome

def minIntervalStart (transfers : List Erc20Transfer) : Instant :=
  ((transfers.map Erc20Transfer.intervalStartUtc).min?).getD 0

def aggregated (now : Instant) (key : FlowKey) (transfers : List Erc20Transfer) : TreasuryFlow :=
  { toFlowKey := key
    transferCount := transfers.length
    totalAmountRaw := sumRaw transfers
    totalAmountUsdt := sumUsdt transfers
    sourceIntervalStartUtc := minIntervalStart transfers
    updatedAtUtc := now }

def tetherTreasuryFlow (vars : DbtVars) (window : Window) (now : Instant)
    (transfers : List Erc20Transfer) : List TreasuryFlow :=
  (Grouping.groupBy (classify vars) (treasuryTransfers vars window transfers)).map
    fun (key, group) => aggregated now key group

def flowSumsFit (vars : DbtVars) (window : Window) (transfers : List Erc20Transfer) : Bool :=
  (Grouping.groupBy (classify vars) (treasuryTransfers vars window transfers)).all
    fun (_, group) => sumsFit vars group

structure QualitySummary where
  windowStartUtc : Instant
  windowEndUtc : Instant
  flowRowCount : Nat
  transferCount : Nat
  directionCount : Nat
  firstHourStartUtc : Option Instant
  lastHourStartUtc : Option Instant
  totalInflowRaw : Rat
  totalOutflowRaw : Rat
  totalInflowUsdt : Rat
  totalOutflowUsdt : Rat
deriving DecidableEq, Repr

def directed (direction : Direction) (amount : TreasuryFlow → Rat) (flows : List TreasuryFlow) :
    List Rat := flows.map fun flow => if flow.direction = direction then amount flow else 0

def totalOf (direction : Direction) (amount : TreasuryFlow → Rat) (flows : List TreasuryFlow) : Rat :=
  (directed direction amount flows).sum

def flowOfWindow (window : Window) (flows : List TreasuryFlow) : List TreasuryFlow :=
  flows.filter fun flow => window.Contains flow.sourceIntervalStartUtc

-- case when direction = .. then total_amount_usdt else cast(0 as decimal(38, 6)) end
def summedUsdt (usdtDecimals : Nat) (flow : TreasuryFlow) : Rat :=
  castScale usdtDecimals (commonScale usdtDecimals 6) flow.totalAmountUsdt

def summarize (usdtDecimals : Nat) (window : Window) (flow : List TreasuryFlow) :
    Option QualitySummary := do
  let usdtScale := commonScale usdtDecimals 6
  let totalInflowRaw ← sumDecimal 0 (directed .inflow TreasuryFlow.totalAmountRaw flow)
  let totalOutflowRaw ← sumDecimal 0 (directed .outflow TreasuryFlow.totalAmountRaw flow)
  let totalInflowUsdt ← sumDecimal usdtScale (directed .inflow (summedUsdt usdtDecimals) flow)
  let totalOutflowUsdt ← sumDecimal usdtScale (directed .outflow (summedUsdt usdtDecimals) flow)
  pure
    { windowStartUtc := window.start
      windowEndUtc := window.stop
      flowRowCount := flow.length
      transferCount := (flow.map TreasuryFlow.transferCount).sum
      directionCount := (flow.map fun f => f.direction).dedup.length
      firstHourStartUtc := (flow.map fun f => f.hourStartUtc).min?
      lastHourStartUtc := (flow.map fun f => f.hourStartUtc).max?
      totalInflowRaw := totalInflowRaw
      totalOutflowRaw := totalOutflowRaw
      totalInflowUsdt := totalInflowUsdt
      totalOutflowUsdt := totalOutflowUsdt }

def tetherTreasuryFlowQualitySummary (usdtDecimals : Nat) (window : Window)
    (flows : List TreasuryFlow) : Option QualitySummary :=
  summarize usdtDecimals window (flowOfWindow window flows)

end EthereumLogs.Dbt
