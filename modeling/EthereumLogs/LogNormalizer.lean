import EthereumLogs.Python.Row
import Mathlib.Algebra.Group.Nat.Defs

namespace EthereumLogs
open Python

structure LogEvent where
  chainId : Int
  blockNumber : Int
  blockHash : Text
  transactionHash : Text
  transactionIndex : Option Int
  logIndex : Int
  contractAddress : Text
  topic0 : Option Text
  topic1 : Option Text
  topic2 : Option Text
  topic3 : Option Text
  dataRaw : Text
  dataUint256DecimalText : Option Text
  dataUint256DecodeStatus : Text
  removed : Option Bool
  blockTimestampUtc : Instant
  blockDateUtc : Int
deriving DecidableEq, Repr

structure LogRow extends LogEvent where
  intervalStartUtc : Instant
  intervalEndUtc : Instant
  ingestedAtUtc : Instant
deriving DecidableEq, Repr

def LogRow.toDict (row : LogRow) : PyRow :=
  [("chain_id", .int row.chainId),
   ("block_number", .int row.blockNumber),
   ("block_hash", .str row.blockHash),
   ("transaction_hash", .str row.transactionHash),
   ("transaction_index", .ofOptionalInt row.transactionIndex),
   ("log_index", .int row.logIndex),
   ("contract_address", .str row.contractAddress),
   ("topic0", .ofOptionalText row.topic0),
   ("topic1", .ofOptionalText row.topic1),
   ("topic2", .ofOptionalText row.topic2),
   ("topic3", .ofOptionalText row.topic3),
   ("data_raw", .str row.dataRaw),
   ("data_uint256_decimal_text", .ofOptionalText row.dataUint256DecimalText),
   ("data_uint256_decode_status", .str row.dataUint256DecodeStatus),
   ("removed", .ofOptionalBool row.removed),
   ("block_timestamp_utc", .datetime (.utc row.blockTimestampUtc)),
   ("block_date_utc", .date row.blockDateUtc),
   ("interval_start_utc", .datetime (.utc row.intervalStartUtc)),
   ("interval_end_utc", .datetime (.utc row.intervalEndUtc)),
   ("ingested_at_utc", .datetime (.utc row.ingestedAtUtc))]

namespace LogNormalizer

def uint256WordHexLength : Nat := 66
def decimal38Max : Nat := 10 ^ 38 - 1
def uint256StatusDecimal38Available : Text := "DECIMAL38_AVAILABLE".toList
def uint256StatusOutsideDecimal38Range : Text := "OUTSIDE_DECIMAL38_RANGE".toList
def uint256StatusNotUint256Word : Text := "NOT_UINT256_WORD".toList

structure Uint256DecodeResult where
  decimalText : Option Text
  status : Text
deriving DecidableEq, Repr

def ensureUtc (value : Datetime) (name : String) : Except Exc Instant :=
  value.astimezoneUtc (.normalizationError (name ++ " must be timezone-aware."))

def hexQuantityToInt (value : Option Text) : Except Exc Int :=
  match value with
  | some v => if startsWith0x v then int16 v else .error (.valueError "Expected hex quantity.")
  | none => .error (.valueError "Expected hex quantity.")

def optionalHexQuantity : Json → Except Exc (Option Int)
  | .null => .ok none
  | value => (hexQuantityToInt value.asStr).map some

def requiredHex (value : Option Text) : Except Exc Text :=
  match value with
  | some v =>
    if startsWith0x v then
      (int16 (if v.drop 2 = [] then ['0'] else v.drop 2)).map (fun _ => lower v)
    else .error (.valueError "Expected hex string.")
  | none => .error (.valueError "Expected hex string.")

def isUint256Word (dataRaw : Text) : Bool :=
  match requiredHex (some dataRaw) with
  | .ok normalized => normalized.length = uint256WordHexLength
  | .error _ => false

def decodeUint256DataRaw (dataRaw : Option Text) : Except Exc Uint256DecodeResult := do
  let normalized ← requiredHex dataRaw
  if isUint256Word normalized then
    let value ← int16 normalized
    pure
      { decimalText := some (decimalText value.toNat)
        status := if value ≤ decimal38Max then uint256StatusDecimal38Available
          else uint256StatusOutsideDecimal38Range }
  else pure { decimalText := none, status := uint256StatusNotUint256Word }

def topicOrNone (topics : List Json) (index : Nat) : Except Exc (Option Text) :=
  match topics[index]? with
  | none => .ok none
  | some .null => .ok none
  | some topic => (requiredHex topic.asStr).map some

def topicsOf (rawLog : JsonObject) : Except Exc (List Json) :=
  match rawLog.get "topics" with
  | none => .ok []
  | some (.arr topics) => .ok topics
  | some _ => .error (.normalizationError "topics must be a list.")

def removedOf (rawLog : JsonObject) : Option Bool :=
  match rawLog.get "removed" with
  | some (.bool b) => some b
  | _ => none

def blockTimestampOf (blockTimestampsUtc : Int → Option Datetime) (blockNumber : Int) :
    Except Exc Instant :=
  match blockTimestampsUtc blockNumber with
  | some t => ensureUtc t "block_timestamp_utc"
  | none => .error (.normalizationError s!"missing block timestamp for block {blockNumber}.")

def eventFields (rawLog : JsonObject) (chainId blockNumber : Int) (blockTimestamp : Instant) :
    Except Exc LogEvent := do
  let topics ← topicsOf rawLog
  let topic0 ← topicOrNone topics 0
  let topic1 ← topicOrNone topics 1
  let topic2 ← topicOrNone topics 2
  let topic3 ← topicOrNone topics 3
  let dataRaw ← requiredHex ((rawLog.get "data").getD (.str ['0', 'x'])).asStr
  let uint256 ← decodeUint256DataRaw (some dataRaw)
  let blockHash ← requiredHex (← rawLog.item "blockHash").asStr
  let transactionHash ← requiredHex (← rawLog.item "transactionHash").asStr
  let transactionIndex ← optionalHexQuantity ((rawLog.get "transactionIndex").getD .null)
  let logIndex ← hexQuantityToInt (← rawLog.item "logIndex").asStr
  let contractAddress ← requiredHex (← rawLog.item "address").asStr
  pure
    { chainId := chainId
      blockNumber := blockNumber
      blockHash := blockHash
      transactionHash := transactionHash
      transactionIndex := transactionIndex
      logIndex := logIndex
      contractAddress := contractAddress
      topic0 := topic0
      topic1 := topic1
      topic2 := topic2
      topic3 := topic3
      dataRaw := dataRaw
      dataUint256DecimalText := uint256.decimalText
      dataUint256DecodeStatus := uint256.status
      removed := removedOf rawLog
      blockTimestampUtc := blockTimestamp
      blockDateUtc := dateOf blockTimestamp }

def normalizeEvent (rawLog : JsonObject) (blockTimestampsUtc : Int → Option Datetime)
    (chainId : Int) : Except Exc LogEvent := do
  let blockNumber ← hexQuantityToInt (← rawLog.item "blockNumber").asStr
  let blockTimestamp ← blockTimestampOf blockTimestampsUtc blockNumber
  eventFields rawLog chainId blockNumber blockTimestamp

def normalizeLog (rawLog : JsonObject) (blockTimestampsUtc : Int → Option Datetime)
    (chainId : Int) (intervalStartUtc intervalEndUtc ingestedAtUtc : Datetime) :
    Except Exc LogRow := do
  let event ← normalizeEvent rawLog blockTimestampsUtc chainId
  let intervalStart ← ensureUtc intervalStartUtc "interval_start_utc"
  let intervalEnd ← ensureUtc intervalEndUtc "interval_end_utc"
  let ingestedAt ← ensureUtc ingestedAtUtc "ingested_at_utc"
  pure
    { toLogEvent := event
      intervalStartUtc := intervalStart
      intervalEndUtc := intervalEnd
      ingestedAtUtc := ingestedAt }

def isPayloadError : Exc → Bool
  | .keyError _ => true
  | .typeError _ => true
  | .normalizationError _ => true
  | e => e.isValueError

structure NormalizationResult where
  rows : List LogRow
  invalidLogCount : Nat
deriving DecidableEq, Repr

def normalizeEach (normalize : JsonObject → Except Exc LogRow) :
    List JsonObject → Except Exc NormalizationResult
  | [] => .ok ⟨[], 0⟩
  | rawLog :: rawLogs =>
    match normalize rawLog with
    | .ok row => (normalizeEach normalize rawLogs).map
        fun result => { result with rows := row :: result.rows }
    | .error exc =>
      if isPayloadError exc then (normalizeEach normalize rawLogs).map
        fun result => { result with invalidLogCount := result.invalidLogCount + 1 }
      else .error exc

def normalizeLogs (rawLogs : List JsonObject) (blockTimestampsUtc : Int → Option Datetime)
    (chainId : Int) (intervalStartUtc intervalEndUtc : Datetime) (ingestedAtUtc : Option Datetime)
    (now : Instant) : Except Exc NormalizationResult := do
  let ingestedAt ← ensureUtc (ingestedAtUtc.getD (.utc now)) "ingested_at_utc"
  let intervalStart ← ensureUtc intervalStartUtc "interval_start_utc"
  let intervalEnd ← ensureUtc intervalEndUtc "interval_end_utc"
  normalizeEach (fun rawLog => normalizeLog rawLog blockTimestampsUtc chainId (.utc intervalStart)
    (.utc intervalEnd) (.utc ingestedAt)) rawLogs

end LogNormalizer

end EthereumLogs
