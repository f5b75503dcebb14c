import EthereumLogs.RpcClient
import EthereumLogs.DeltaWriter.Write
import EthereumLogs.Python.PyFloat
import Mathlib.Data.List.Sort
import Mathlib.Data.List.Dedup

namespace EthereumLogs
open Python Effect LogNormalizer

structure ProviderConfig where
  endpointUrl : Text
  authMode : Text
  username : Option Text
  password : Option Text
  bearerToken : Option Text
deriving DecidableEq, Repr

structure PipelineSettings where
  provider : ProviderConfig
  chainId : Int
  maxBlocksPerLogRequest : Int
  rpcTimeoutSeconds : PyFloat
  rpcMaxRetries : Int
  rpcRequestsPerSecond : PyFloat
  rpcConcurrency : Int
  deltaLogsPath : Text
  duckdbPath : Text
  dbtProjectDir : Text
  dbtProfilesDir : Text
  dbtBin : Text
  collectionScope : CollectionScope
  usdtContractAddress : Text
  tetherTreasuryAddress : Text
  usdtDecimals : Int
deriving DecidableEq, Repr

structure PipelineRunResult where
  fromBlock : Int
  toBlock : Int
  rawLogCount : Nat
  normalizedLogCount : Nat
  invalidLogCount : Nat
  deltaWrite : DeltaWriteResult
  dbtResult : JsonObject
deriving Repr

structure World (ρ ω : Type) where
  rpc : ρ
  delta : Option DeltaTable
  warehouse : ω

-- dbt reads the Delta table and changes only the warehouse
abbrev DbtRunner (ω : Type) :=
  PipelineSettings → Instant → Instant → Option DeltaTable → Action ω JsonObject

structure Interval (ω : Type) where
  settings : PipelineSettings
  startUtc : Datetime
  endUtc : Datetime
  now : Instant
  faults : DeltaWriter.StoreFaults
  dbtRunner : DbtRunner ω

namespace Pipeline

variable {ρ ω : Type}

def normalizeIntervalBounds (intervalStartUtc intervalEndUtc : Datetime) :
    Except Exc (Instant × Instant) := do
  let start ← intervalStartUtc.astimezoneUtc
    (.valueError "interval_start_utc must include timezone information.")
  let stop ← intervalEndUtc.astimezoneUtc
    (.valueError "interval_end_utc must include timezone information.")
  if start ≥ stop then
    .error (.valueError "interval_start_utc must be earlier than interval_end_utc.")
  else .ok (start, stop)

def blockNumbers (rawLogs : List RawLog) : Except Exc (List Int) :=
  (rawLogs.filterMap fun rawLog => (rawLog.get "blockNumber").bind Json.asStr).mapM int16

def sortedSet (numbers : List Int) : List Int := numbers.dedup.insertionSort (· ≤ ·)

def lookupTimestamps (client : EthereumClient ρ) : List Int → Action ρ (Int → Option Instant)
  | [] => pure fun _ => none
  | blockNumber :: rest => do
    let block ← client.ethGetBlockByNumber blockNumber
    let timestamp ← Eff.ofExcept (BlockRange.blockTimestampFromPayload block)
    let timestamps ← lookupTimestamps client rest
    pure fun n => if n = blockNumber then some timestamp else timestamps n

def loadBlockTimestamps (client : EthereumClient ρ) (rawLogs : List RawLog) :
    Action ρ (Int → Option Instant) := do
  let numbers ← Eff.ofExcept (blockNumbers rawLogs)
  lookupTimestamps client (sortedSet numbers)

structure Fetched where
  blockRange : IntervalBlockRange
  rawLogs : List RawLog
  blockTimestamps : Int → Option Instant

def chainMismatch : Exc :=
  .rpc (.nonRetryable ⟨"eth_chainId", "Provider chain id does not match ETH_CHAIN_ID.", false,
    none, none⟩)

def fetchLogs (client : EthereumClient ρ) (settings : PipelineSettings) (start stop : Instant) :
    Action ρ Fetched := do
  let chainId ← client.ethChainId
  if chainId ≠ settings.chainId then throw chainMismatch
  else
    let blockRange ← BlockRange.resolveIntervalBlockRange client.toBlockLookupClient (.utc start)
      (.utc stop)
    let rawLogs ← collectRawLogs client.toLogRpcClient blockRange.fromBlock blockRange.toBlock
      settings.collectionScope settings.maxBlocksPerLogRequest
    let blockTimestamps ← loadBlockTimestamps client rawLogs
    pure { blockRange, rawLogs, blockTimestamps }

def normalizeFetched (settings : PipelineSettings) (start stop now : Instant)
    (fetched : Fetched) : Except Exc NormalizationResult := do
  let normalized ← normalizeLogs fetched.rawLogs
    (fun n => (fetched.blockTimestamps n).map Datetime.utc) settings.chainId (.utc start) (.utc stop)
    none now
  if normalized.invalidLogCount > 0 then
    .error (.normalizationError (s!"source_schema_invalid_count={normalized.invalidLogCount}, " ++
      s!"raw_log_count={fetched.rawLogs.length}"))
  else .ok normalized

def onRpc {α : Type} (m : Action ρ α) : Action (World ρ ω) α :=
  Eff.zoom World.rpc (fun w s => { w with rpc := s }) m

def onDelta {α : Type} (m : Action (Option DeltaTable) α) : Action (World ρ ω) α :=
  Eff.zoom World.delta (fun w t => { w with delta := t }) m

def onWarehouse {α : Type} (m : Option DeltaTable → Action ω α) : Action (World ρ ω) α := do
  let w ← Eff.get
  Eff.zoom World.warehouse (fun w s => { w with warehouse := s }) (m w.delta)

structure Prepared where
  start : Instant
  stop : Instant
  fetched : Fetched
  normalized : NormalizationResult

def Prepared.rows (prepared : Prepared) : List PyRow :=
  prepared.normalized.rows.map LogRow.toDict

def prepareRows (client : EthereumClient ρ) (interval : Interval ω) : Action ρ Prepared := do
  let (start, stop) ← Eff.ofExcept (normalizeIntervalBounds interval.startUtc interval.endUtc)
  let fetched ← fetchLogs client interval.settings start stop
  let normalized ← Eff.ofExcept (normalizeFetched interval.settings start stop interval.now fetched)
  pure { start, stop, fetched, normalized }

def finishRun (interval : Interval ω) (prepared : Prepared) (deltaResult : DeltaWriteResult) :
    Action (World ρ ω) PipelineRunResult := do
  let dbtResult ← onWarehouse (interval.dbtRunner interval.settings prepared.start prepared.stop)
  pure
    { fromBlock := prepared.fetched.blockRange.fromBlock
      toBlock := prepared.fetched.blockRange.toBlock
      rawLogCount := prepared.fetched.rawLogs.length
      normalizedLogCount := prepared.normalized.rows.length
      invalidLogCount := prepared.normalized.invalidLogCount
      deltaWrite := deltaResult
      dbtResult := dbtResult }

def runInterval (client : EthereumClient ρ) (interval : Interval ω) :
    Action (World ρ ω) PipelineRunResult := do
  let prepared ← onRpc (prepareRows client interval)
  let deltaResult ← onDelta
    (DeltaWriter.writeEthereumLogsInsertOnly interval.faults prepared.rows)
  finishRun interval prepared deltaResult

end Pipeline

end EthereumLogs
