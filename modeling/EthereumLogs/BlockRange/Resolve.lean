import EthereumLogs.Python.Datetime

namespace EthereumLogs
open Python Effect

structure BlockLookupClient (σ : Type) where
  ethGetBlockByNumber : (blockNumber : Int) → Action σ JsonObject
  ethGetFinalizedBlock : Action σ JsonObject

structure IntervalBlockRange where
  intervalStartUtc : Instant
  intervalEndUtc : Instant
  finalizedBlockNumber : Int
  finalizedBlockTimestampUtc : Instant
  fromBlock : Int
  endExclusiveBlock : Int
  toBlock : Int
deriving DecidableEq, Repr

namespace BlockRange

def blockNumberFromPayload (block : JsonObject) : Except Exc Int :=
  match block.get "number" with
  | some (.str number) =>
    if startsWith0x number then int16 number
    else .error (.blockRangeError "block payload missed hex number.")
  | _ => .error (.blockRangeError "block payload missed hex number.")

def blockTimestampFromPayload (block : JsonObject) : Except Exc Instant :=
  match block.get "timestamp" with
  | some (.str timestamp) =>
    if startsWith0x timestamp then (int16 timestamp).bind fromTimestamp
    else .error (.blockRangeError "block payload missed hex timestamp.")
  | _ => .error (.blockRangeError "block payload missed hex timestamp.")

def ensureUtc (value : Datetime) (name : String) : Except Exc Instant :=
  value.astimezoneUtc (.blockRangeError (name ++ " must be timezone-aware."))

def isForbiddenBlockLookup : Exc → Bool
  | .rpc (.nonRetryable detail) =>
    detail.method = "eth_getBlockByNumber" && detail.httpStatus = some 403
  | _ => false

abbrev TimestampCache := Int → Option Instant

structure Lookup (σ : Type) where
  client : σ
  cache : TimestampCache

variable {σ : Type}

def onClient {α : Type} (m : Action σ α) : Action (Lookup σ) α :=
  Eff.zoom Lookup.client (fun l s => { l with client := s }) m

def Lookup.store (l : Lookup σ) (blockNumber : Int) (timestamp : Instant) : Lookup σ :=
  { l with cache := fun n => if n = blockNumber then some timestamp else l.cache n }

def blockTimestamp (client : BlockLookupClient σ) (blockNumber : Int) :
    Action (Lookup σ) Instant := do
  let l ← Eff.get
  match l.cache blockNumber with
  | some timestamp => pure timestamp
  | none =>
    let block ← onClient (client.ethGetBlockByNumber blockNumber)
    let timestamp ← Eff.ofExcept (blockTimestampFromPayload block)
    Eff.modify fun l => l.store blockNumber timestamp
    pure timestamp

def firstBlockLoop (client : BlockLookupClient σ) (target : Instant) (left right result : Int) :
    Action (Lookup σ) Int :=
  if _h : left ≤ right then do
    let midTs ← blockTimestamp client ((left + right) / 2)
    if midTs ≥ target then
      firstBlockLoop client target left ((left + right) / 2 - 1) ((left + right) / 2)
    else firstBlockLoop client target ((left + right) / 2 + 1) right result
  else pure result
termination_by (right + 1 - left).toNat
decreasing_by all_goals omega

def findFirstBlockAtOrAfter (client : BlockLookupClient σ) (targetTimestampUtc : Datetime)
    (lowBlock : Int) (highBlock : Option Int) : Action (Lookup σ) Int := do
  let target ← Eff.ofExcept (ensureUtc targetTimestampUtc "target_timestamp_utc")
  let high ← match highBlock with
    | some high => pure high
    | none => do
      let block ← onClient client.ethGetFinalizedBlock
      Eff.ofExcept (blockNumberFromPayload block)
  if high < 0 then throw (.blockRangeError "high_block must be non-negative.")
  else if lowBlock < 0 then throw (.blockRangeError "low_block must be non-negative.")
  else if lowBlock > high then pure (high + 1)
  else firstBlockLoop client target lowBlock high (high + 1)

def oldestAccessibleLoop (client : BlockLookupClient σ) (left right oldestOk : Int) :
    Action (Lookup σ) Int :=
  if _h : left ≤ right then do
    match ← Eff.attempt (blockTimestamp client ((left + right) / 2)) with
    | .error exc =>
      if isForbiddenBlockLookup exc then
        oldestAccessibleLoop client ((left + right) / 2 + 1) right oldestOk
      else throw exc
    | .ok _ => oldestAccessibleLoop client left ((left + right) / 2 - 1) ((left + right) / 2)
  else pure oldestOk
termination_by (right + 1 - left).toNat
decreasing_by all_goals omega

def findOldestAccessibleBlock (client : BlockLookupClient σ)
    (failedLowBlock knownOkHighBlock : Int) : Action (Lookup σ) Int :=
  oldestAccessibleLoop client (failedLowBlock + 1) knownOkHighBlock knownOkHighBlock

def windowTooShort : Exc :=
  .blockRangeError ("provider block metadata lookup window does not reach " ++
    "interval_start_utc; use a provider that supports older block metadata " ++
    "or run a more recent/narrower interval.")

def searchLowLoop (client : BlockLookupClient σ) (target : Instant)
    (highBlock newestKnownOk step : Int) (hstep : 0 < step) : Action (Lookup σ) Int := do
  match ← Eff.attempt (blockTimestamp client (max 0 (highBlock - step))) with
  | .error exc =>
    if isForbiddenBlockLookup exc then
      let oldestAccessible ←
        findOldestAccessibleBlock client (max 0 (highBlock - step)) newestKnownOk
      let oldestTs ← blockTimestamp client oldestAccessible
      if oldestTs > target then throw windowTooShort else pure oldestAccessible
    else throw exc
  | .ok candidateTs =>
    if h : candidateTs ≤ target ∨ max 0 (highBlock - step) = 0 then pure (max 0 (highBlock - step))
    else searchLowLoop client target highBlock (max 0 (highBlock - step)) (step * 2) (by omega)
termination_by (highBlock - step).toNat
decreasing_by omega

def findSearchLowBlock (client : BlockLookupClient σ) (targetTimestampUtc : Datetime)
    (highBlock : Int) (highBlockTimestampUtc : Datetime) : Action (Lookup σ) Int := do
  let target ← Eff.ofExcept (ensureUtc targetTimestampUtc "target_timestamp_utc")
  let highTs ← Eff.ofExcept (ensureUtc highBlockTimestampUtc "high_block_timestamp_utc")
  if highTs ≤ target then pure highBlock
  else searchLowLoop client target highBlock highBlock 1 (by omega)

def intervalNotFinalized : Exc :=
  .retryableIntervalNotFinalized ("finalized block timestamp is earlier than interval_end_utc; " ++
    "retry this Airflow interval later.")

def emptyRange : Exc := .blockRangeError "resolved interval contains no finalized blocks."

def searchInterval (client : BlockLookupClient σ) (start stop : Instant) (finalizedNumber : Int)
    (finalizedTs : Instant) : Action (Lookup σ) IntervalBlockRange := do
  let searchLow ← findSearchLowBlock client (.utc start) finalizedNumber (.utc finalizedTs)
  let fromBlock ← findFirstBlockAtOrAfter client (.utc start) searchLow (some finalizedNumber)
  let endExclusive ← findFirstBlockAtOrAfter client (.utc stop) fromBlock (some finalizedNumber)
  let range : IntervalBlockRange :=
    { intervalStartUtc := start
      intervalEndUtc := stop
      finalizedBlockNumber := finalizedNumber
      finalizedBlockTimestampUtc := finalizedTs
      fromBlock := fromBlock
      endExclusiveBlock := endExclusive
      toBlock := endExclusive - 1 }
  if range.fromBlock > range.toBlock then throw emptyRange else pure range

def seedCache (finalizedNumber : Int) (finalizedTs : Instant) : TimestampCache :=
  fun n => if n = finalizedNumber then some finalizedTs else none

def resolveIntervalBlockRange (client : BlockLookupClient σ)
    (intervalStartUtc intervalEndUtc : Datetime) : Action σ IntervalBlockRange := do
  let start ← Eff.ofExcept (ensureUtc intervalStartUtc "interval_start_utc")
  let stop ← Eff.ofExcept (ensureUtc intervalEndUtc "interval_end_utc")
  if start ≥ stop then
    throw (.blockRangeError "interval_start_utc must be earlier than interval_end_utc.")
  else
    let finalizedBlock ← client.ethGetFinalizedBlock
    let finalizedNumber ← Eff.ofExcept (blockNumberFromPayload finalizedBlock)
    let finalizedTs ← Eff.ofExcept (blockTimestampFromPayload finalizedBlock)
    if finalizedTs < stop then throw intervalNotFinalized
    else
      Eff.zoom (fun s => Lookup.mk s (seedCache finalizedNumber finalizedTs)) (fun _ l => l.client)
        (searchInterval client start stop finalizedNumber finalizedTs)

end BlockRange

end EthereumLogs
