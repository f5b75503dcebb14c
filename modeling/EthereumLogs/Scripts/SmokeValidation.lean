import EthereumLogs.Config.Fingerprint
import EthereumLogs.Pipeline.ChainTables
import EthereumLogs.QualityChecks
import EthereumLogs.Scripts.TransferSample

namespace EthereumLogs.SmokeValidation
open Python Effect Keyed LogNormalizer DeltaWriter Pipeline

inductive SmokeExc where
  | systemExit (message : String)
  | raised (e : Exc)
deriving DecidableEq, Repr

-- what the five Delta calls run into, and what rmtree(ignore_errors=True) leaves at the path
structure SmokeStore where
  firstWrite : StoreFaults
  firstCount : StoreFaults
  secondWrite : StoreFaults
  secondCount : StoreFaults
  duplicates : StoreFaults
  leftover : Option DeltaTable → Option DeltaTable

structure SmokeArgs where
  start : Option Text
  stop : Option Text
  deltaRootParts : List Text

-- the values that Python hashes and compares alike
inductive EventKeyPart where
  | none
  | number (q : Rat)
  | text (s : Text)
deriving DecidableEq, Repr

abbrev EventKey := Int × EventKeyPart × EventKeyPart

structure SmokeReport where
  ethRpcUrlConfigured : Bool
  authMode : Text
  chainIdExpected : Int
  collectionScopeId : Text
  collectionScopeFingerprint : Text
  chainId : Int
  chainIdOk : Bool
  finalizedBlockNumber : Int
  finalizedBlockTimestampUtc : Instant
  intervalStartUtc : Instant
  intervalEndUtc : Instant
  fromBlock : Int
  toBlock : Int
  chunkCount : ℕ
  maxChunkSize : Int
  rawLogCount : ℕ
  uniqueEventKeyCount : ℕ
  transferLogCount : ℕ
  decodedTransferSample : Option (Option TransferSample)
  treasurySampleCount : ℕ
  firstInsertedRowCount : ℕ
  firstRowCount : ℕ
  secondInsertedRowCount : ℕ
  secondRowCount : ℕ
  rowCountStable : Bool
  duplicateNaturalKeyCount : ℕ
deriving Repr

variable {ρ ω : Type}

def parseUtc (fromisoformat : Text → Except Exc Datetime) (value : Text) : Except Exc Instant := do
  let parsed ← fromisoformat (Dag.replaceZulu value)
  parsed.astimezoneUtc (.valueError "interval datetime must be timezone-aware UTC.")

def interval (fromisoformat : Text → Except Exc Datetime) (now : Instant) (args : SmokeArgs) :
    Except Exc (Instant × Instant) := do
  let start ← match args.start with
    | some (c :: cs) => parseUtc fromisoformat (c :: cs)
    | _ => addTimedelta (now / microsPerHour * microsPerHour) (-(24 * microsPerHour))
  let stop ← match args.stop with
    | some (c :: cs) => parseUtc fromisoformat (c :: cs)
    | _ => addTimedelta start microsPerHour
  pure (start, stop)

structure Collected where
  chainId : Int
  finalized : JsonObject
  resolved : IntervalBlockRange
  chunks : List BlockChunk
  rawLogs : List RawLog
  blockTimestamps : Int → Option Instant

def blockNumberOf (log : RawLog) : Except Exc Int := do
  match ← log.item "blockNumber" with
  | .str number => int16 number
  | _ => .error (.typeError "int() can't convert non-string with explicit base")

-- no step compares the provider's chain id with the configured one
def collect (client : EthereumClient ρ) (settings : PipelineSettings) (start stop : Instant) :
    Action ρ Collected := do
  let chainId ← client.ethChainId
  let finalized ← client.ethGetFinalizedBlock
  let resolved ← BlockRange.resolveIntervalBlockRange client.toBlockLookupClient (.utc start)
    (.utc stop)
  let chunks ← Eff.ofExcept
    (iterBlockChunks resolved.fromBlock resolved.toBlock maxBlocksPerLogRequest)
  let rawLogs ← collectRawLogs client.toLogRpcClient resolved.fromBlock resolved.toBlock
    settings.collectionScope maxBlocksPerLogRequest
  let blockNumbers ← Eff.ofExcept (rawLogs.mapM blockNumberOf)
  let blockTimestamps ← lookupTimestamps client (sortedSet blockNumbers)
  pure { chainId, finalized, resolved, chunks, rawLogs, blockTimestamps }

def transferLogs (other : Json → Text) : List RawLog → Except Exc (List RawLog)
  | [] => .ok []
  | log :: logs => do
    let hit ← isTransferLog other log
    let rest ← transferLogs other logs
    pure (if hit then log :: rest else rest)

structure Examined where
  transfers : List RawLog
  sample : Option (Option TransferSample)
  treasurySampleCount : ℕ
  normalized : NormalizationResult

def firstSample (other : Json → Text) : List RawLog → Except Exc (Option (Option TransferSample))
  | [] => .ok none
  | log :: _ => (decodeTransferSample other log).map some

def examine (other : Json → Text) (settings : PipelineSettings) (start stop now : Instant)
    (collected : Collected) : Except Exc Examined := do
  let transfers ← transferLogs other collected.rawLogs
  let sample ← firstSample other transfers
  let treasurySampleCount ← countTreasurySamples transfers
  let normalized ← normalizeLogs collected.rawLogs
    (fun n => (collected.blockTimestamps n).map Datetime.utc) settings.chainId (.utc start) (.utc stop)
    none now
  pure { transfers, sample, treasurySampleCount, normalized }

structure StoredTwice where
  first : DeltaWriteResult
  firstCount : ℕ
  second : DeltaWriteResult
  secondCount : ℕ

def storeTwice (store : SmokeStore) (rows : List PyRow) :
    Action (Option DeltaTable) StoredTwice := do
  Eff.modify store.leftover
  let first ← writeEthereumLogsInsertOnly store.firstWrite rows
  let firstCount ← countRows store.firstCount
  let second ← writeEthereumLogsInsertOnly store.secondWrite rows
  let secondCount ← countRows store.secondCount
  pure { first, firstCount, second, secondCount }

def keyPart : Json → Except Exc EventKeyPart
  | .null => .ok .none
  | .bool b => .ok (.number (if b then 1 else 0))
  | .int i => .ok (.number i)
  | .float q => .ok (.number q)
  | .str s => .ok (.text s)
  | .arr _ => .error (.typeError "unhashable type: 'list'")
  | .obj _ => .error (.typeError "unhashable type: 'dict'")

def eventKeyOf (chainId : Int) (log : RawLog) : Except Exc EventKey := do
  let hash ← keyPart ((log.get "transactionHash").getD .null)
  let index ← keyPart ((log.get "logIndex").getD .null)
  pure (chainId, hash, index)

def maxChunkSize (chunks : List BlockChunk) : Except Exc Int :=
  match (chunks.map BlockChunk.blockCount).max? with
  | some size => .ok size
  | none => .error (.valueError "max() iterable argument is empty")

def finalizedNumber (other : Json → Text) (finalized : JsonObject) : Except Exc Int := do
  let number ← finalized.item "number"
  int16 (pyStr other number)

def report (other : Json → Text) (floatRepr : Rat → Text) (sha256 : Text → Text)
    (settings : PipelineSettings) (start stop : Instant) (collected : Collected)
    (examined : Examined) (stored : StoredTwice) (faults : StoreFaults)
    (table : Option DeltaTable) : Except Exc SmokeReport := do
  let fingerprint ← settings.collectionScope.fingerprint floatRepr sha256
  let finalizedBlockNumber ← finalizedNumber other collected.finalized
  let finalizedBlockTimestampUtc ← BlockRange.blockTimestampFromPayload collected.finalized
  let size ← maxChunkSize collected.chunks
  let eventKeys ← collected.rawLogs.mapM (eventKeyOf settings.chainId)
  let duplicateCount ← countDuplicateNaturalKeys faults table
  pure
    { ethRpcUrlConfigured := true
      authMode := settings.provider.authMode
      chainIdExpected := settings.chainId
      collectionScopeId := settings.collectionScope.scopeId
      collectionScopeFingerprint := fingerprint
      chainId := collected.chainId
      chainIdOk := collected.chainId = settings.chainId
      finalizedBlockNumber := finalizedBlockNumber
      finalizedBlockTimestampUtc := finalizedBlockTimestampUtc
      intervalStartUtc := start
      intervalEndUtc := stop
      fromBlock := collected.resolved.fromBlock
      toBlock := collected.resolved.toBlock
      chunkCount := collected.chunks.length
      maxChunkSize := size
      rawLogCount := collected.rawLogs.length
      uniqueEventKeyCount := eventKeys.dedup.length
      transferLogCount := examined.transfers.length
      decodedTransferSample := examined.sample
      treasurySampleCount := examined.treasurySampleCount
      firstInsertedRowCount := stored.first.insertedRowCount
      firstRowCount := stored.firstCount
      secondInsertedRowCount := stored.second.insertedRowCount
      secondRowCount := stored.secondCount
      rowCountStable := stored.firstCount = stored.secondCount
      duplicateNaturalKeyCount := duplicateCount }

def raising {σ α : Type} (m : Action σ α) : Eff σ SmokeExc α := fun s =>
  ((m s).1.mapError .raised, (m s).2)

structure SmokeInputs where
  settings : PipelineSettings
  args : SmokeArgs
  now : Instant
  store : SmokeStore
  fromisoformat : Text → Except Exc Datetime
  str : Json → Text
  floatRepr : Rat → Text
  sha256 : Text → Text

def main (client : EthereumClient ρ) (inputs : SmokeInputs) : Eff (World ρ ω) SmokeExc SmokeReport := do
  let (start, stop) ← raising (Eff.ofExcept (interval inputs.fromisoformat inputs.now inputs.args))
  let collected ← raising (onRpc (collect client inputs.settings start stop))
  let examined ← raising
    (Eff.ofExcept (examine inputs.str inputs.settings start stop inputs.now collected))
  if inputs.args.deltaRootParts.all (· ≠ "rpc_smoke_validation".toList) then
    throw (.systemExit "Refusing to remove a path outside rpc_smoke_validation.")
  else
    let stored ← raising
      (onDelta (storeTwice inputs.store (examined.normalized.rows.map LogRow.toDict)))
    let world ← Eff.get
    raising (Eff.ofExcept (report inputs.str inputs.floatRepr inputs.sha256 inputs.settings start stop
      collected examined stored inputs.store.duplicates world.delta))

variable {client : EthereumClient ρ} {inputs : SmokeInputs} {store : SmokeStore} {rows : List PyRow}
  {table : Option DeltaTable} {other : Json → Text} {settings : PipelineSettings}
  {start stop now : Instant} {collected : Collected} {examined : Examined} {rawLogs : List RawLog}
  {rawLog : RawLog} {row : LogRow} {chainId : Int}

theorem mapError_ok {α : Type} {x : Except Exc α} {a : α} (h : x.mapError SmokeExc.raised = .ok a) :
    x = .ok a := by
  cases x with
  | error e => cases h
  | ok b => exact congrArg Except.ok (Except.ok.inj h)

theorem raising_ok {σ α : Type} {m : Action σ α} {s t : σ} {a : α} (h : raising m s = (.ok a, t)) :
    m s = (.ok a, t) := by
  obtain ⟨hok, hstate⟩ := Prod.ext_iff.mp h
  exact Prod.ext (mapError_ok hok) hstate

structure Written (store : SmokeStore) (rows : List PyRow) (table : Option DeltaTable)
    (stored : List LogRow) (twice : StoredTwice) : Prop where
  accepted : Accepted store.firstWrite rows table stored
  firstInserted : twice.first.insertedRowCount = (newRows table rows).length
  firstCount : twice.firstCount = stored.length
  secondInserted : twice.second.insertedRowCount = 0
  secondCount : twice.secondCount = stored.length

theorem countRows_ok {faults : StoreFaults} {t : DeltaTable} {n : ℕ} {after : Option DeltaTable}
    (h : countRows faults (some t) = (.ok n, after)) : n = t.rows.length ∧ after = some t := by
  rw [countRows_some] at h
  split_ifs at h with hcounting
  · cases h
  · cases h
    exact ⟨rfl, rfl⟩

theorem write_ok {faults : StoreFaults} {result : DeltaWriteResult} {after : Option DeltaTable}
    (h : writeEthereumLogsInsertOnly faults rows table = (.ok result, after)) :
    ∃ stored, Accepted faults rows table stored ∧ after = some (committed table stored) ∧
      result.insertedRowCount = (newRows table rows).length := by
  obtain ⟨stored, ha⟩ := accepted_of_ok (congrArg Prod.fst h)
  rw [write_accepted ha] at h
  obtain ⟨hresult, rfl⟩ := Prod.ext_iff.mp h
  rw [writeResult_ok hresult]
  exact ⟨stored, ha, rfl, rfl⟩

theorem storeTwice_ok {twice : StoredTwice} {after : Option DeltaTable}
    (h : storeTwice store rows table = (.ok twice, after)) :
    ∃ stored, Written store rows (store.leftover table) stored twice ∧
      after = some (committed (store.leftover table) stored) := by
  obtain ⟨_, _, hremove, h⟩ := Eff.bind_eq_ok h
  cases hremove
  obtain ⟨first, _, hfirst, h⟩ := Eff.bind_eq_ok h
  obtain ⟨stored, ha, rfl, hinserted⟩ := write_ok hfirst
  obtain ⟨firstCount, _, hcount, h⟩ := Eff.bind_eq_ok h
  obtain ⟨hfirstCount, rfl⟩ := countRows_ok hcount
  obtain ⟨second, _, hsecond, h⟩ := Eff.bind_eq_ok h
  obtain ⟨again, ha', rfl, hagain⟩ := write_ok hsecond
  obtain ⟨secondCount, _, hcount', h⟩ := Eff.bind_eq_ok h
  obtain ⟨hsecondCount, rfl⟩ := countRows_ok hcount'
  obtain ⟨hrepeat, hnil⟩ := ha.again
  have hsame : again = stored := Option.some.inj (ha'.ingested.symm.trans hrepeat.ingested)
  subst hsame
  rw [hnil] at hagain
  obtain ⟨htwice, rfl⟩ := Prod.ext_iff.mp h
  cases htwice
  exact ⟨again, ⟨ha, hinserted, hfirstCount, hagain, hsecondCount⟩, rfl⟩

structure Reported (client : EthereumClient ρ) (inputs : SmokeInputs) (w : World ρ ω)
    (result : SmokeReport) (start stop : Instant) (collected : Collected) (examined : Examined)
    (twice : StoredTwice) (stored : List LogRow) : Prop where
  bounds : interval inputs.fromisoformat inputs.now inputs.args = .ok (start, stop)
  fetched : (collect client inputs.settings start stop w.rpc).1 = .ok collected
  checked : examine inputs.str inputs.settings start stop inputs.now collected = .ok examined
  written : Written inputs.store (examined.normalized.rows.map LogRow.toDict)
    (inputs.store.leftover w.delta) stored twice
  printed : report inputs.str inputs.floatRepr inputs.sha256 inputs.settings start stop collected
    examined twice inputs.store.duplicates (some (committed (inputs.store.leftover w.delta) stored)) = .ok result

theorem ofExcept_raised {σ α : Type} {x : Except Exc α} {s t : σ} {a : α}
    (h : raising (Eff.ofExcept x) s = (.ok a, t)) : x = .ok a ∧ s = t := by
  have hrun := raising_ok h
  simpa [Eff.ofExcept] using hrun

theorem onDelta_ok {α : Type} {m : Action (Option DeltaTable) α} {w w' : World ρ ω} {a : α}
    (h : onDelta m w = (.ok a, w')) : m w.delta = (.ok a, w'.delta) ∧ w'.warehouse = w.warehouse := by
  obtain ⟨hok, rfl⟩ := Prod.ext_iff.mp h
  exact ⟨Prod.ext hok rfl, rfl⟩

theorem main_ok {w w' : World ρ ω} {result : SmokeReport}
    (h : main client inputs w = (.ok result, w')) :
    ∃ start stop collected examined twice stored,
      Reported client inputs w result start stop collected examined twice stored ∧
        w'.delta = some (committed (inputs.store.leftover w.delta) stored) ∧
        w'.warehouse = w.warehouse := by
  obtain ⟨⟨start, stop⟩, _, hbounds, h⟩ := Eff.bind_eq_ok h
  obtain ⟨hinterval, rfl⟩ := ofExcept_raised hbounds
  obtain ⟨collected, w1, hcollect, h⟩ := Eff.bind_eq_ok h
  obtain ⟨hcollected, rfl⟩ := Prod.ext_iff.mp (raising_ok hcollect)
  obtain ⟨examined, _, hchecked, h⟩ := Eff.bind_eq_ok h
  obtain ⟨hexamine, rfl⟩ := ofExcept_raised hchecked
  split_ifs at h with hroot
  · cases h
  · obtain ⟨twice, w2, hstore, h⟩ := Eff.bind_eq_ok h
    obtain ⟨hstore, hwarehouse⟩ := onDelta_ok (raising_ok hstore)
    obtain ⟨stored, hwritten, hafter⟩ := storeTwice_ok hstore
    rw [Eff.get_bind] at h
    obtain ⟨hreport, rfl⟩ := ofExcept_raised h
    rw [hafter] at hreport
    exact ⟨start, stop, collected, examined, twice, stored,
      ⟨hinterval, hcollected, hexamine, hwritten, hreport⟩, hafter, hwarehouse⟩

structure CollectedFrom (client : EthereumClient ρ) (settings : PipelineSettings)
    (start stop : Instant) (collected : Collected) : Prop where
  chain : ∃ s, (client.ethChainId s).1 = .ok collected.chainId
  range : ∃ s, (BlockRange.resolveIntervalBlockRange client.toBlockLookupClient (.utc start)
    (.utc stop) s).1 = .ok collected.resolved
  chunks : iterBlockChunks collected.resolved.fromBlock collected.resolved.toBlock
    maxBlocksPerLogRequest = .ok collected.chunks
  logs : ∃ s, (collectRawLogs client.toLogRpcClient collected.resolved.fromBlock
    collected.resolved.toBlock settings.collectionScope maxBlocksPerLogRequest s).1 =
      .ok collected.rawLogs
  numbers : ∃ numbers, collected.rawLogs.mapM blockNumberOf = .ok numbers ∧
    LookedUpAll client (sortedSet numbers) collected.blockTimestamps

theorem collect_ok {s : ρ} (h : (collect client settings start stop s).1 = .ok collected) :
    CollectedFrom client settings start stop collected := by
  obtain ⟨chainId, s1, hchain, h⟩ := Eff.bind_ok h
  obtain ⟨finalized, s2, hfinalized, h⟩ := Eff.bind_ok h
  obtain ⟨resolved, s3, hrange, h⟩ := Eff.bind_ok h
  obtain ⟨chunks, hchunks, h⟩ := Eff.ofExcept_bind_ok h
  obtain ⟨rawLogs, s4, hlogs, h⟩ := Eff.bind_ok h
  obtain ⟨numbers, hnumbers, h⟩ := Eff.ofExcept_bind_ok h
  obtain ⟨timestamps, s5, htimestamps, h⟩ := Eff.bind_ok h
  cases h
  exact ⟨⟨s, by rw [hchain]⟩, ⟨s2, by rw [hrange]⟩, hchunks, ⟨s3, by rw [hlogs]⟩, numbers, hnumbers,
    lookupTimestamps_ok (by rw [htimestamps])⟩

structure ExaminedFrom (other : Json → Text) (settings : PipelineSettings) (start stop now : Instant)
    (collected : Collected) (examined : Examined) : Prop where
  transfers : transferLogs other collected.rawLogs = .ok examined.transfers
  sample : firstSample other examined.transfers = .ok examined.sample
  treasury : countTreasurySamples examined.transfers = .ok examined.treasurySampleCount
  normalized : normalizeEach (fun rawLog => normalizeLog rawLog
    (fun n => (collected.blockTimestamps n).map Datetime.utc) settings.chainId (.utc start) (.utc stop)
    (.utc now)) collected.rawLogs = .ok examined.normalized

theorem examine_ok (h : examine other settings start stop now collected = .ok examined) :
    ExaminedFrom other settings start stop now collected examined := by
  obtain ⟨transfers, htransfers, h⟩ := except_bind_ok h
  obtain ⟨sample, hsample, h⟩ := except_bind_ok h
  obtain ⟨treasury, htreasury, h⟩ := except_bind_ok h
  obtain ⟨normalized, hnormalized, h⟩ := except_bind_ok h
  cases h
  refine ⟨htransfers, hsample, htreasury, ?_⟩
  simp only [normalizeLogs, ensureUtc, Option.getD_none, astimezone_utc] at hnormalized
  exact hnormalized

theorem transferLogs_sublist {transfers : List RawLog} (h : transferLogs other rawLogs = .ok transfers) :
    transfers.Sublist rawLogs := by
  induction rawLogs generalizing transfers with
  | nil =>
    cases h
    exact .slnil
  | cons log logs ih =>
    obtain ⟨hit, -, h⟩ := except_bind_ok h
    obtain ⟨rest, hrest, h⟩ := except_bind_ok h
    cases h
    cases hit with
    | true => exact (ih hrest).cons_cons log
    | false => exact (ih hrest).cons log

theorem countTreasurySamples_le {count : ℕ} (h : countTreasurySamples rawLogs = .ok count) :
    count ≤ rawLogs.length := by
  induction rawLogs generalizing count with
  | nil =>
    cases h
    exact le_rfl
  | cons log logs ih =>
    obtain ⟨hit, -, h⟩ := except_bind_ok h
    obtain ⟨rest, hrest, h⟩ := except_bind_ok h
    cases h
    have hle := ih hrest
    rw [List.length_cons]
    split_ifs
    · omega
    · omega

theorem normalizeEach_kept {normalize : JsonObject → Except Exc LogRow} {result : NormalizationResult}
    (h : normalizeEach normalize rawLogs = .ok result) : ∃ kept, kept.Sublist rawLogs ∧
      List.Forall₂ (fun rawLog row => normalize rawLog = .ok row) kept result.rows := by
  induction rawLogs generalizing result with
  | nil =>
    cases h
    exact ⟨[], .slnil, .nil⟩
  | cons log logs ih =>
    rw [normalizeEach] at h
    cases hrow : normalize log with
    | ok row =>
      rw [hrow] at h
      obtain ⟨rest, hrest, rfl⟩ := except_map_ok h
      obtain ⟨kept, hkept, hrows⟩ := ih hrest
      exact ⟨log :: kept, hkept.cons_cons log, .cons hrow hrows⟩
    | error e =>
      rw [hrow] at h
      dsimp only at h
      split at h
      · obtain ⟨rest, hrest, rfl⟩ := except_map_ok h
        obtain ⟨kept, hkept, hrows⟩ := ih hrest
        exact ⟨kept, hkept.cons log, hrows⟩
      · cases h

structure KeyFields (rawLog : RawLog) (event : LogEvent) (hash index : Text) : Prop where
  hashText : rawLog.get "transactionHash" = some (.str hash)
  transactionHash : requiredHex (some hash) = .ok event.transactionHash
  indexText : rawLog.get "logIndex" = some (.str index)
  logIndex : hexQuantityToInt (some index) = .ok event.logIndex

theorem hexQuantityToInt_str {value : Json} {n : Int} (h : hexQuantityToInt value.asStr = .ok n) :
    ∃ s, value = .str s ∧ hexQuantityToInt (some s) = .ok n := by
  cases hs : value.asStr with
  | some s => exact ⟨s, str_of_asStr hs, hs ▸ h⟩
  | none =>
    rw [hs] at h
    cases h

theorem eventFields_keyFields {n : Int} {t : Instant} {event : LogEvent}
    (h : eventFields rawLog chainId n t = .ok event) : ∃ hash index,
      KeyFields rawLog event hash index := by
  have hfields := eventFields_from h
  obtain ⟨hashValue, hhash, hok⟩ := hfields.transactionHash
  obtain ⟨hash, htext, hhashOk⟩ := asStr_of_requiredHex hok
  obtain rfl := str_of_asStr htext
  obtain ⟨indexValue, hindex, hlogIndex⟩ := hfields.logIndex
  obtain ⟨index, rfl, hindexOk⟩ := hexQuantityToInt_str hlogIndex
  exact ⟨hash, index, hhash, hhashOk, hindex, hindexOk⟩

theorem normalizeEvent_keyFields {ts : Int → Option Datetime} {event : LogEvent}
    (h : normalizeEvent rawLog ts chainId = .ok event) : ∃ hash index,
      KeyFields rawLog event hash index := by
  obtain ⟨_, -, h⟩ := except_bind_ok h
  obtain ⟨n, -, h⟩ := except_bind_ok h
  obtain ⟨t, -, h⟩ := except_bind_ok h
  exact eventFields_keyFields h

theorem KeyFields.eventKey {event : LogEvent} {hash index : Text}
    (h : KeyFields rawLog event hash index) :
    eventKeyOf chainId rawLog = .ok (chainId, .text hash, .text index) := by
  rw [eventKeyOf, h.hashText, h.indexText]
  rfl

theorem eventKey_storedKey {ts : Int → Option Datetime} {rawLog' : RawLog} {row' : LogRow}
    (h : normalizeEvent rawLog ts chainId = .ok row.toLogEvent)
    (h' : normalizeEvent rawLog' ts chainId = .ok row'.toLogEvent)
    (hkey : (eventKeyOf chainId rawLog).toOption = (eventKeyOf chainId rawLog').toOption) :
    storedKey row = storedKey row' := by
  obtain ⟨hash, index, hfields⟩ := normalizeEvent_keyFields h
  obtain ⟨hash', index', hfields'⟩ := normalizeEvent_keyFields h'
  rw [hfields.eventKey, hfields'.eventKey] at hkey
  simp only [Except.toOption, Option.some.injEq, Prod.mk.injEq, EventKeyPart.text.injEq, true_and] at hkey
  obtain ⟨rfl, rfl⟩ := hkey
  have hhash : row.transactionHash = row'.transactionHash :=
    Except.ok.inj (hfields.transactionHash.symm.trans hfields'.transactionHash)
  have hindex : row.logIndex = row'.logIndex :=
    Except.ok.inj (hfields.logIndex.symm.trans hfields'.logIndex)
  have hchain : row.chainId = row'.chainId :=
    (normalizeEvent_from h).sameChain.trans (normalizeEvent_from h').sameChain.symm
  rw [storedKey, storedKey, hhash, hindex, hchain]

theorem eventKeys_count {keys : List EventKey} (h : rawLogs.mapM (eventKeyOf chainId) = .ok keys) :
    keys.dedup.length =
      (rawLogs.map fun log => (eventKeyOf chainId log).toOption).dedup.length := by
  have hkeys := except_mapM_ok.mp h
  have hread : ∀ log key log' key', eventKeyOf chainId log = .ok key →
      eventKeyOf chainId log' = .ok key' →
        ((eventKeyOf chainId log).toOption = (eventKeyOf chainId log').toOption ↔ key = key') := by
    intro log key log' key' hlog hlog'
    rw [hlog, hlog']
    exact Option.some_inj
  rw [← List.map_id keys]
  apply le_antisymm
  · exact distinct_le hkeys fun log key log' key' hlog hlog' =>
      (hread log key log' key' hlog hlog').mp
  · exact distinct_le hkeys.flip fun key log key' log' hlog hlog' =>
      (hread log key log' key' hlog hlog').mpr

theorem newRows_le (table : Option DeltaTable) (rows : List LogRow) :
    (newRows table (rows.map LogRow.toDict)).length ≤ (rows.map storedKey).dedup.length := by
  have hfirsts := firsts_length rowKey (rows.map LogRow.toDict)
  rw [List.map_map] at hfirsts
  rw [← filter_unique]
  exact (List.length_filter_le _ _).trans hfirsts.le

theorem ExaminedFrom.rows_le (h : ExaminedFrom other settings start stop now collected examined) :
    (examined.normalized.rows.map storedKey).dedup.length ≤
      (collected.rawLogs.map fun log => (eventKeyOf settings.chainId log).toOption).dedup.length := by
  obtain ⟨kept, hkept, hrows⟩ := normalizeEach_kept h.normalized
  refine le_trans (distinct_le hrows fun log row log' row' hrow hrow' => ?_)
    (distinct_mono (hkept.map _).subset)
  exact eventKey_storedKey (normalizeLog_ok hrow).1 (normalizeLog_ok hrow').1

theorem chunkLoop_head {maxBlocks chunkStart toBlock : Int} (hmax : 1 ≤ maxBlocks)
    (hle : chunkStart ≤ toBlock) {chunks : List BlockChunk}
    (h : chunkLoop maxBlocks chunkStart toBlock hmax = .ok chunks) :
    chunkFrom maxBlocks chunkStart toBlock hmax hle ∈ chunks := by
  rw [chunkLoop, dif_pos hle] at h
  dsimp only at h
  split_ifs at h
  obtain ⟨rest, -, rfl⟩ := except_map_ok h
  exact List.mem_cons_self

theorem maxChunkSize_ok {fromBlock toBlock maxBlocks size : Int} {chunks : List BlockChunk}
    (h : iterBlockChunks fromBlock toBlock maxBlocks = .ok chunks)
    (hsize : maxChunkSize chunks = .ok size) : size = min maxBlocks (toBlock - fromBlock + 1) := by
  obtain ⟨h0, hle, hmax, hcap⟩ := iterBlockChunks_ok h
  obtain ⟨chunks', hok, htiles, hcounts⟩ := iterBlockChunks_tiles h0 hle hmax hcap
  cases h.symm.trans hok
  rw [iterBlockChunks, if_neg (by omega), if_neg (by omega), dif_neg (by omega)] at h
  have hfirst : (chunkFrom maxBlocks fromBlock toBlock hmax hle).blockCount =
      min maxBlocks (toBlock - fromBlock + 1) := by
    simp only [chunkFrom, BlockChunk.blockCount]
    omega
  have hlargest : (chunks.map BlockChunk.blockCount).max? =
      some (min maxBlocks (toBlock - fromBlock + 1)) := by
    rw [List.max?_eq_some_iff]
    constructor
    · exact List.mem_map.mpr ⟨_, chunkLoop_head hmax hle h, hfirst⟩
    · intro count hcount
      obtain ⟨chunk, hchunk, rfl⟩ := List.mem_map.mp hcount
      obtain ⟨hfrom, hto⟩ := htiles.bounds hchunk
      have hbound := hcounts chunk hchunk
      simp only [BlockChunk.blockCount] at hbound ⊢
      omega
  rw [maxChunkSize, hlargest] at hsize
  exact (Except.ok.inj hsize).symm

theorem firstSample_none {transfers : List RawLog} {sample : Option (Option TransferSample)}
    (h : firstSample other transfers = .ok sample) : sample = none ↔ transfers.length = 0 := by
  cases transfers with
  | nil =>
    cases h
    simp
  | cons log logs =>
    obtain ⟨decoded, -, rfl⟩ := except_map_ok h
    simp

structure SmokeChecks (leftover after : Option DeltaTable) (r : SmokeReport) : Prop where
  range : 0 ≤ r.fromBlock ∧ r.fromBlock ≤ r.toBlock
  chunks : (r.chunkCount : Int) =
    (r.toBlock + 1 - r.fromBlock + maxBlocksPerLogRequest - 1) / maxBlocksPerLogRequest
  chunkSize : r.maxChunkSize = min maxBlocksPerLogRequest (r.toBlock - r.fromBlock + 1)
  treasury : r.treasurySampleCount ≤ r.transferLogCount
  transfers : r.transferLogCount ≤ r.rawLogCount
  sampled : r.decodedTransferSample = none ↔ r.transferLogCount = 0
  inserted : r.firstInsertedRowCount ≤ r.uniqueEventKeyCount
  unique : r.uniqueEventKeyCount ≤ r.rawLogCount
  kept : storedRows leftover <+: storedRows after
  counted : r.firstRowCount = (storedRows leftover).length + r.firstInsertedRowCount
  repeated : r.secondInsertedRowCount = 0 ∧ r.secondRowCount = r.firstRowCount ∧
    r.rowCountStable = true
  duplicates : ((storedRows leftover).map storedKey).Nodup → r.duplicateNaturalKeyCount = 0

theorem Reported.checks {w : World ρ ω} {result : SmokeReport} {twice : StoredTwice}
    {stored : List LogRow}
    (h : Reported client inputs w result start stop collected examined twice stored) :
    SmokeChecks (inputs.store.leftover w.delta)
      (some (committed (inputs.store.leftover w.delta) stored)) result := by
  obtain ⟨hbounds, hfetched, hchecked, hwritten, hprinted⟩ := h
  have hcollected := collect_ok hfetched
  have hexamined := examine_ok hchecked
  obtain ⟨fingerprint, -, hprinted⟩ := except_bind_ok hprinted
  obtain ⟨number, hnumber, hprinted⟩ := except_bind_ok hprinted
  obtain ⟨timestamp, htimestamp, hprinted⟩ := except_bind_ok hprinted
  obtain ⟨size, hsize, hprinted⟩ := except_bind_ok hprinted
  obtain ⟨keys, hkeys, hprinted⟩ := except_bind_ok hprinted
  obtain ⟨duplicates, hduplicates, hprinted⟩ := except_bind_ok hprinted
  cases hprinted
  have hrange := iterBlockChunks_ok hcollected.chunks
  have hstored := hwritten.accepted.length
  have hinserted := hwritten.firstInserted
  have hfirstCount := hwritten.firstCount
  have hunique := eventKeys_count hkeys
  refine ⟨⟨hrange.1, hrange.2.1⟩, iterBlockChunks_length hcollected.chunks,
    maxChunkSize_ok hcollected.chunks hsize, countTreasurySamples_le hexamined.treasury,
    (transferLogs_sublist hexamined.transfers).length_le, firstSample_none hexamined.sample, ?_, ?_,
    ingest_extends hwritten.accepted.ingested, ?_, ?_, ?_⟩
  · dsimp only
    rw [hinserted, hunique]
    exact (newRows_le _ _).trans hexamined.rows_le
  · dsimp only
    rw [hunique, ← List.length_map (f := fun log => (eventKeyOf inputs.settings.chainId log).toOption)]
    exact (List.dedup_sublist _).length_le
  · dsimp only
    omega
  · have hsecond := hwritten.secondCount
    exact ⟨hwritten.secondInserted, hsecond.trans hfirstCount.symm,
      decide_eq_true (hfirstCount.trans hsecond.symm)⟩
  · intro hleftover
    exact countDuplicateNaturalKeys_nodup
      (ingest_nodup arrowRow_key hleftover hwritten.accepted.ingested) hduplicates

theorem smoke_report_checks (client : EthereumClient ρ) (inputs : SmokeInputs) (w w' : World ρ ω)
    (result : SmokeReport) (h : main client inputs w = (.ok result, w')) :
    SmokeChecks (inputs.store.leftover w.delta) w'.delta result := by
  obtain ⟨start, stop, collected, examined, twice, stored, hreported, hdelta, -⟩ := main_ok h
  rw [hdelta]
  exact hreported.checks

def depositSmoke : SmokeInputs where
  settings := defaultSettings
  args := ⟨none, none, ["data".toList, "tmp".toList, "rpc_smoke_validation".toList]⟩
  now := minutes (60 + 24 * 60 + 30)
  store := ⟨noFaults, noFaults, noFaults, noFaults, noFaults, fun _ => none⟩
  fromisoformat := fun _ => .error (.valueError "Invalid isoformat string")
  str := fun _ => []
  floatRepr := fun _ => []
  sha256 := id

def beforeSmoke : World Unit Unit := ⟨(), none, ()⟩

theorem depositSmoke_counts : (main depositProvider depositSmoke beforeSmoke).1.toOption.map
    (fun r => (r.rawLogCount, r.firstInsertedRowCount, r.chainIdOk)) = some (1, 1, true) := by
  decide +kernel

theorem depositSmoke_prints : ∃ result w', main depositProvider depositSmoke beforeSmoke =
    (.ok result, w') ∧ result.firstInsertedRowCount = 1 ∧ result.chainIdOk = true := by
  rcases hrun : main depositProvider depositSmoke beforeSmoke with ⟨e | result, w'⟩
  · have hcounts := depositSmoke_counts
    rw [hrun] at hcounts
    cases hcounts
  · have hcounts := depositSmoke_counts
    rw [hrun] at hcounts
    simp only [Except.toOption, Option.map_some, Option.some.injEq, Prod.mk.injEq] at hcounts
    exact ⟨result, w', rfl, hcounts.2⟩

theorem smoke_report_checks_deposit : ∃ result w',
    main depositProvider depositSmoke beforeSmoke = (.ok result, w') ∧
      result.firstInsertedRowCount = 1 ∧ SmokeChecks none w'.delta result := by
  obtain ⟨result, w', hrun, hinserted, -⟩ := depositSmoke_prints
  exact ⟨result, w', hrun, hinserted,
    smoke_report_checks depositProvider depositSmoke beforeSmoke w' result hrun⟩

end EthereumLogs.SmokeValidation
