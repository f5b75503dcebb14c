import EthereumLogs.Pipeline
import EthereumLogs.NormalizedRows
import EthereumLogs.DeltaWriter.Store

namespace EthereumLogs.Pipeline
open Python Effect Keyed LogNormalizer DeltaWriter

variable {ρ ω : Type} {client : EthereumClient ρ} {settings : PipelineSettings}
  {interval : Interval ω} {s : ρ} {w : World ρ ω}

theorem mem_sortedSet {numbers : List Int} {n : Int} : n ∈ sortedSet numbers ↔ n ∈ numbers := by
  rw [sortedSet, List.mem_insertionSort, List.mem_dedup]

theorem blockText_unique {rawLog : RawLog} {v v' : Json} {text text' : Text}
    (hv : rawLog.get "blockNumber" = some v) (htext : v.asStr = some text)
    (hv' : rawLog.get "blockNumber" = some v') (htext' : v'.asStr = some text') : text' = text := by
  rw [hv] at hv'
  cases hv'
  rw [htext] at htext'
  exact (Option.some.inj htext').symm

theorem blockNumbers_mem {rawLogs : List RawLog} {numbers : List Int} {rawLog : RawLog} {v : Json}
    {text : Text} {n : Int} (h : blockNumbers rawLogs = .ok numbers) (hlog : rawLog ∈ rawLogs)
    (hv : rawLog.get "blockNumber" = some v) (htext : v.asStr = some text)
    (hn : int16 text = .ok n) : n ∈ numbers := by
  have hmem : text ∈ rawLogs.filterMap fun rawLog =>
      (rawLog.get "blockNumber").bind Json.asStr :=
    List.mem_filterMap.mpr ⟨rawLog, hlog, by rw [hv]; exact htext⟩
  obtain ⟨m, hm, hint⟩ := forall₂_left (except_mapM_ok.mp h) hmem
  rw [hn] at hint
  cases hint
  exact hm

structure LookedUpAll (client : EthereumClient ρ) (numbers : List Int)
    (timestamps : Int → Option Instant) : Prop where
  found : ∀ n ∈ numbers, ∃ t, timestamps n = some t
  reported : ∀ n t, timestamps n = some t → ∃ s block,
    (client.ethGetBlockByNumber n s).1 = .ok block ∧
      BlockRange.blockTimestampFromPayload block = .ok t

theorem lookupTimestamps_ok {numbers : List Int} {timestamps : Int → Option Instant}
    (h : (lookupTimestamps client numbers s).1 = .ok timestamps) :
    LookedUpAll client numbers timestamps := by
  induction numbers generalizing s timestamps with
  | nil =>
    cases h
    exact ⟨by simp, by simp⟩
  | cons n numbers ih =>
    obtain ⟨block, t, hblock, h⟩ := Eff.bind_ok h
    obtain ⟨timestamp, htimestamp, h⟩ := Eff.ofExcept_bind_ok h
    obtain ⟨rest, u, hrest, h⟩ := Eff.bind_ok h
    cases h
    obtain ⟨hfound, hreported⟩ := ih (by rw [hrest])
    constructor
    · intro k hk
      by_cases he : k = n
      · exact ⟨timestamp, by simp [he]⟩
      · obtain ⟨v, hv⟩ := hfound k ((List.mem_cons.mp hk).resolve_left he)
        exact ⟨v, by simp [he, hv]⟩
    · intro k v hv
      by_cases he : k = n
      · simp only [he, if_true, Option.some.injEq] at hv
        exact ⟨s, block, by rw [he, hblock], by rw [htimestamp, hv]⟩
      · simp only [he, if_false] at hv
        exact hreported k v hv

structure FetchedFrom (client : EthereumClient ρ) (settings : PipelineSettings)
    (start stop : Instant) (fetched : Fetched) : Prop where
  chain : ∃ s, (client.ethChainId s).1 = .ok settings.chainId
  range : ∃ s, (BlockRange.resolveIntervalBlockRange client.toBlockLookupClient (.utc start)
    (.utc stop) s).1 = .ok fetched.blockRange
  logs : ∃ s, (collectRawLogs client.toLogRpcClient fetched.blockRange.fromBlock
    fetched.blockRange.toBlock settings.collectionScope settings.maxBlocksPerLogRequest s).1 =
      .ok fetched.rawLogs
  numbers : ∃ numbers, blockNumbers fetched.rawLogs = .ok numbers ∧
    LookedUpAll client (sortedSet numbers) fetched.blockTimestamps

theorem fetchLogs_ok {start stop : Instant} {fetched : Fetched}
    (h : (fetchLogs client settings start stop s).1 = .ok fetched) :
    FetchedFrom client settings start stop fetched := by
  obtain ⟨chainId, s1, hchain, h⟩ := Eff.bind_ok h
  split_ifs at h with hmismatch
  · cases h
  · obtain ⟨range, s2, hrange, h⟩ := Eff.bind_ok h
    obtain ⟨rawLogs, s3, hlogs, h⟩ := Eff.bind_ok h
    obtain ⟨timestamps, s4, htimestamps, h⟩ := Eff.bind_ok h
    cases h
    have hload : (loadBlockTimestamps client rawLogs s3).1 = .ok timestamps := by rw [htimestamps]
    obtain ⟨numbers, hnumbers, hlookup⟩ := Eff.ofExcept_bind_ok hload
    rw [not_not] at hmismatch
    exact ⟨⟨s, by rw [hchain, hmismatch]⟩, ⟨s1, by rw [hrange]⟩, ⟨s2, by rw [hlogs]⟩,
      numbers, hnumbers, lookupTimestamps_ok hlookup⟩

def timestampsOf (fetched : Fetched) : Int → Option Datetime :=
  fun n => (fetched.blockTimestamps n).map Datetime.utc

structure PreparedFrom (client : EthereumClient ρ) (interval : Interval ω) (prepared : Prepared) :
    Prop where
  start : prepared.start = interval.startUtc.instant
  stop : prepared.stop = interval.endUtc.instant
  fetched : FetchedFrom client interval.settings prepared.start prepared.stop prepared.fetched
  normalized : List.Forall₂ (fun rawLog row => normalizeLog rawLog (timestampsOf prepared.fetched)
    interval.settings.chainId (.utc prepared.start) (.utc prepared.stop) (.utc interval.now) = .ok row)
    prepared.fetched.rawLogs prepared.normalized.rows

theorem normalizeFetched_ok {start stop now : Instant} {fetched : Fetched}
    {result : NormalizationResult}
    (h : normalizeFetched settings start stop now fetched = .ok result) :
    List.Forall₂ (fun rawLog row => normalizeLog rawLog (timestampsOf fetched) settings.chainId
      (.utc start) (.utc stop) (.utc now) = .ok row) fetched.rawLogs result.rows := by
  obtain ⟨normalized, hnormalized, h⟩ := except_bind_ok h
  split_ifs at h with hinvalid
  cases h
  simp only [normalizeLogs, ensureUtc, Option.getD_none, astimezone_utc] at hnormalized
  exact normalizeEach_all hnormalized (by omega)

theorem normalizeIntervalBounds_ok {a b : Datetime} {bounds : Instant × Instant}
    (h : normalizeIntervalBounds a b = .ok bounds) : bounds = (a.instant, b.instant) := by
  obtain ⟨start, hstart, h⟩ := except_bind_ok h
  obtain ⟨stop, hstop, h⟩ := except_bind_ok h
  obtain ⟨-, rfl⟩ := astimezone_ok hstart
  obtain ⟨-, rfl⟩ := astimezone_ok hstop
  split_ifs at h
  cases h
  rfl

theorem prepareRows_ok {prepared : Prepared} (h : (prepareRows client interval s).1 = .ok prepared) :
    PreparedFrom client interval prepared := by
  obtain ⟨bounds, hbounds, h⟩ := Eff.ofExcept_bind_ok h
  cases normalizeIntervalBounds_ok hbounds
  obtain ⟨fetched, s1, hfetched, h⟩ := Eff.bind_ok h
  obtain ⟨normalized, hnormalized, h⟩ := Eff.ofExcept_bind_ok h
  cases h
  exact ⟨rfl, rfl, fetchLogs_ok (by rw [hfetched]), normalizeFetched_ok hnormalized⟩

def commitPhase (client : EthereumClient ρ) (interval : Interval ω) :
    Action (World ρ ω) InsertCounts := do
  let prepared ← onRpc (prepareRows client interval)
  onDelta (insertNewRows interval.faults prepared.rows)

def commits (client : EthereumClient ρ) (interval : Interval ω) (w : World ρ ω) : Bool :=
  (commitPhase client interval w).1.isOk

inductive RunCases (client : EthereumClient ρ) (interval : Interval ω) (w : World ρ ω) :
    Except Exc PipelineRunResult → World ρ ω → Bool → Prop
  | stopped (s : ρ) (e : Exc) (h : (prepareRows client interval w.rpc).1 = .error e) :
      RunCases client interval w (.error e) { w with rpc := s } false
  | refused (s : ρ) (e : Exc) (prepared : Prepared)
      (h : (prepareRows client interval w.rpc).1 = .ok prepared) :
      RunCases client interval w (.error e) { w with rpc := s } false
  | committed (s : ρ) (warehouse : ω) (r : Except Exc PipelineRunResult) (prepared : Prepared)
      (h : (prepareRows client interval w.rpc).1 = .ok prepared) (stored : List LogRow)
      (haccepted : Accepted interval.faults prepared.rows w.delta stored) :
      RunCases client interval w r ⟨s, some (committed w.delta stored), warehouse⟩ true

theorem finishRun_keeps (interval : Interval ω) (prepared : Prepared)
    (deltaResult : DeltaWriteResult) (w : World ρ ω) :
    (finishRun interval prepared deltaResult w).2.rpc = w.rpc ∧
      (finishRun interval prepared deltaResult w).2.delta = w.delta := by
  rcases h : interval.dbtRunner interval.settings prepared.start prepared.stop w.delta w.warehouse
    with ⟨e | result, warehouse⟩
  · have hrun : onWarehouse (interval.dbtRunner interval.settings prepared.start prepared.stop) w =
        (.error e, { w with warehouse := warehouse }) := by
      rw [onWarehouse, Eff.get_bind]
      simp [Eff.zoom, h]
    rw [finishRun, Eff.bind_of_error hrun]
    exact ⟨rfl, rfl⟩
  · have hrun : onWarehouse (interval.dbtRunner interval.settings prepared.start prepared.stop) w =
        (.ok result, { w with warehouse := warehouse }) := by
      rw [onWarehouse, Eff.get_bind]
      simp [Eff.zoom, h]
    rw [finishRun, Eff.bind_of_ok hrun]
    exact ⟨rfl, rfl⟩

theorem onRpc_eq {α : Type} {m : Action ρ α} {r : Except Exc α} (h : m w.rpc = (r, s)) :
    onRpc m w = (r, { w with rpc := s }) := by simp [onRpc, Eff.zoom, h]

theorem onDelta_eq {α : Type} {m : Action (Option DeltaTable) α} {r : Except Exc α}
    {t : Option DeltaTable} (h : m w.delta = (r, t)) :
    onDelta m w = (r, { w with delta := t }) := by simp [onDelta, Eff.zoom, h]

theorem runInterval_cases (client : EthereumClient ρ) (interval : Interval ω) (w : World ρ ω) :
    RunCases client interval w (runInterval client interval w).1 (runInterval client interval w).2
      (commits client interval w) := by
  rw [commits, commitPhase, runInterval]
  rcases hprepare : prepareRows client interval w.rpc with ⟨e | prepared, s⟩
  · rw [Eff.bind_of_error (onRpc_eq hprepare), Eff.bind_of_error (onRpc_eq hprepare)]
    exact .stopped s e (by rw [hprepare])
  · have hok : (prepareRows client interval w.rpc).1 = .ok prepared := by rw [hprepare]
    rw [Eff.bind_of_ok (onRpc_eq hprepare), Eff.bind_of_ok (onRpc_eq hprepare)]
    rcases insertNewRows_cases interval.faults prepared.rows w.delta with ⟨stored, ha⟩ | ⟨e, he⟩
    · rw [onDelta_eq (w := { w with rpc := s }) (insertNewRows_accepted ha)]
      have hwrite := onDelta_eq (w := { w with rpc := s }) (write_accepted ha)
      cases hresult : writeResult interval.faults w.delta prepared.rows stored with
      | error e =>
        rw [hresult] at hwrite
        rw [Eff.bind_of_error hwrite]
        exact .committed s w.warehouse _ prepared hok stored ha
      | ok deltaResult =>
        rw [hresult] at hwrite
        rw [Eff.bind_of_ok hwrite]
        have hkeeps := finishRun_keeps interval prepared deltaResult
          { w with rpc := s, delta := some (committed w.delta stored) }
        generalize finishRun interval prepared deltaResult
          { w with rpc := s, delta := some (committed w.delta stored) } = out at hkeeps ⊢
        obtain ⟨r, rpc, delta, warehouse⟩ := out
        dsimp only at hkeeps
        rw [hkeeps.2]
        exact .committed rpc warehouse r prepared hok stored ha
    · have hwrite : writeEthereumLogsInsertOnly interval.faults prepared.rows w.delta =
          (.error e, w.delta) := by rw [writeEthereumLogsInsertOnly, Eff.bind_of_error he]
      rw [onDelta_eq (w := { w with rpc := s }) he,
        Eff.bind_of_error (onDelta_eq (w := { w with rpc := s }) hwrite)]
      exact .refused s e prepared hok

structure Completed (interval : Interval ω) (prepared : Prepared) (stored : List LogRow)
    (before after : World ρ ω) : Prop where
  accepted : Accepted interval.faults prepared.rows before.delta stored
  delta : after.delta = some (committed before.delta stored)
  dbt : ∃ dbtResult, interval.dbtRunner interval.settings prepared.start prepared.stop after.delta
    before.warehouse = (.ok dbtResult, after.warehouse)

theorem finishRun_ok {prepared : Prepared} {deltaResult : DeltaWriteResult}
    (h : (finishRun interval prepared deltaResult w).1.isOk = true) : ∃ dbtResult,
    interval.dbtRunner interval.settings prepared.start prepared.stop w.delta w.warehouse =
      (.ok dbtResult, (finishRun interval prepared deltaResult w).2.warehouse) := by
  rcases hrun : interval.dbtRunner interval.settings prepared.start prepared.stop w.delta w.warehouse
    with ⟨r, warehouse⟩
  have hdbt : onWarehouse (interval.dbtRunner interval.settings prepared.start prepared.stop) w =
      (r, { w with warehouse := warehouse }) := by
    rw [onWarehouse, Eff.get_bind]
    simp [Eff.zoom, hrun]
  cases r with
  | error e =>
    rw [finishRun, Eff.bind_of_error hdbt] at h
    cases h
  | ok dbtResult =>
    refine ⟨dbtResult, ?_⟩
    rw [finishRun, Eff.bind_of_ok hdbt]
    rfl

theorem runInterval_ok (h : (runInterval client interval w).1.isOk = true) :
    ∃ prepared stored, (prepareRows client interval w.rpc).1 = .ok prepared ∧
      Completed interval prepared stored w (runInterval client interval w).2 := by
  rw [runInterval] at h ⊢
  rcases hprepare : prepareRows client interval w.rpc with ⟨e | prepared, s⟩
  · rw [Eff.bind_of_error (onRpc_eq hprepare)] at h
    cases h
  · rw [Eff.bind_of_ok (onRpc_eq hprepare)] at h ⊢
    rcases write_cases interval.faults prepared.rows w.delta with ⟨stored, ha⟩ | ⟨e, he⟩
    · refine ⟨prepared, stored, rfl, ?_⟩
      have hwrite := onDelta_eq (w := { w with rpc := s }) (write_accepted ha)
      rcases hresult : writeResult interval.faults w.delta prepared.rows stored with e | deltaResult
      · rw [hresult] at hwrite
        rw [Eff.bind_of_error hwrite] at h
        cases h
      · rw [hresult] at hwrite
        rw [Eff.bind_of_ok hwrite] at h ⊢
        have hkeeps := finishRun_keeps interval prepared deltaResult
          { w with rpc := s, delta := some (committed w.delta stored) }
        obtain ⟨dbtResult, hdbt⟩ := finishRun_ok h
        exact ⟨ha, hkeeps.2, dbtResult, by rw [hkeeps.2]; exact hdbt⟩
    · rw [Eff.bind_of_error (onDelta_eq (w := { w with rpc := s }) he)] at h
      cases h

end EthereumLogs.Pipeline
