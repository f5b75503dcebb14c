import EthereumLogs.Pipeline.ExactlyOnce
import EthereumLogs.LogNormalizer.Rejection

namespace EthereumLogs.Pipeline
open Python Effect Keyed LogNormalizer DeltaWriter BlockRange

variable {ρ ω : Type} {client : EthereumClient ρ} {interval : Interval ω} {s t : ρ}
  {w : World ρ ω} {range : IntervalBlockRange} {rawLogs : List RawLog}
  {truth : Int → Option Instant}

def BlockNumberParses (rawLog : RawLog) : Prop :=
  ∀ v text, rawLog.get "blockNumber" = some v → v.asStr = some text → ∃ n, int16 text = .ok n

def unparsed : Exc := .valueError "invalid literal for int() with base 16"

theorem mem_blockTexts {text : Text} :
    text ∈ rawLogs.filterMap (fun rawLog => (rawLog.get "blockNumber").bind Json.asStr) ↔
      ∃ rawLog ∈ rawLogs, ∃ v, rawLog.get "blockNumber" = some v ∧ v.asStr = some text := by
  simp only [List.mem_filterMap, Option.bind_eq_some_iff]

theorem blockNumbers_parsed (h : ∀ rawLog ∈ rawLogs, BlockNumberParses rawLog) :
    ∃ numbers, blockNumbers rawLogs = .ok numbers := by
  cases hnumbers : blockNumbers rawLogs with
  | ok numbers => exact ⟨numbers, rfl⟩
  | error e =>
    obtain ⟨text, hmem, hbad⟩ := except_mapM_error hnumbers
    obtain ⟨rawLog, hlog, v, hv, htext⟩ := mem_blockTexts.mp hmem
    obtain ⟨n, hn⟩ := h rawLog hlog v text hv htext
    rw [hn] at hbad
    cases hbad

theorem blockNumbers_unparsed (h : ¬ ∀ rawLog ∈ rawLogs, BlockNumberParses rawLog) :
    blockNumbers rawLogs = .error unparsed ∧ ∃ rawLog ∈ rawLogs, ∃ v text,
      rawLog.get "blockNumber" = some v ∧ v.asStr = some text ∧ int16 text = .error unparsed := by
  cases hnumbers : blockNumbers rawLogs with
  | ok numbers =>
    exfalso
    apply h
    intro rawLog hlog v text hv htext
    obtain ⟨n, -, hn⟩ := forall₂_left (except_mapM_ok.mp hnumbers)
      (mem_blockTexts.mpr ⟨rawLog, hlog, v, hv, htext⟩)
    exact ⟨n, hn⟩
  | error e =>
    obtain ⟨text, hmem, hbad⟩ := except_mapM_error hnumbers
    obtain ⟨rawLog, hlog, v, hv, htext⟩ := mem_blockTexts.mp hmem
    cases int16_error hbad
    exact ⟨rfl, rawLog, hlog, v, text, hv, htext, hbad⟩

theorem blockNumbers_from {numbers : List Int} {n : Int} (h : blockNumbers rawLogs = .ok numbers)
    (hn : n ∈ numbers) : ∃ rawLog ∈ rawLogs, ∃ v text, rawLog.get "blockNumber" = some v ∧
      v.asStr = some text ∧ int16 text = .ok n := by
  obtain ⟨text, hmem, hint⟩ := forall₂_right (except_mapM_ok.mp h) hn
  obtain ⟨rawLog, hlog, v, hv, htext⟩ := mem_blockTexts.mp hmem
  exact ⟨rawLog, hlog, v, text, hv, htext, hint⟩

def trueRow (interval : Interval ω) (truth : Int → Option Instant) (rawLog : RawLog) :
    Except Exc LogRow :=
  normalizeLog rawLog (fun n => (truth n).map Datetime.utc) interval.settings.chainId
    (.utc interval.startUtc.instant) (.utc interval.endUtc.instant) (.utc interval.now)

def rejectedCount (interval : Interval ω) (truth : Int → Option Instant) (rawLogs : List RawLog) :
    ℕ :=
  rawLogs.countP fun rawLog => !(trueRow interval truth rawLog).isOk

def sourceSchemaInvalid (invalid received : ℕ) : Exc :=
  .normalizationError (s!"source_schema_invalid_count={invalid}, " ++ s!"raw_log_count={received}")

structure LogsReturned (client : EthereumClient ρ) (interval : Interval ω) (s t : ρ)
    (range : IntervalBlockRange) (rawLogs : List RawLog) : Prop where
  bounds : normalizeIntervalBounds interval.startUtc interval.endUtc =
    .ok (interval.startUtc.instant, interval.endUtc.instant)
  collected : ∃ s1 s2, client.ethChainId s = (.ok interval.settings.chainId, s1) ∧
    resolveIntervalBlockRange client.toBlockLookupClient (.utc interval.startUtc.instant)
      (.utc interval.endUtc.instant) s1 = (.ok range, s2) ∧
    collectRawLogs client.toLogRpcClient range.fromBlock range.toBlock
      interval.settings.collectionScope interval.settings.maxBlocksPerLogRequest s2 =
        (.ok rawLogs, t)

def LookupsAnswered (client : EthereumClient ρ) (truth : Int → Option Instant)
    (rawLogs : List RawLog) (t : ρ) : Prop :=
  ∀ numbers, blockNumbers rawLogs = .ok numbers → ∃ timestamps u,
    lookupTimestamps client (sortedSet numbers) t = (.ok timestamps, u) ∧
      ∀ n ∈ numbers, timestamps n = truth n

theorem LogsReturned.fetchLogs_eq (h : LogsReturned client interval s t range rawLogs) :
    fetchLogs client interval.settings interval.startUtc.instant interval.endUtc.instant s =
      (loadBlockTimestamps client rawLogs >>= fun timestamps =>
        pure (Fetched.mk range rawLogs timestamps)) t := by
  obtain ⟨s1, s2, hchain, hrange, hlogs⟩ := h.collected
  rw [fetchLogs]
  rw [Eff.bind_of_ok hchain, if_neg (not_not.mpr rfl), Eff.bind_of_ok hrange, Eff.bind_of_ok hlogs]

theorem LogsReturned.unloaded (h : LogsReturned client interval s t range rawLogs) {e : Exc} {u : ρ}
    (hload : loadBlockTimestamps client rawLogs t = (.error e, u)) :
    prepareRows client interval s = (.error e, u) := by
  have hfetch := h.fetchLogs_eq
  rw [Eff.bind_of_error hload] at hfetch
  rw [prepareRows]
  rw [h.bounds, Eff.ofExcept_ok_bind]
  exact Eff.bind_of_error hfetch _

theorem LogsReturned.loaded (h : LogsReturned client interval s t range rawLogs)
    {timestamps : Int → Option Instant} {u : ρ}
    (hload : loadBlockTimestamps client rawLogs t = (.ok timestamps, u)) :
    prepareRows client interval s = ((normalizeFetched interval.settings interval.startUtc.instant
      interval.endUtc.instant interval.now ⟨range, rawLogs, timestamps⟩).map fun normalized =>
        ⟨interval.startUtc.instant, interval.endUtc.instant, ⟨range, rawLogs, timestamps⟩,
          normalized⟩, u) := by
  have hfetch := h.fetchLogs_eq
  rw [Eff.bind_of_ok hload] at hfetch
  rw [prepareRows]
  rw [h.bounds, Eff.ofExcept_ok_bind]
  refine (Eff.bind_of_ok hfetch _).trans ?_
  cases normalizeFetched interval.settings interval.startUtc.instant interval.endUtc.instant
    interval.now ⟨range, rawLogs, timestamps⟩ with
  | error e => rfl
  | ok normalized => rfl

theorem runInterval_unprepared {e : Exc} (h : prepareRows client interval w.rpc = (.error e, s)) :
    runInterval client interval w = (.error e, { w with rpc := s }) := by
  rw [runInterval, Eff.bind_of_error (onRpc_eq h)]

theorem trueRow_fetched {timestamps : Int → Option Instant} {numbers : List Int}
    (hnumbers : blockNumbers rawLogs = .ok numbers) (htrue : ∀ n ∈ numbers, timestamps n = truth n)
    {rawLog : RawLog} (hlog : rawLog ∈ rawLogs) :
    trueRow interval timestamps rawLog = trueRow interval truth rawLog := by
  have hsame : normalizeEvent rawLog (fun n => (timestamps n).map Datetime.utc)
      interval.settings.chainId = normalizeEvent rawLog (fun n => (truth n).map Datetime.utc)
        interval.settings.chainId := by
    apply normalizeEvent_agrees
    intro v text n hv htext hint
    rw [htrue n (blockNumbers_mem hnumbers hlog hv htext hint)]
  unfold trueRow
  rw [normalizeLog_eq, normalizeLog_eq, hsame]

theorem normalizeFetched_eq {timestamps : Int → Option Instant} {numbers : List Int}
    (hnumbers : blockNumbers rawLogs = .ok numbers)
    (htrue : ∀ n ∈ numbers, timestamps n = truth n) :
    ∃ rows, normalizeFetched interval.settings interval.startUtc.instant interval.endUtc.instant
        interval.now ⟨range, rawLogs, timestamps⟩ =
      if rejectedCount interval truth rawLogs > 0 then
        .error (sourceSchemaInvalid (rejectedCount interval truth rawLogs) rawLogs.length)
      else .ok ⟨rows, rejectedCount interval truth rawLogs⟩ := by
  have hraises : ∀ rawLog, RaisesPayload (trueRow interval truth rawLog) :=
    fun _ => normalizeLog_raises _ _ _ _
  obtain ⟨rows, hrows⟩ := normalizeEach_counted hraises rawLogs
  have hsame : normalizeEach (trueRow interval timestamps) rawLogs =
      .ok ⟨rows, rejectedCount interval truth rawLogs⟩ := by
    rw [normalizeEach_congr fun rawLog hlog => trueRow_fetched hnumbers htrue hlog, hrows]
    rfl
  have hlogs : normalizeLogs rawLogs (fun n => (timestamps n).map Datetime.utc)
      interval.settings.chainId (.utc interval.startUtc.instant) (.utc interval.endUtc.instant) none
        interval.now = .ok ⟨rows, rejectedCount interval truth rawLogs⟩ := by
    simp only [normalizeLogs, LogNormalizer.ensureUtc, Option.getD_none, astimezone_utc]
    exact hsame
  refine ⟨rows, ?_⟩
  rw [normalizeFetched]
  dsimp only
  rw [hlogs]
  rfl

structure MalformedCounted (client : EthereumClient ρ) (interval : Interval ω)
    (truth : Int → Option Instant) (rawLogs : List RawLog) (w : World ρ ω) (t : ρ) : Prop where
  counted : 1 ≤ rejectedCount interval truth rawLogs → ∃ u, runInterval client interval w =
    (.error (sourceSchemaInvalid (rejectedCount interval truth rawLogs) rawLogs.length),
      { w with rpc := u })
  accepted : rejectedCount interval truth rawLogs = 0 → ∃ timestamps,
    (loadBlockTimestamps client rawLogs t).1 = .ok timestamps ∧
      ∀ rawLog ∈ rawLogs, ∃ row, trueRow interval truth rawLog = .ok row ∧
        timestamps row.blockNumber = some row.blockTimestampUtc ∧
        trueRow interval timestamps rawLog = .ok row

theorem trueRow_block {rawLog : RawLog} {row : LogRow}
    (h : trueRow interval truth rawLog = .ok row) :
    truth row.blockNumber = some row.blockTimestampUtc ∧ ∃ v text,
      rawLog.get "blockNumber" = some v ∧ v.asStr = some text ∧
        int16 text = .ok row.blockNumber := by
  have hfrom := normalizeEvent_from (normalizeLog_ok h).1
  obtain ⟨v, text, hv, htext, hint⟩ := hfrom.blockNumber
  refine ⟨?_, v, text, hv, htext, hint⟩
  have htime := hfrom.timestamp
  unfold blockTimestampOf at htime
  dsimp only at htime
  rcases htruth : truth row.blockNumber with _ | instant
  · rw [htruth] at htime
    cases htime
  · rw [htruth] at htime
    change LogNormalizer.ensureUtc (.utc instant) _ = _ at htime
    rw [LogNormalizer.ensureUtc, astimezone_utc] at htime
    cases htime
    rfl

theorem trueRow_unparsed {rawLog : RawLog} {v : Json} {text : Text}
    (hv : rawLog.get "blockNumber" = some v) (htext : v.asStr = some text)
    (hbad : int16 text = .error unparsed) : (trueRow interval truth rawLog).isOk = false := by
  rcases hrow : trueRow interval truth rawLog with e | row
  · rfl
  · obtain ⟨-, v', text', hv', htext', hint⟩ := trueRow_block hrow
    obtain rfl := blockText_unique hv htext hv' htext'
    rw [hbad] at hint
    cases hint

theorem LogsReturned.counted_of_parsed (h : LogsReturned client interval w.rpc t range rawLogs)
    (hlookups : LookupsAnswered client truth rawLogs t)
    (hparses : ∀ rawLog ∈ rawLogs, BlockNumberParses rawLog) :
    MalformedCounted client interval truth rawLogs w t := by
  obtain ⟨numbers, hnumbers⟩ := blockNumbers_parsed hparses
  obtain ⟨timestamps, u, hlookup, htrue⟩ := hlookups numbers hnumbers
  have hload : loadBlockTimestamps client rawLogs t = (.ok timestamps, u) := by
    rw [loadBlockTimestamps]
    rw [hnumbers, Eff.ofExcept_ok_bind, hlookup]
  obtain ⟨rows, hfetched⟩ : ∃ rows, normalizeFetched interval.settings interval.startUtc.instant
      interval.endUtc.instant interval.now ⟨range, rawLogs, timestamps⟩ = _ :=
    normalizeFetched_eq hnumbers htrue
  constructor
  · intro hk
    refine ⟨u, runInterval_unprepared ?_⟩
    rw [h.loaded hload, hfetched, if_pos (Nat.lt_of_succ_le hk)]
    rfl
  · intro hk
    refine ⟨timestamps, by rw [hload], ?_⟩
    intro rawLog hlog
    have hok := List.countP_eq_zero.mp hk rawLog hlog
    rcases hrow : trueRow interval truth rawLog with e | row
    · rw [hrow] at hok
      exact absurd rfl hok
    · obtain ⟨htime, v, text, hv, htext, hint⟩ := trueRow_block hrow
      have hmem := blockNumbers_mem hnumbers hlog hv htext hint
      exact ⟨row, rfl, by rw [htrue _ hmem, htime],
        by rw [trueRow_fetched hnumbers htrue hlog, hrow]⟩

theorem LogsReturned.escapes (h : LogsReturned client interval w.rpc t range rawLogs)
    (hparses : ¬ ∀ rawLog ∈ rawLogs, BlockNumberParses rawLog) :
    1 ≤ rejectedCount interval truth rawLogs ∧
      runInterval client interval w = (.error unparsed, { w with rpc := t }) := by
  obtain ⟨hnumbers, rawLog, hlog, v, text, hv, htext, hbad⟩ := blockNumbers_unparsed hparses
  constructor
  · have hreject : (trueRow interval truth rawLog).isOk = false := trueRow_unparsed hv htext hbad
    exact List.countP_pos_iff.mpr ⟨rawLog, hlog, by rw [hreject]; rfl⟩
  · have hload : loadBlockTimestamps client rawLogs t = (.error unparsed, t) := by
      rw [loadBlockTimestamps]
      rw [hnumbers]
      rfl
    exact runInterval_unprepared (h.unloaded hload)

theorem malformed_counted_iff (h : LogsReturned client interval w.rpc t range rawLogs)
    (hlookups : LookupsAnswered client truth rawLogs t) :
    MalformedCounted client interval truth rawLogs w t ↔
      ∀ rawLog ∈ rawLogs, BlockNumberParses rawLog := by
  constructor
  · intro hcounted
    by_contra hparses
    obtain ⟨hk, hrun⟩ := h.escapes hparses
    obtain ⟨u, hreported⟩ := hcounted.counted hk
    rw [hrun] at hreported
    cases hreported
  · exact h.counted_of_parsed hlookups

def servingLogs (logs : List RawLog) : EthereumClient Unit :=
  { servingBlockOne with ethGetLogs := fun _ _ _ _ => pure logs }

def blockTime (n : Int) : Option Instant :=
  if 0 ≤ n ∧ n ≤ 4 then some (timeAt everyTwelveSeconds n) else none

theorem servingLogs_returned (logs : List RawLog) :
    LogsReturned (servingLogs logs) failingDbt () () earlyRange logs := by
  refine ⟨by decide, (), (), rfl, ?_, ?_⟩
  · have hrange : (resolveIntervalBlockRange servingBlockOne.toBlockLookupClient
        (.utc failingDbt.startUtc.instant) (.utc failingDbt.endUtc.instant) ()).1 =
          .ok earlyRange := by decide +kernel
    rw [← hrange]
    rfl
  · have hchunk : collectChunk (servingLogs logs).toLogRpcClient ⟨1, 2, by decide⟩
        defaultSettings.collectionScope () = (.ok logs, ()) := by
      rw [collectChunk]
      exact Eff.tryCatch_of_ok rfl _
    have hchunks : iterBlockChunks earlyRange.fromBlock earlyRange.toBlock
        defaultSettings.maxBlocksPerLogRequest = .ok [⟨1, 2, by decide⟩] := by
      decide +kernel
    have hscope : defaultSettings.collectionScope.validate = .ok () := rfl
    change collectRawLogs _ _ _ defaultSettings.collectionScope
      defaultSettings.maxBlocksPerLogRequest () = _
    rw [collectRawLogs, hscope, hchunks, Eff.ofExcept_ok_bind, Eff.ofExcept_ok_bind, collectChunks,
      Eff.bind_of_ok hchunk, collectChunks]
    change (Except.ok (logs ++ []), ()) = _
    rw [List.append_nil]

def pendingLog : RawLog := ("blockNumber", .str "pending".toList) :: transferLog.tail

def nullDataLog : RawLog := ("data", .null) :: transferLog.dropLast

theorem malformed_counted_iff_nullDataLog :
    MalformedCounted (servingLogs [transferLog, nullDataLog]) failingDbt blockTime
      [transferLog, nullDataLog] ⟨(), none, ()⟩ () := by
  refine (malformed_counted_iff (servingLogs_returned _) ?_).mpr ?_
  · intro numbers hnumbers
    have h : blockNumbers [transferLog, nullDataLog] = .ok [1, 1] := by decide +kernel
    rw [h] at hnumbers
    cases hnumbers
    refine ⟨fun n => if n = 1 then some 12000000 else none, (), rfl, ?_⟩
    decide
  · intro rawLog hlog v text hv htext
    refine ⟨1, ?_⟩
    have hone : v.asStr = some "0x1".toList := by
      rcases List.mem_pair.mp hlog with rfl | rfl
      all_goals
        cases hv
        rfl
    rw [htext] at hone
    cases hone
    decide

theorem malformed_block_number_escapes :
    LogsReturned (servingLogs [transferLog, pendingLog]) failingDbt () () earlyRange
        [transferLog, pendingLog] ∧
      LookupsAnswered (servingLogs [transferLog, pendingLog]) blockTime
        [transferLog, pendingLog] () ∧
      rejectedCount failingDbt blockTime [transferLog, pendingLog] = 1 ∧
      runInterval (servingLogs [transferLog, pendingLog]) failingDbt ⟨(), none, ()⟩ =
        (.error unparsed, ⟨(), none, ()⟩) ∧
      ¬ MalformedCounted (servingLogs [transferLog, pendingLog]) failingDbt blockTime
        [transferLog, pendingLog] ⟨(), none, ()⟩ () := by
  have hnumbers : blockNumbers [transferLog, pendingLog] = .error unparsed := by decide +kernel
  have hreturned := servingLogs_returned [transferLog, pendingLog]
  have hload : loadBlockTimestamps (servingLogs [transferLog, pendingLog])
      [transferLog, pendingLog] () = (.error unparsed, ()) := by
    rw [loadBlockTimestamps]
    rw [hnumbers]
    rfl
  have hrun : runInterval (servingLogs [transferLog, pendingLog]) failingDbt ⟨(), none, ()⟩ =
      (.error unparsed, ⟨(), none, ()⟩) := runInterval_unprepared (hreturned.unloaded hload)
  have hcount : rejectedCount failingDbt blockTime [transferLog, pendingLog] = 1 := by
    decide +kernel
  refine ⟨hreturned, ?_, hcount, hrun, ?_⟩
  · intro numbers hok
    rw [hnumbers] at hok
    cases hok
  · intro hcounted
    obtain ⟨u, hreported⟩ := hcounted.counted (by rw [hcount])
    rw [hrun] at hreported
    cases hreported

end EthereumLogs.Pipeline
