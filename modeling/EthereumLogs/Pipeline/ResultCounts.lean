import EthereumLogs.Pipeline.ChainTables

namespace EthereumLogs.Pipeline
open Python Effect Tiling Keyed LogNormalizer DeltaWriter Dbt Dag

variable {ρ ω : Type} {client : EthereumClient ρ} {chain : Chain} {vars : DbtVars}
  {committed : List (Interval Warehouse)} {window : Window} {rows stored : List LogRow}
  {table : Option DeltaTable} {interval : Interval Warehouse} {w : World ρ Warehouse}

structure Reported (client : EthereumClient ρ) (interval : Interval ω) (w w' : World ρ ω)
    (prepared : Prepared) (stored : List LogRow) (result : PipelineRunResult) : Prop where
  fetched : (prepareRows client interval w.rpc).1 = .ok prepared
  accepted : Accepted interval.faults prepared.rows w.delta stored
  delta : w'.delta = some (DeltaWriter.committed w.delta stored)
  dbt : interval.dbtRunner interval.settings prepared.start prepared.stop w'.delta w.warehouse =
    (.ok result.dbtResult, w'.warehouse)
  blocks : result.fromBlock = prepared.fetched.blockRange.fromBlock ∧
    result.toBlock = prepared.fetched.blockRange.toBlock
  rawLogCount : result.rawLogCount = prepared.fetched.rawLogs.length
  normalizedLogCount : result.normalizedLogCount = prepared.normalized.rows.length
  invalidLogCount : result.invalidLogCount = prepared.normalized.invalidLogCount
  deltaWrite : writeResult interval.faults w.delta prepared.rows stored = .ok result.deltaWrite

theorem finishRun_result {interval : Interval ω} {prepared : Prepared} {deltaResult : DeltaWriteResult}
    {w w' : World ρ ω} {result : PipelineRunResult}
    (h : finishRun interval prepared deltaResult w = (.ok result, w')) : ∃ dbtResult,
      interval.dbtRunner interval.settings prepared.start prepared.stop w.delta w.warehouse =
        (.ok dbtResult, w'.warehouse) ∧ result = finishedResult prepared deltaResult dbtResult := by
  rw [finishRun_run] at h
  obtain ⟨hresult, rfl⟩ := Prod.ext_iff.mp h
  obtain ⟨dbtResult, hdbt, rfl⟩ := except_map_ok hresult
  exact ⟨dbtResult, Prod.ext hdbt rfl, rfl⟩

theorem runInterval_result {interval : Interval ω} {w w' : World ρ ω} {result : PipelineRunResult}
    (h : runInterval client interval w = (.ok result, w')) :
    ∃ prepared stored, Reported client interval w w' prepared stored result := by
  rw [runInterval] at h
  rcases hprepare : prepareRows client interval w.rpc with ⟨e | prepared, s⟩
  · rw [Eff.bind_of_error (onRpc_eq hprepare)] at h
    cases h
  · rw [Eff.bind_of_ok (onRpc_eq hprepare)] at h
    rcases write_cases interval.faults prepared.rows w.delta with ⟨stored, ha⟩ | ⟨e, he⟩
    · have hwrite := onDelta_eq (w := { w with rpc := s }) (write_accepted ha)
      rcases hresult : writeResult interval.faults w.delta prepared.rows stored with e | deltaResult
      · rw [hresult] at hwrite
        rw [Eff.bind_of_error hwrite] at h
        cases h
      · rw [hresult] at hwrite
        rw [Eff.bind_of_ok hwrite] at h
        have hkeeps := (finishRun_keeps interval prepared deltaResult
          { w with rpc := s, delta := some (DeltaWriter.committed w.delta stored) }).2
        rw [h] at hkeeps
        obtain ⟨dbtResult, hdbt, rfl⟩ := finishRun_result h
        refine ⟨prepared, stored, by rw [hprepare], ha, hkeeps, ?_, ⟨rfl, rfl⟩, rfl, rfl, rfl, hresult⟩
        rw [hkeeps]
        exact hdbt
    · rw [Eff.bind_of_error (onDelta_eq (w := { w with rpc := s }) he)] at h
      cases h

def storedEvents (table : Option DeltaTable) : List LogEvent :=
  (storedRows table).map LogRow.toLogEvent

theorem ExactlyOnce.added (h : ExactlyOnce chain committed (storedRows table))
    (hlanded : Landed chain interval rows)
    (ha : Accepted interval.faults (rows.map LogRow.toDict) table stored) :
    (newRows table (rows.map LogRow.toDict)).length =
      ((chain.eventsIn ⟨interval.startUtc.instant, interval.endUtc.instant⟩).filter
        fun event => event ∉ storedEvents table).length := by
  have honce := h.commit hlanded ha
  have hcommits : Commits (committed ++ [interval])
      ⟨interval.startUtc.instant, interval.endUtc.instant⟩ :=
    ⟨interval, by simp, rfl, rfl⟩
  obtain ⟨added, hadded, hstored⟩ := ingest_eq_some_iff.mp ha.ingested
  have hlength : (newRows table (rows.map LogRow.toDict)).length =
      (added.map LogRow.toLogEvent).length := by
    rw [List.length_map]
    exact (mapM_eq_some_iff.mp hadded).length_eq
  have hnodup := honce.events_nodup
  rw [hstored, List.map_append, List.nodup_append'] at hnodup
  obtain ⟨-, haddedNodup, hdisjoint⟩ := hnodup
  rw [hlength]
  apply List.Perm.length_eq
  rw [List.perm_ext_iff_of_nodup haddedNodup ((chain.eventsIn_keys _).of_map.filter _)]
  intro event
  rw [List.mem_filter, decide_eq_true_eq, ← honce.events hcommits]
  constructor
  · intro hevent
    obtain ⟨row, hrow, rfl⟩ := List.mem_map.mp hevent
    obtain ⟨input, hinput, hconvert⟩ := mem_of_mapM hadded hrow
    obtain ⟨r, hr, rfl⟩ := List.mem_map.mp ((firsts_sublist rowKey _ _).mem hinput)
    have hsame := arrowRow_toDict hconvert
    subst hsame
    obtain ⟨n, l, hl, hwindow, hnormal⟩ := hlanded.sound _ hr
    refine ⟨⟨_, ?_, ?_, rfl⟩, fun hold => hdisjoint hold hevent⟩
    · rw [hstored]
      exact List.mem_append_right _ hrow
    · rw [Chain.row_timestamp hl hnormal]
      exact hwindow
  · rintro ⟨⟨row, hrow, -, rfl⟩, hfresh⟩
    rw [hstored] at hrow
    rcases List.mem_append.mp hrow with hold | hnew
    · exact absurd (List.mem_map_of_mem hold) hfresh
    · exact List.mem_map_of_mem hnew

theorem Serves.nothing_fresh (h : ChainInvariant chain vars committed w)
    (hserves : Serves vars committed window w) :
    (chain.eventsIn window).filter (fun event => event ∉ storedEvents w.delta) = [] := by
  rw [List.filter_eq_nil_iff]
  intro event hevent hfresh
  obtain ⟨row, hrow, -, rfl⟩ := (h.ingested.events hserves.commits event).mpr hevent
  exact (of_decide_eq_true hfresh) (List.mem_map_of_mem hrow)

structure TellsChain (chain : Chain) (window : Window) (before after : Option DeltaTable)
    (result : PipelineRunResult) : Prop where
  blocks : ((span result.fromBlock (result.toBlock + 1)).map Int.toNat).Perm (chain.blocksIn window)
  rawLogCount : result.rawLogCount = ((chain.blocksIn window).flatMap chain.logs).length
  normalizedLogCount : result.normalizedLogCount = result.rawLogCount
  invalidLogCount : result.invalidLogCount = 0
  inserted : result.deltaWrite.insertedRowCount =
    ((chain.eventsIn window).filter fun event => event ∉ storedEvents before).length
  skipped : result.deltaWrite.insertedRowCount + result.deltaWrite.duplicateSkippedCount =
    result.rawLogCount
  rowCount : result.deltaWrite.rowCountAfter = (storedRows after).length ∧
    result.deltaWrite.rowCountAfter =
      (storedRows before).length + result.deltaWrite.insertedRowCount
  dbtResult : result.dbtResult = [("returncode", .int 0),
    ("vars", .obj [("window_start", .str (utcIsoformat window.start)),
      ("window_end", .str (utcIsoformat window.stop))])]

theorem prepareRows_valid {interval : Interval ω} {s : ρ} {prepared : Prepared}
    (h : (prepareRows client interval s).1 = .ok prepared) :
    prepared.normalized.invalidLogCount = 0 := by
  obtain ⟨bounds, -, h⟩ := Eff.ofExcept_bind_ok h
  obtain ⟨fetched, s1, -, h⟩ := Eff.bind_ok h
  obtain ⟨normalized, hnormalized, h⟩ := Eff.ofExcept_bind_ok h
  cases h
  obtain ⟨result, -, hnormalized⟩ := except_bind_ok hnormalized
  split_ifs at hnormalized with hinvalid
  cases hnormalized
  exact Nat.eq_zero_of_not_pos hinvalid

theorem runDbtBuild_result {process : DbtProcess} (settings : PipelineSettings) {start stop : Instant}
    {warehouse warehouse' : Warehouse} {dbtResult : JsonObject}
    (h : runDbtBuild vars process settings start stop table warehouse = (.ok dbtResult, warehouse')) :
    dbtResult = [("returncode", .int 0), ("vars", .obj [("window_start", .str (utcIsoformat start)),
      ("window_end", .str (utcIsoformat stop))])] := by
  obtain ⟨_, w1, -, h⟩ := Eff.bind_ok (congrArg Prod.fst h)
  obtain ⟨_, w2, -, h⟩ := Eff.bind_ok h
  obtain ⟨_, w3, -, h⟩ := Eff.bind_ok h
  cases h
  rfl

theorem Reported.tells (hclient : Honest client chain) {inputs : RunInputs} {start stop : Instant}
    {w w' : World ρ Warehouse} {prepared : Prepared} {stored : List LogRow} {result : PipelineRunResult}
    (h : Reported client (inputs.interval vars start stop) w w' prepared stored result)
    (hw : ExactlyOnce chain committed (storedRows w.delta)) :
    TellsChain chain ⟨start, stop⟩ w.delta w'.delta result := by
  have hp := prepareRows_ok h.fetched
  have hstart : prepared.start = start := by
    rw [hp.start]
    exact instant_utc _
  have hstop : prepared.stop = stop := by
    rw [hp.stop]
    exact instant_utc _
  obtain ⟨s, hrange⟩ := hp.fetched.range
  obtain ⟨t, hlogs⟩ := hp.fetched.logs
  rw [hstart, hstop] at hrange
  have hnormalized : result.normalizedLogCount = result.rawLogCount := by
    rw [h.normalizedLogCount, h.rawLogCount]
    exact hp.normalized.length_eq.symm
  have hwrite := writeResult_ok h.deltaWrite
  have hsum := writeCounts_sum w.delta prepared.rows
  have hadded := hw.added (hclient.landed hp) h.accepted
  have hwindow : (⟨(inputs.interval vars start stop).startUtc.instant,
      (inputs.interval vars start stop).endUtc.instant⟩ : Window) = ⟨start, stop⟩ := by
    rw [Window.mk.injEq]
    exact ⟨instant_utc _, instant_utc _⟩
  rw [hwindow] at hadded
  refine ⟨?_, ?_, hnormalized, ?_, ?_, ?_, ?_, ?_⟩
  · rw [h.blocks.1, h.blocks.2]
    exact hclient.blocksIn hrange
  · rw [h.rawLogCount]
    exact (hclient.logsIn hrange hlogs).length_eq
  · rw [h.invalidLogCount]
    exact prepareRows_valid h.fetched
  · rw [hwrite]
    exact hadded
  · rw [← hnormalized, h.normalizedLogCount, hwrite, hsum]
    exact List.length_map _
  · rw [hwrite, h.delta]
    exact ⟨rfl, h.accepted.length⟩
  · have hdbt := runDbtBuild_result inputs.settings h.dbt
    rw [hstart, hstop] at hdbt
    exact hdbt

end EthereumLogs.Pipeline
