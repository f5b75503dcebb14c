import EthereumLogs.Scripts.SmokeValidation

namespace EthereumLogs.SmokeValidation
open Python Effect Tiling Keyed LogNormalizer DeltaWriter Pipeline BlockRange

variable {ρ ω : Type} {client : EthereumClient ρ} {chain : Chain} {inputs : SmokeInputs}
  {settings : PipelineSettings} {start stop now : Instant} {collected : Collected}
  {examined : Examined} {other : Json → Text} {rawLog : RawLog} {row : LogRow}

def storedInterval (inputs : SmokeInputs) (start stop : Instant) : Interval Dbt.Warehouse where
  settings := inputs.settings
  startUtc := .utc start
  endUtc := .utc stop
  now := inputs.now
  faults := inputs.store.firstWrite
  dbtRunner := fun _ _ _ _ => pure []

theorem storedInterval_window {n : ℕ} : chain.InWindow (storedInterval inputs start stop) n ↔
    Dbt.Window.Contains ⟨start, stop⟩ (chain.time n) := by
  change (Datetime.utc start).instant ≤ _ ∧ _ < (Datetime.utc stop).instant ↔ _
  rw [instant_utc, instant_utc]
  rfl

theorem CollectedFrom.logs_perm (h : CollectedFrom client settings start stop collected)
    (hclient : Honest client chain) :
    collected.rawLogs.Perm ((chain.blocksIn ⟨start, stop⟩).flatMap chain.logs) := by
  obtain ⟨s, hrange⟩ := h.range
  obtain ⟨t, hlogs⟩ := h.logs
  exact hclient.logsIn hrange hlogs

theorem blockNumbers_read {rawLogs : List RawLog} {numbers : List Int}
    (h : rawLogs.mapM blockNumberOf = .ok numbers) (hmem : rawLog ∈ rawLogs) {event : LogEvent}
    {ts : Int → Option Datetime} {chainId : Int}
    (hok : normalizeEvent rawLog ts chainId = .ok event) : event.blockNumber ∈ numbers := by
  obtain ⟨v, text, hv, htext, hint⟩ := (normalizeEvent_from hok).blockNumber
  obtain rfl := str_of_asStr htext
  obtain ⟨n, hn, hread⟩ := forall₂_left (except_mapM_ok.mp h) hmem
  have hitem : rawLog.item "blockNumber" = .ok (.str text) := by
    rw [JsonObject.item, hv]
  rw [blockNumberOf, hitem] at hread
  change int16 text = .ok n at hread
  rw [hint] at hread
  cases hread
  exact hn

theorem CollectedFrom.normalizes (h : CollectedFrom client settings start stop collected)
    (hclient : Honest client chain) (hchain : settings.chainId = chain.chainId)
    (hmem : rawLog ∈ collected.rawLogs) (now : Instant) : ∃ n event, rawLog ∈ chain.logs n ∧
      Dbt.Window.Contains ⟨start, stop⟩ (chain.time n) ∧ chain.event rawLog = .ok event ∧
      normalizeLog rawLog (fun k => (collected.blockTimestamps k).map Datetime.utc) settings.chainId
        (.utc start) (.utc stop) (.utc now) = .ok ⟨event, start, stop, now⟩ := by
  obtain ⟨n, hn, hl⟩ := List.mem_flatMap.mp ((h.logs_perm hclient).mem_iff.mp hmem)
  obtain ⟨event, hevent, hblock⟩ := chain.wellFormed n rawLog hl
  obtain ⟨numbers, hnumbers, hlookup⟩ := h.numbers
  have hnumber := blockNumbers_read hnumbers hmem hevent
  obtain ⟨t, ht⟩ := hlookup.found _ (mem_sortedSet.mpr hnumber)
  obtain ⟨u, block, hanswer, hreport⟩ := hlookup.reported _ t ht
  rw [hblock] at ht hanswer
  have htime := hclient.lookup n u block hanswer
  rw [hreport] at htime
  cases htime
  have hsame : (fun k => (collected.blockTimestamps k).map Datetime.utc) event.blockNumber =
      trueTimestamps chain.time event.blockNumber := by
    rw [hblock]
    simp [ht, trueTimestamps, timeAt]
  refine ⟨n, event, hl, Chain.mem_blocksIn.mp hn, hevent, ?_⟩
  rw [normalizeLog_eq, hchain, normalizeEvent_congr hevent hsame]
  rfl

theorem normalizeEach_forall {normalize : JsonObject → Except Exc LogRow} {rawLogs : List RawLog}
    {R : RawLog → LogRow → Prop} {result : NormalizationResult}
    (hall : ∀ l ∈ rawLogs, ∃ row, normalize l = .ok row ∧ R l row)
    (h : normalizeEach normalize rawLogs = .ok result) : List.Forall₂ R rawLogs result.rows := by
  induction rawLogs generalizing result with
  | nil =>
    cases h
    exact .nil
  | cons l rawLogs ih =>
    obtain ⟨row, hrow, hR⟩ := hall l List.mem_cons_self
    rw [normalizeEach, hrow] at h
    obtain ⟨rest, hrest, rfl⟩ := except_map_ok h
    exact .cons hR (ih (fun l' hl' => hall l' (List.mem_cons_of_mem l hl')) hrest)

def StoredAs (chain : Chain) (interval : Interval Dbt.Warehouse) (rawLog : RawLog) (row : LogRow) : Prop :=
  ∃ n, rawLog ∈ chain.logs n ∧ chain.InWindow interval n ∧ chain.row interval rawLog = .ok row

theorem StoredAs.same_log {interval : Interval Dbt.Warehouse} {rawLog' : RawLog} {row' : LogRow}
    (h : StoredAs chain interval rawLog row) (h' : StoredAs chain interval rawLog' row')
    (hkey : storedKey row = storedKey row') : rawLog = rawLog' := by
  obtain ⟨n, hl, -, hrow⟩ := h
  obtain ⟨n', hl', -, hrow'⟩ := h'
  obtain ⟨hhash, hindex⟩ := storedKey_inj hkey
  exact (chain.unique n n' rawLog rawLog' _ _ hl hl' (row_event hrow) (row_event hrow') hhash hindex).2

theorem StoredAs.same_key {interval : Interval Dbt.Warehouse} {rawLog' : RawLog} {row' : LogRow}
    (h : StoredAs chain interval rawLog row) (h' : StoredAs chain interval rawLog' row')
    (hkey : (eventKeyOf chain.chainId rawLog).toOption =
      (eventKeyOf chain.chainId rawLog').toOption) : storedKey row = storedKey row' := by
  obtain ⟨n, -, -, hok⟩ := h
  obtain ⟨n', -, -, hok'⟩ := h'
  exact eventKey_storedKey (row_event hok) (row_event hok') hkey

section Stored

variable (h : CollectedFrom client inputs.settings start stop collected) (hclient : Honest client chain)
  (hchain : inputs.settings.chainId = chain.chainId)
  (hexamined : ExaminedFrom other inputs.settings start stop inputs.now collected examined)
include h hclient hchain hexamined

theorem stored_rows : List.Forall₂ (StoredAs chain (storedInterval inputs start stop))
    collected.rawLogs examined.normalized.rows := by
  refine normalizeEach_forall (fun l hl => ?_) hexamined.normalized
  obtain ⟨n, event, hmem, hwindow, hevent, hok⟩ := h.normalizes hclient hchain hl inputs.now
  refine ⟨_, hok, n, hmem, storedInterval_window.mpr hwindow, ?_⟩
  change normalizeLog l chain.timestamps chain.chainId (.utc (Datetime.utc start).instant)
    (.utc (Datetime.utc stop).instant) (.utc inputs.now) = _
  rw [instant_utc, instant_utc, normalizeLog_eq]
  change (chain.event l).map _ = _
  rw [hevent]
  rfl

theorem stored_landed : Landed chain (storedInterval inputs start stop) examined.normalized.rows := by
  have hrows := stored_rows h hclient hchain hexamined
  constructor
  · intro row hrow
    obtain ⟨l, -, n, hmem, hwindow, hok⟩ := forall₂_right hrows hrow
    exact ⟨n, l, hmem, hwindow, hok⟩
  · intro n hwindow l hl
    have hblock : n ∈ chain.blocksIn ⟨start, stop⟩ := Chain.mem_blocksIn.mpr (storedInterval_window.mp hwindow)
    have hmem : l ∈ collected.rawLogs :=
      (h.logs_perm hclient).mem_iff.mpr (List.mem_flatMap.mpr ⟨n, hblock, hl⟩)
    obtain ⟨row, hrow, -, -, -, hok⟩ := forall₂_left hrows hmem
    exact ⟨row, hrow, hok⟩

end Stored

section Distinct

variable {interval : Interval Dbt.Warehouse} {rawLogs : List RawLog} {rows : List LogRow}
  (h : List.Forall₂ (StoredAs chain interval) rawLogs rows)
include h

theorem distinct_keys : (rows.map storedKey).dedup.length =
    (rawLogs.map fun log => (eventKeyOf chain.chainId log).toOption).dedup.length := by
  apply le_antisymm
  · exact distinct_le h fun l row l' row' hrow hrow' hkey => StoredAs.same_key hrow hrow' hkey
  · refine distinct_le h.flip fun row l row' l' hrow hrow' hkey => ?_
    rw [StoredAs.same_log hrow hrow' hkey]

theorem distinct_events : (rows.map LogRow.toLogEvent).dedup.length =
    (rawLogs.map fun log => (eventKeyOf chain.chainId log).toOption).dedup.length := by
  apply le_antisymm
  · refine distinct_le h fun l row l' row' hrow hrow' hkey => ?_
    obtain rfl := StoredAs.same_log hrow hrow' (StoredAs.same_key hrow hrow' hkey)
    obtain ⟨n, -, -, hok⟩ := hrow
    obtain ⟨n', -, -, hok'⟩ := hrow'
    rw [Except.ok.inj (hok.symm.trans hok')]
  · refine distinct_le h.flip fun row l row' l' hrow hrow' hevent => ?_
    have hstored : storedKey row = storedKey row' := by rw [storedKey, storedKey, hevent]
    rw [StoredAs.same_log hrow hrow' hstored]

end Distinct

variable {interval : Interval Dbt.Warehouse} {rows stored : List LogRow}

theorem landed_events (h : Landed chain (storedInterval inputs start stop) rows) :
    (rows.map LogRow.toLogEvent).dedup.length = (chain.eventsIn ⟨start, stop⟩).length := by
  apply List.Perm.length_eq
  rw [List.perm_ext_iff_of_nodup (List.nodup_dedup _) (chain.eventsIn_keys _).of_map]
  intro event
  rw [List.mem_dedup, List.mem_map]
  constructor
  · rintro ⟨row, hrow, rfl⟩
    obtain ⟨n, l, hl, hwindow, hok⟩ := h.sound row hrow
    exact Chain.mem_eventsIn.mpr ⟨n, l, hl, storedInterval_window.mp hwindow, row_event hok⟩
  · intro hevent
    obtain ⟨n, l, hl, hwindow, hok⟩ := Chain.mem_eventsIn.mp hevent
    obtain ⟨row, hrow, hrowOk⟩ := h.complete n (storedInterval_window.mpr hwindow) l hl
    exact ⟨row, hrow, Except.ok.inj ((row_event hrowOk).symm.trans hok)⟩

theorem stored_events (h : Landed chain (storedInterval inputs start stop) rows)
    (ha : Accepted inputs.store.firstWrite (rows.map LogRow.toDict) none stored) :
    (stored.map LogRow.toLogEvent).Perm (chain.eventsIn ⟨start, stop⟩) := by
  have hempty : ExactlyOnce chain ([] : List (Interval Dbt.Warehouse)) (storedRows none) :=
    ⟨by simp [storedRows], by simp [storedRows], by simp⟩
  have honce := hempty.commit h ha
  have hcommits : Commits ([] ++ [storedInterval inputs start stop]) ⟨start, stop⟩ :=
    ⟨storedInterval inputs start stop, List.mem_singleton.mpr rfl, instant_utc start, instant_utc stop⟩
  rw [List.perm_ext_iff_of_nodup honce.events_nodup (chain.eventsIn_keys _).of_map]
  intro event
  rw [← honce.events hcommits, List.mem_map]
  constructor
  · rintro ⟨row, hrow, rfl⟩
    obtain ⟨interval, hinterval, n, l, hl, hwindow, hok⟩ := honce.sound row hrow
    obtain rfl := List.mem_singleton.mp hinterval
    refine ⟨row, hrow, ?_, rfl⟩
    rw [Chain.row_timestamp hl hok]
    exact storedInterval_window.mp hwindow
  · rintro ⟨row, hrow, -, hevent⟩
    exact ⟨row, hrow, hevent⟩

structure CountsChain (chain : Chain) (window : Dbt.Window) (after : Option DeltaTable)
    (r : SmokeReport) : Prop where
  rawLogs : r.rawLogCount = ((chain.blocksIn window).flatMap chain.logs).length
  uniqueEvents : r.uniqueEventKeyCount = (chain.eventsIn window).length
  inserted : r.firstInsertedRowCount = (chain.eventsIn window).length
  stored : ((storedRows after).map LogRow.toLogEvent).Perm (chain.eventsIn window)

theorem smoke_report_counts_chain (chain : Chain) (client : EthereumClient ρ)
    (hclient : Honest client chain) (inputs : SmokeInputs) (w w' : World ρ ω) (result : SmokeReport)
    (h : main client inputs w = (.ok result, w')) (hchainId : result.chainIdOk = true)
    (hremoved : inputs.store.leftover w.delta = none) :
    CountsChain chain ⟨result.intervalStartUtc, result.intervalEndUtc⟩ w'.delta result := by
  obtain ⟨start, stop, collected, examined, twice, stored, hreported, hdelta, -⟩ := main_ok h
  obtain ⟨hbounds, hfetched, hchecked, hwritten, hprinted⟩ := hreported
  have hcollected := collect_ok hfetched
  have hexamined := examine_ok hchecked
  obtain ⟨fingerprint, -, hprinted⟩ := except_bind_ok hprinted
  obtain ⟨number, hnumber, hprinted⟩ := except_bind_ok hprinted
  obtain ⟨timestamp, htimestamp, hprinted⟩ := except_bind_ok hprinted
  obtain ⟨size, hsize, hprinted⟩ := except_bind_ok hprinted
  obtain ⟨keys, hkeys, hprinted⟩ := except_bind_ok hprinted
  obtain ⟨duplicates, hduplicates, hprinted⟩ := except_bind_ok hprinted
  cases hprinted
  obtain ⟨s, hanswer⟩ := hcollected.chain
  have hchain : inputs.settings.chainId = chain.chainId :=
    (of_decide_eq_true hchainId).symm.trans (hclient.chainId s _ hanswer)
  have hrows := stored_rows hcollected hclient hchain hexamined
  have hlanded := stored_landed hcollected hclient hchain hexamined
  have hunique := eventKeys_count hkeys
  rw [hchain, ← distinct_events hrows, landed_events hlanded] at hunique
  have haccepted := hwritten.accepted
  have hinserted := hwritten.firstInserted
  rw [hremoved] at haccepted hinserted
  rw [hdelta, hremoved]
  refine ⟨(hcollected.logs_perm hclient).length_eq, hunique, ?_, stored_events hlanded haccepted⟩
  have hfirsts := firsts_length rowKey (examined.normalized.rows.map LogRow.toDict)
  have hdistinct : (examined.normalized.rows.map storedKey).dedup.length =
      (chain.eventsIn ⟨start, stop⟩).length := by
    rw [distinct_keys hrows, ← distinct_events hrows, landed_events hlanded]
  rw [List.map_map] at hfirsts
  exact hinserted.trans (hfirsts.trans hdistinct)

theorem smoke_report_counts_chain_deposit : ∃ result w',
    main depositProvider depositSmoke beforeSmoke = (.ok result, w') ∧
      result.firstInsertedRowCount = 1 ∧ CountsChain depositInBlockSeven
        ⟨result.intervalStartUtc, result.intervalEndUtc⟩ w'.delta result := by
  obtain ⟨result, w', hrun, hinserted, hchainId⟩ := depositSmoke_prints
  exact ⟨result, w', hrun, hinserted, smoke_report_counts_chain depositInBlockSeven depositProvider
    depositProvider_honest depositSmoke beforeSmoke w' result hrun hchainId rfl⟩

end EthereumLogs.SmokeValidation
