import EthereumLogs.Dbt.Checks
import EthereumLogs.Pipeline.Provider

namespace EthereumLogs.Pipeline
open Python Effect Duckdb Keyed LogNormalizer DeltaWriter Dbt Dag

variable {ρ ω : Type} {client : EthereumClient ρ} {vars : DbtVars} {w w' : World ρ Warehouse}
  {window : Window} {now : Instant} {rows : List LogRow} {flows : List TreasuryFlow}
  {transfers : List Erc20Transfer}

def WithinHour (interval : Interval Warehouse) (_ : ρ) : Prop :=
  ∀ t, interval.startUtc.instant ≤ t → t < interval.endUtc.instant →
    dateTruncHour t = dateTruncHour interval.startUtc.instant

theorem Timed.startHour_rows {time : ℕ → Instant} (h : Timed client time)
    {interval : Interval Warehouse} {s : ρ} {prepared : Prepared} (hwithin : WithinHour interval s)
    (hprepare : (prepareRows client interval s).1 = .ok prepared) :
    ∀ row ∈ prepared.normalized.rows,
      dateTruncHour row.blockTimestampUtc = dateTruncHour row.intervalStartUtc := by
  intro row hrow
  have hp := prepareRows_ok hprepare
  obtain ⟨rawLog, -, hnormal⟩ := forall₂_right hp.normalized hrow
  obtain ⟨hstart, hstop⟩ := h.rows hp row hrow
  rw [(normalizeLog_ok hnormal).2.1, hp.start]
  exact hwithin _ hstart hstop

theorem withinHour_aligned (h : AlignedHour window) {inputs : RunInputs} (s : ρ) :
    WithinHour (inputs.interval vars window.start window.stop) s := by
  have hstart : (inputs.interval vars window.start window.stop).startUtc.instant = window.start :=
    instant_utc _
  have hstop : (inputs.interval vars window.start window.stop).endUtc.instant = window.stop :=
    instant_utc _
  have hopen : dateTruncHour window.start = window.start := by
    rw [dateTruncHour_eq_iff h.aligned]
    simp [microsPerHour, microsPerSecond]
  intro t ht ht'
  rw [hstart] at ht ⊢
  rw [hstop] at ht'
  exact (h.contains_iff.mp ⟨ht, ht'⟩).trans hopen.symm

theorem Chain.row_timestamp {chain : Chain} {interval : Interval ω} {n : ℕ} {l : RawLog} {row : LogRow}
    (hl : l ∈ chain.logs n) (hrow : chain.row interval l = .ok row) :
    row.blockTimestampUtc = chain.time n := by
  obtain ⟨event, hevent, hblock⟩ := chain.wellFormed n l hl
  have hrowEvent := row_event hrow
  rw [Chain.event, Chain.timestamps, hevent] at hrowEvent
  cases hrowEvent
  have hstamp := (normalizeEvent_from hevent).timestamp
  rw [hblock] at hstamp
  simp only [blockTimestampOf, trueTimestamps, Int.natCast_nonneg, if_true, ensureUtc,
    astimezone_utc, BlockRange.timeAt, Int.toNat_natCast, Except.ok.injEq] at hstamp
  exact hstamp.symm

def flowsOfHours (window : Window) (flows : List TreasuryFlow) : List TreasuryFlow :=
  flows.filter fun flow => window.Contains flow.hourStartUtc

structure Reconciles (window : Window) (flows : List TreasuryFlow) (summary : QualitySummary) :
    Prop where
  flowRowCount : summary.flowRowCount = (flowsOfHours window flows).length
  transferCount : summary.transferCount =
    ((flowsOfHours window flows).map TreasuryFlow.transferCount).sum
  totalInflowRaw : summary.totalInflowRaw =
    totalOf .inflow TreasuryFlow.totalAmountRaw (flowsOfHours window flows)
  totalOutflowRaw : summary.totalOutflowRaw =
    totalOf .outflow TreasuryFlow.totalAmountRaw (flowsOfHours window flows)
  totalInflowUsdt : summary.totalInflowUsdt =
    totalOf .inflow TreasuryFlow.totalAmountUsdt (flowsOfHours window flows)
  totalOutflowUsdt : summary.totalOutflowUsdt =
    totalOf .outflow TreasuryFlow.totalAmountUsdt (flowsOfHours window flows)

def SourcedInHour (flow : TreasuryFlow) : Prop :=
  dateTruncHour flow.sourceIntervalStartUtc = flow.hourStartUtc

theorem sourced_window (h : AlignedHour window) (hflows : ∀ flow ∈ flows, SourcedInHour flow) :
    flowOfWindow window flows = flowsOfHours window flows := by
  apply List.filter_congr
  intro flow hflow
  have hhour : dateTruncHour flow.hourStartUtc = flow.hourStartUtc := by
    rw [← hflows flow hflow, dateTruncHour_eq_iff (dateTruncHour_mod _)]
    simp [microsPerHour, microsPerSecond]
  rw [decide_eq_decide, h.contains_iff, h.contains_iff, hhour, hflows flow hflow]

theorem summaryOf_reconciles (window : Window) (flows : List TreasuryFlow) {usdtDecimals : ℕ}
    (h : usdtDecimals ≤ 6) :
    Reconciles window flows (summaryOf usdtDecimals window (flowsOfHours window flows)) := by
  have hscale : commonScale usdtDecimals 6 = usdtDecimals := commonScale_of_le h (by decide)
  refine ⟨rfl, rfl, rfl, rfl, ?_, ?_⟩
  · simp only [summaryOf, hscale, castScale_same le_rfl]
  · simp only [summaryOf, hscale, castScale_same le_rfl]

theorem flowsOfHours_directions (h : FlowsContract vars flows) (haligned : AlignedHour window)
    (hflows : ∀ flow ∈ flows, SourcedInHour flow) :
    ((flowsOfHours window flows).map fun flow => flow.direction).Nodup := by
  have hkeys : ((flowsOfHours window flows).map TreasuryFlow.toFlowKey).Nodup :=
    h.uniqueKeys.sublist (List.filter_sublist.map _)
  have hbase : ∀ key ∈ (flowsOfHours window flows).map TreasuryFlow.toFlowKey, key =
      ⟨1, lower vars.usdtContractAddress, lower vars.tetherTreasuryAddress, window.start,
        key.direction⟩ := by
    intro key hkey
    obtain ⟨flow, hflow, rfl⟩ := List.mem_map.mp hkey
    obtain ⟨hmem, hinside⟩ := List.mem_filter.mp hflow
    obtain ⟨⟨hcontract, htreasury⟩, hmainnet, -⟩ := h.flows flow hmem
    have hhour : flow.hourStartUtc = window.start := by
      have htrunc := haligned.contains_iff.mp (of_decide_eq_true hinside)
      rw [← hflows flow hmem] at htrunc ⊢
      rwa [(dateTruncHour_eq_iff (dateTruncHour_mod _)).mpr] at htrunc
      simp [microsPerHour, microsPerSecond]
    rw [FlowKey.mk.injEq]
    exact ⟨hmainnet, hcontract, htreasury, hhour, rfl⟩
  have hdirections := directions_nodup hkeys hbase
  rw [List.map_map] at hdirections
  exact hdirections

theorem qualitySummary_hour (h : FlowsContract vars flows) (haligned : AlignedHour window)
    (hsourced : ∀ flow ∈ flows, SourcedInHour flow)
    (hfits : ∀ flow ∈ flows, FlowFits vars.usdtDecimals flow) :
    tetherTreasuryFlowQualitySummary vars.usdtDecimals window flows =
      some (summaryOf vars.usdtDecimals window (flowsOfHours window flows)) := by
  rw [tetherTreasuryFlowQualitySummary, sourced_window haligned hsourced]
  refine summarize_single (flowsOfHours_directions h haligned hsourced) ?_ ?_
  · exact fun flow hflow => hfits flow (List.mem_of_mem_filter hflow)
  · exact fun flow hflow => (h.flows flow (List.mem_of_mem_filter hflow)).usdtNonneg

theorem minIntervalStart_mem (h : transfers ≠ []) :
    ∃ t ∈ transfers, minIntervalStart transfers = t.intervalStartUtc := by
  cases hmin : (transfers.map Erc20Transfer.intervalStartUtc).min? with
  | none =>
    rw [List.min?_eq_none_iff, List.map_eq_nil_iff] at hmin
    exact absurd hmin h
  | some m =>
    obtain ⟨t, ht, hm⟩ := List.mem_map.mp (List.min?_mem hmin)
    exact ⟨t, ht, by rw [minIntervalStart, hmin, hm]; rfl⟩

theorem aggregated_sourced {flow : TreasuryFlow}
    (hrows : ∀ t ∈ transfers,
      dateTruncHour t.blockTimestampUtc = dateTruncHour t.intervalStartUtc)
    (hflow : flow ∈ tetherTreasuryFlow vars window now transfers) : SourcedInHour flow := by
  obtain ⟨-, hinhabited, now', htotals⟩ := tetherTreasuryFlow_from hflow
  obtain ⟨t, ht, hmin⟩ := minIntervalStart_mem hinhabited
  obtain ⟨hmem, hbelongs⟩ := List.mem_filter.mp (List.mem_filter.mp ht).1
  have hsource : flow.sourceIntervalStartUtc = t.intervalStartUtc := by
    rw [← hmin]
    exact congrArg TreasuryFlow.sourceIntervalStartUtc htotals
  rw [SourcedInHour, hsource, ← hrows t hmem]
  exact (of_decide_eq_true hbelongs).2.2.1

def HourRows (raw : List LogRow) : Prop :=
  ∀ row ∈ raw, dateTruncHour row.blockTimestampUtc = dateTruncHour row.intervalStartUtc

theorem HourRows.accepted {time : ℕ → Instant} {table : Option DeltaTable} {faults : StoreFaults}
    {interval : Interval Warehouse} {s : ρ} {prepared : Prepared} {stored : List LogRow}
    (h : HourRows (storedRows table)) (hclient : Timed client time) (hwithin : WithinHour interval s)
    (hprepare : (prepareRows client interval s).1 = .ok prepared)
    (haccepted : Accepted faults prepared.rows table stored) : HourRows stored := by
  intro row hrow
  rcases mem_ingest haccepted.ingested hrow with hold | ⟨input, hinput, hconvert⟩
  · exact h row hold
  · obtain ⟨r, hr, rfl⟩ := List.mem_map.mp hinput
    rw [arrowRow_toDict hconvert]
    exact hclient.startHour_rows hwithin hprepare r hr

structure StartHourInvariant (vars : DbtVars) (w : World ρ Warehouse) : Prop extends
    SilverInvariant vars (lakehouse w) where
  stored : HourRows (storedRows w.delta)
  sourced : ∀ flow ∈ w.warehouse.flows, SourcedInHour flow
  fits : ∀ flow ∈ w.warehouse.flows, FlowFits vars.usdtDecimals flow

theorem sound_startHour {raw : List LogRow} (h : Sound vars raw transfers)
    (hraw : HourRows raw) : ∀ t ∈ transfers, dateTruncHour t.blockTimestampUtc = dateTruncHour t.intervalStartUtc := by
  intro t ht
  obtain ⟨row, hrow, -, hdecoded⟩ := h.decoded t ht
  have hfrom := transferOf_from hdecoded
  rw [hfrom.timestamp, hfrom.intervalStart]
  exact hraw row hrow

theorem RunEffect.startHour {time : ℕ → Instant} (hclient : Timed client time)
    (h : RunEffect client vars WithinHour window now rows w w')
    (hw : StartHourInvariant vars w) : StartHourInvariant vars w' := by
  have hbase := h.invariant hw.toSilverInvariant
  have hstored : HourRows (storedRows w'.delta) := by
    obtain ⟨inputs, s, hwithin, prepared, hprepare, rfl⟩ := h.fetched
    obtain ⟨faults, haccepted⟩ := h.accepted
    exact hw.stored.accepted hclient hwithin hprepare haccepted
  have hsums : flowSumsFit vars window w'.warehouse.transfers = true := by
    rw [h.warehouse]
    exact h.passed.sums
  refine ⟨hbase, hstored, ?_, ?_⟩
  · rw [h.flows]
    exact replace_forall _ (fun _ hnew =>
      aggregated_sourced (sound_startHour hbase.sound hstored) hnew) hw.sourced
  · rw [h.flows]
    exact replace_forall _ (fun _ hnew => flowSumsFit_fits hsums hnew) hw.fits

theorem Reachable.startHour {time : ℕ → Instant} (hclient : Timed client time) {rpc : ρ}
    (h : Reachable client vars WithinHour rpc w) : StartHourInvariant vars w := by
  induction h with
  | refl =>
    exact ⟨.empty vars, by simp [HourRows, Pipeline.fresh, storedRows],
      by simp [Pipeline.fresh, Warehouse.empty, Warehouse.flows],
      by simp [Pipeline.fresh, Warehouse.empty, Warehouse.flows]⟩
  | tail _ hstep ih =>
    obtain ⟨window, now, rows, heffect⟩ := hstep.effect
    exact heffect.startHour hclient ih

theorem RunEffect.summary {time : ℕ → Instant} (hclient : Timed client time)
    (h : RunEffect client vars WithinHour window now rows w w') (haligned : AlignedHour window)
    (hw : StartHourInvariant vars w) :
    w'.warehouse.qualitySummary vars.usdtDecimals = some (summaryOf vars.usdtDecimals window
      (flowsOfHours window w'.warehouse.flows)) := by
  have hinvariant := h.startHour hclient hw
  have htested := tetherTreasuryFlowTests_iff.mp h.passed.goldTested
  have hshown : w'.warehouse.qualitySummaryWindow = some window := by
    rw [h.warehouse]
    rfl
  rw [Warehouse.qualitySummary, hshown, Option.bind_some]
  exact qualitySummary_hour htested haligned hinvariant.sourced hinvariant.fits

theorem qualitySummary_reconciles (client : EthereumClient ρ) (time : ℕ → Instant)
    (hclient : Timed client time) (vars : DbtVars) (hdecimals : vars.usdtDecimals ≤ 6) (rpc : ρ)
    (w : World ρ Warehouse) (h : Reachable client vars WithinHour rpc w) (inputs : RunInputs)
    (start stop : Instant) (s : ρ)
    (hok : (runInterval client (inputs.interval vars start stop) { w with rpc := s }).1.isOk = true)
    (haligned : AlignedHour ⟨start, stop⟩) :
    let after := (runInterval client (inputs.interval vars start stop) { w with rpc := s }).2.warehouse
    ∃ summary, after.qualitySummary vars.usdtDecimals = some summary ∧
      Reconciles ⟨start, stop⟩ after.flows summary := by
  obtain ⟨rows, heffect⟩ : ∃ rows, RunEffect client vars WithinHour ⟨start, stop⟩ inputs.process.now
      rows w _ := runInterval_effect (withinHour_aligned haligned s) hok
  exact ⟨_, heffect.summary hclient haligned (Reachable.startHour hclient h),
    summaryOf_reconciles _ _ hdecimals⟩

theorem qualitySummary_reconciles_deposit :
    (plainRun depositProvider 60 (fresh ())).2.warehouse.flows.length = 1 ∧
      ∃ summary, (plainRun depositProvider 60 (fresh ())).2.warehouse.qualitySummary 6 =
          some summary ∧
        Reconciles ⟨minutes 60, minutes 120⟩
          (plainRun depositProvider 60 (fresh ())).2.warehouse.flows summary := by
  have hrun : (plainRun depositProvider 60 (fresh ())).1.isOk = true ∧
      (plainRun depositProvider 60 (fresh ())).2.warehouse.flows.length = 1 := by
    decide +kernel
  obtain ⟨hok, hflows⟩ := hrun
  exact ⟨hflows, qualitySummary_reconciles depositProvider everyTenMinutes
    depositProvider_honest.timed projectVars (by decide) () (fresh ()) .refl plainInputs (minutes 60)
    (minutes 120) () hok ⟨by decide, by decide⟩⟩

def afterHalfHour : World Unit Warehouse := afterRun (depositsIn [7]) 30 (fresh ())

def afterFullHour : World Unit Warehouse := afterRun (depositsIn [7]) 60 afterHalfHour

theorem qualitySummary_diverges : AlignedHour ⟨minutes 60, minutes 120⟩ ∧
    Reachable (depositsIn [7]) projectVars AdmittedHour () afterHalfHour ∧
    SuccessfulRun (depositsIn [7]) projectVars AdmittedHour afterHalfHour afterFullHour ∧
    ∀ summary, afterFullHour.warehouse.qualitySummary 6 = some summary →
      ¬ Reconciles ⟨minutes 60, minutes 120⟩ afterFullHour.warehouse.flows summary := by
  have hruns : (plainRun (depositsIn [7]) 30 (fresh ())).1.isOk = true ∧
      (plainRun (depositsIn [7]) 60 afterHalfHour).1.isOk = true ∧
      (afterFullHour.warehouse.qualitySummary 6).map QualitySummary.flowRowCount = some 0 ∧
      (flowsOfHours ⟨minutes 60, minutes 120⟩ afterFullHour.warehouse.flows).length = 1 := by
    decide +kernel
  obtain ⟨hfirst, hsecond, hmissing, hflows⟩ := hruns
  refine ⟨⟨by decide, by decide⟩, ?_, ?_, ?_⟩
  · exact .single (plainRun_step ⟨"DAG run conf", by decide⟩ hfirst)
  · exact plainRun_step ⟨"Airflow data interval", by decide⟩ hsecond
  · intro summary hsummary h
    rw [hsummary, Option.map_some, Option.some.injEq] at hmissing
    have hcount := h.flowRowCount
    rw [hmissing, hflows] at hcount
    cases hcount

end EthereumLogs.Pipeline
