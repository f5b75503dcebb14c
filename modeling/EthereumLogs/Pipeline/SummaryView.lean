import EthereumLogs.Pipeline.Metrics

namespace EthereumLogs.Dbt
open Python Duckdb Grouping Keyed LogNormalizer

variable {vars : DbtVars} {window : Window} {raw : List LogRow} {w w' : Warehouse}
  {transfers : List Erc20Transfer} {transfer : Erc20Transfer} {key : FlowKey}

theorem Progress.shown (h : Progress vars window raw w w') :
    w'.qualitySummaryWindow = w.qualitySummaryWindow ∨
      w'.qualitySummaryWindow = some window ∧ ∃ now, Refilled vars window raw now w w' := by
  cases h with
  | untouched => exact .inl rfl
  | silver => exact .inl rfl
  | gold now => exact .inl rfl
  | complete now htested => exact .inr ⟨rfl, now, rfl, rfl, htested.silver, htested.sums⟩

def directionCount (inflow outflow : List Erc20Transfer) : ℕ :=
  (if inflow.isEmpty then 0 else 1) + (if outflow.isEmpty then 0 else 1)

theorem length_directions {directions : List Direction} (h : directions.Nodup) :
    directions.length = (if .inflow ∈ directions then 1 else 0) +
      (if .outflow ∈ directions then 1 else 0) := by
  have hcount : directions.length = directions.count .inflow + directions.count .outflow := by
    induction directions with
    | nil => rfl
    | cons direction directions ih =>
      have hrest := ih (List.nodup_cons.mp h).2
      cases direction with
      | inflow =>
        simp only [List.length_cons, List.count_cons_self, List.count_cons_of_ne (by decide :
          Direction.inflow ≠ .outflow), hrest]
        omega
      | outflow =>
        simp only [List.length_cons, List.count_cons_self, List.count_cons_of_ne (by decide :
          Direction.outflow ≠ .inflow), hrest]
        omega
  rw [hcount, h.count, h.count]

theorem keys_directions (haligned : AlignedHour window) {chainId : Int}
    (htreasury : ∀ t ∈ transfers, IsTreasuryTransfer vars t)
    (hinside : ∀ t ∈ transfers, window.Contains t.blockTimestampUtc)
    (hchain : ∀ t ∈ transfers, t.chainId = chainId) :
    ((keysOf (classify vars) transfers).map FlowKey.direction).Nodup := by
  have hkeys : ∀ key ∈ keysOf (classify vars) transfers, key = ⟨chainId,
      lower vars.usdtContractAddress, lower vars.tetherTreasuryAddress, window.start,
        key.direction⟩ := by
    intro key hkey
    obtain ⟨t, ht, hclass⟩ := mem_keysOf.mp hkey
    obtain ⟨direction, -, rfl⟩ := Option.map_eq_some_iff.mp hclass
    rw [FlowKey.mk.injEq]
    exact ⟨hchain t ht, (htreasury t ht).1, rfl, haligned.contains_iff.mp (hinside t ht), rfl⟩
  exact directions_nodup (List.nodup_dedup _) hkeys

theorem mem_directions (htreasury : ∀ t ∈ transfers, IsTreasuryTransfer vars t)
    {direction : Direction} {P : Erc20Transfer → Prop} [DecidablePred P]
    (hdirected : ∀ t key, Directed (lower vars.tetherTreasuryAddress) t key →
      (key.direction = direction ↔ P t)) :
    direction ∈ (keysOf (classify vars) transfers).map FlowKey.direction ↔
      transfers.filter (fun t => P t) ≠ [] := by
  rw [List.mem_map]
  constructor
  · rintro ⟨key, hkey, hdirection⟩
    obtain ⟨t, ht, hclass⟩ := mem_keysOf.mp hkey
    obtain ⟨key', hclass', hside⟩ := (htreasury t ht).classified
    cases hclass.symm.trans hclass'
    exact List.ne_nil_of_mem (List.mem_filter.mpr
      ⟨ht, decide_eq_true ((hdirected t key hside).mp hdirection)⟩)
  · intro hne
    obtain ⟨t, ht⟩ := List.exists_mem_of_ne_nil _ hne
    obtain ⟨hmem, hP⟩ := List.mem_filter.mp ht
    obtain ⟨key, hclass, hside⟩ := (htreasury t hmem).classified
    exact ⟨key, mem_keysOf.mpr ⟨t, hmem, hclass⟩,
      (hdirected t key hside).mpr (of_decide_eq_true hP)⟩

end EthereumLogs.Dbt

namespace EthereumLogs.Pipeline
open Python Duckdb Effect Grouping Keyed LogNormalizer DeltaWriter Dbt

variable {ρ : Type} {client : EthereumClient ρ} {vars : DbtVars} {chain : Chain}
  {committed : List (Interval Warehouse)} {window : Window} {w w' : World ρ Warehouse}
  {attempt : Attempt ρ} {done : Bool}

namespace Chain

def treasuryIn (chain : Chain) (vars : DbtVars) (window : Window) : List Erc20Transfer :=
  (chain.transfersIn vars window).filter fun t => IsTreasuryTransfer vars t

theorem mem_treasuryIn {transfer : Erc20Transfer} : transfer ∈ chain.treasuryIn vars window ↔
    transfer ∈ chain.transfersIn vars window ∧ IsTreasuryTransfer vars transfer := by
  rw [treasuryIn, List.mem_filter, decide_eq_true_eq]

-- the view's USDT column keeps at most six fraction digits
def summaryIn (chain : Chain) (vars : DbtVars) (window : Window) : QualitySummary :=
  let treasury := chain.treasuryIn vars window
  let inflow := treasury.filter fun t => t.toAddress = lower vars.tetherTreasuryAddress
  let outflow := treasury.filter fun t => t.fromAddress = lower vars.tetherTreasuryAddress
  { windowStartUtc := window.start
    windowEndUtc := window.stop
    flowRowCount := directionCount inflow outflow
    transferCount := treasury.length
    directionCount := directionCount inflow outflow
    firstHourStartUtc := if treasury.isEmpty then none else some window.start
    lastHourStartUtc := if treasury.isEmpty then none else some window.start
    totalInflowRaw := sumRaw inflow
    totalOutflowRaw := sumRaw outflow
    totalInflowUsdt := castScale vars.usdtDecimals (commonScale vars.usdtDecimals 6) (sumUsdt inflow)
    totalOutflowUsdt := castScale vars.usdtDecimals (commonScale vars.usdtDecimals 6)
      (sumUsdt outflow) }

theorem transfersIn_chainId {transfer : Erc20Transfer} (h : transfer ∈ chain.transfersIn vars window) :
    transfer.chainId = chain.chainId := by
  obtain ⟨event, hevent, hdecoded⟩ := List.mem_filterMap.mp h
  obtain ⟨n, l, hl, -, hok⟩ := mem_eventsIn.mp hevent
  have hkey : transfer.chainId = event.chainId :=
    congrArg Prod.fst (eventsIn_transferKey hevent hdecoded)
  rw [hkey, (normalizeEvent_from hok).sameChain]

theorem flowsIn_keys (chain : Chain) (vars : DbtVars) (window : Window) :
    (chain.flowsIn vars window).map Prod.fst =
      keysOf (classify vars) (chain.treasuryIn vars window) := by
  rw [treasuryIn, ← treasuryTransfers_inside fun t ht => transfersIn_contains ht, flowsIn,
    tetherTreasuryFlow, groupBy, List.map_map, List.map_map, List.map_map]
  exact List.map_id _

end Chain

section Summary

variable {flows : List TreasuryFlow} (haligned : AlignedHour window)
  (hgold : (flows.map flowTotals).Perm (chain.flowsIn vars window))
include hgold

theorem keys_of_gold : (flows.map TreasuryFlow.toFlowKey).Perm
    (keysOf (classify vars) (chain.treasuryIn vars window)) := by
  have hkeys := hgold.map Prod.fst
  rw [List.map_map, Chain.flowsIn_keys] at hkeys
  exact hkeys

theorem empty_of_gold : flows.length = 0 ↔ (chain.treasuryIn vars window).isEmpty = true := by
  have hlength := (keys_of_gold hgold).length_eq
  rw [List.length_map] at hlength
  rw [hlength, List.length_eq_zero_iff, List.isEmpty_iff]
  constructor
  · intro hnil
    by_contra hne
    obtain ⟨t, ht⟩ := List.exists_mem_of_ne_nil _ hne
    obtain ⟨key, hclass, -⟩ := (Chain.mem_treasuryIn.mp ht).2.classified
    have hkey := mem_keysOf.mpr ⟨t, ht, hclass⟩
    rw [hnil] at hkey
    cases hkey
  · intro hnil
    rw [hnil]
    rfl

theorem directions_of_gold : (flows.map fun flow => flow.direction).Perm
    ((keysOf (classify vars) (chain.treasuryIn vars window)).map FlowKey.direction) := by
  have hdirections := (keys_of_gold hgold).map FlowKey.direction
  rw [List.map_map] at hdirections
  exact hdirections

include haligned

theorem directions_nodup_of_gold : (flows.map fun flow => flow.direction).Nodup := by
  rw [(directions_of_gold hgold).nodup_iff]
  exact keys_directions haligned (fun t ht => (Chain.mem_treasuryIn.mp ht).2)
    (fun t ht => Chain.transfersIn_contains (Chain.mem_treasuryIn.mp ht).1)
    (fun t ht => Chain.transfersIn_chainId (Chain.mem_treasuryIn.mp ht).1)

theorem length_of_gold : flows.length = directionCount
    ((chain.treasuryIn vars window).filter fun t => t.toAddress = lower vars.tetherTreasuryAddress)
    ((chain.treasuryIn vars window).filter
      fun t => t.fromAddress = lower vars.tetherTreasuryAddress) := by
  have htreasury : ∀ t ∈ chain.treasuryIn vars window, IsTreasuryTransfer vars t :=
    fun t ht => (Chain.mem_treasuryIn.mp ht).2
  have hinflow := mem_directions htreasury fun _ _ hkey => hkey.inflow
  have houtflow := mem_directions htreasury fun _ _ hkey => hkey.outflow
  have hlength := length_directions (directions_nodup_of_gold haligned hgold)
  rw [List.length_map] at hlength
  simp only [hlength, (directions_of_gold hgold).mem_iff, hinflow, houtflow, directionCount,
    List.isEmpty_iff, ite_not]

theorem summaryOf_of_gold (hhour : ∀ flow ∈ flows, flow.hourStartUtc = window.start) :
    summaryOf vars.usdtDecimals window flows = chain.summaryIn vars window := by
  have hover : (flows.map flowTotals).Perm (chain.flowsOver vars [window.start]) := by
    rw [Chain.flowsOver, List.flatMap_singleton, haligned.hourWindow_eq]
    exact hgold
  have htreasury : (chain.transfersOver vars [window.start]).filter
      (fun t => IsTreasuryTransfer vars t) = chain.treasuryIn vars window := by
    rw [Chain.transfersOver, List.flatMap_singleton, haligned.hourWindow_eq, Chain.treasuryIn]
  have hcount := transferCount_over hover
  have hhours : flows.map (fun flow => flow.hourStartUtc) =
      List.replicate flows.length window.start :=
    List.eq_replicate_iff.mpr ⟨List.length_map _, by simpa using hhour⟩
  have hempty := empty_of_gold hgold
  rw [htreasury] at hcount
  rw [summaryOf, Chain.summaryIn, QualitySummary.mk.injEq]
  refine ⟨rfl, rfl, length_of_gold haligned hgold, hcount, ?_, ?_, ?_, ?_, ?_, ?_, ?_⟩
  · rw [(directions_nodup_of_gold haligned hgold).dedup, List.length_map]
    exact length_of_gold haligned hgold
  · rw [hhours, List.min?_replicate]
    simp only [hempty]
  · rw [hhours, List.max?_replicate]
    simp only [hempty]
  · rw [← htreasury]
    exact totalRaw_over hover fun _ _ hkey => hkey.inflow
  · rw [← htreasury]
    exact totalRaw_over hover fun _ _ hkey => hkey.outflow
  · rw [← htreasury, totalUsdt_over hover fun _ _ hkey => hkey.inflow]
  · rw [← htreasury, totalUsdt_over hover fun _ _ hkey => hkey.outflow]

end Summary

theorem summaryFits_hour {table : Option DeltaTable} {warehouse : Warehouse}
    (h : TablesContract vars table warehouse) (haligned : AlignedHour window)
    (hrows : HourRows (storedRows table)) (hsourced : ∀ flow ∈ warehouse.flows, SourcedInHour flow)
    (hfits : ∀ flow ∈ warehouse.flows, FlowFits vars.usdtDecimals flow)
    (htotals : TotalsFit vars window ((storedRows table).filterMap (transferOf vars))) (now : Instant) :
    SummaryFits vars.usdtDecimals window
      (built vars now window (storedRows table) warehouse).flows := by
  have hgold := h.refreshed now window
  have hshown := qualitySummary_hour hgold haligned
    (replace_forall _ (fun _ hnew => aggregated_sourced (sound_startHour (h.rebuilt window) hrows) hnew)
      hsourced)
    (replace_forall _ (fun _ hnew => flowSumsFit_fits (h.sums_iff.mpr htotals) hnew) hfits)
  rw [← qualitySummary_isSome_iff (fun flow hflow => (hgold.flows flow hflow).rawNonneg)
    (fun flow hflow => (hgold.flows flow hflow).usdtNonneg), hshown]
  rfl

theorem AttemptEffect.hourRows (hclient : Honest client chain) (haligned : AlignedHour attempt.window)
    (h : AttemptEffect client vars attempt w done w') (hw : HourRows (storedRows w.delta)) :
    HourRows (storedRows w'.delta) := by
  cases h with
  | stopped s => exact hw
  | committed s warehouse prepared stored done hprepare haccepted hprogress hdone =>
    exact hw.accepted hclient.timed (withinHour_aligned haligned attempt.rpc) hprepare haccepted

theorem AttemptEffect.shown (h : AttemptEffect client vars attempt w done w') :
    w'.warehouse.qualitySummaryWindow = w.warehouse.qualitySummaryWindow ∨
      w'.warehouse.qualitySummaryWindow = some attempt.window ∧
        AttemptEffect client vars attempt w true w' := by
  cases h with
  | stopped s => exact .inl rfl
  | committed s warehouse prepared stored done hprepare haccepted hprogress hdone =>
    rcases hprogress.shown with hsame | ⟨hshown, hrefilled⟩
    · exact .inl hsame
    · exact .inr ⟨hshown, .committed s warehouse prepared stored true hprepare haccepted hprogress
        fun _ => hrefilled⟩

structure Shown (vars : DbtVars) (committed : List (Interval Warehouse)) (window : Window)
    (w : World ρ Warehouse) : Prop extends Serves vars committed window w where
  aligned : AlignedHour window
  filled : Filled vars window w.warehouse

structure SummaryInvariant (chain : Chain) (vars : DbtVars) (committed : List (Interval Warehouse))
    (w : World ρ Warehouse) : Prop extends GoldInvariant chain vars committed w where
  hourRows : HourRows (storedRows w.delta)
  sourced : ∀ flow ∈ w.warehouse.flows, SourcedInHour flow
  fits : ∀ flow ∈ w.warehouse.flows, FlowFits vars.usdtDecimals flow
  shown : ∀ window, w.warehouse.qualitySummaryWindow = some window → Shown vars committed window w

theorem AttemptAdvances.sourced {committed' : List (Interval Warehouse)}
    (h : AttemptAdvances chain vars committed committed' window done w w')
    (hrows : HourRows (storedRows w'.delta)) (hw : ∀ flow ∈ w.warehouse.flows, SourcedInHour flow) :
    ∀ flow ∈ w'.warehouse.flows, SourcedInHour flow := by
  rcases h.flows with hsame | hrefreshed
  · rw [hsame]
    exact hw
  · obtain ⟨now, hflows⟩ := hrefreshed.flows
    rw [hflows]
    exact replace_forall _ (fun _ hnew =>
      aggregated_sourced (sound_startHour h.invariant.sound hrows) hnew) hw

theorem AttemptEffect.fits (h : AttemptEffect client vars attempt w done w')
    (hw : ∀ flow ∈ w.warehouse.flows, FlowFits vars.usdtDecimals flow) :
    ∀ flow ∈ w'.warehouse.flows, FlowFits vars.usdtDecimals flow := by
  cases h with
  | stopped s => exact hw
  | committed s warehouse prepared stored done hprepare haccepted hprogress hdone =>
    rcases hprogress.flows with hsame | ⟨now, hrefilled⟩
    · rw [hsame]
      exact hw
    · rw [hrefilled.flows]
      exact replace_forall _ (fun _ hnew => flowSumsFit_fits hrefilled.sums hnew) hw

theorem Shown.advances {committed' : List (Interval Warehouse)} (h : Shown vars committed window w)
    (hw : ChainInvariant chain vars committed w)
    (hadvance : Advances chain vars committed committed' w w') : Shown vars committed' window w' :=
  ⟨hadvance.serves window h.toServes, h.aligned, hadvance.filled hw h.toServes h.aligned h.filled⟩

theorem AttemptEffect.summary (hclient : Honest client chain) (haligned : AlignedHour attempt.window)
    (h : AttemptEffect client vars attempt w done w') (hw : SummaryInvariant chain vars committed w) :
    ∃ committed', SummaryInvariant chain vars committed' w' := by
  have hrows := h.hourRows hclient haligned hw.hourRows
  have hfits := h.fits hw.fits
  rcases h.shown with hsame | ⟨hshown, heffect⟩
  · obtain ⟨committed', hadvance⟩ := h.advances hclient hw.toChainInvariant
    refine ⟨committed', hadvance.gold haligned hw.toGoldInvariant, hrows,
      hadvance.sourced hrows hw.sourced, hfits, fun window hwindow => ?_⟩
    rw [hsame] at hwindow
    exact (hw.shown window hwindow).advances hw.toChainInvariant hadvance.toAdvances
  · obtain ⟨committed', hadvance⟩ := heffect.advances hclient hw.toChainInvariant
    refine ⟨committed', hadvance.gold haligned hw.toGoldInvariant, hrows,
      hadvance.sourced hrows hw.sourced, hfits, fun window hwindow => ?_⟩
    rw [hshown, Option.some.injEq] at hwindow
    subst hwindow
    have hrefreshed := hadvance.completed rfl
    exact ⟨hrefreshed.toServes, haligned, hrefreshed.filled haligned⟩

theorem SummaryInvariant.fresh (chain : Chain) (vars : DbtVars) (rpc : ρ) :
    SummaryInvariant chain vars [] (fresh rpc) := by
  refine ⟨.fresh chain vars rpc, ?_, ?_, ?_, ?_⟩
  · simp [HourRows, Pipeline.fresh, storedRows]
  · simp [Pipeline.fresh, Warehouse.empty, Warehouse.flows]
  · simp [Pipeline.fresh, Warehouse.empty, Warehouse.flows]
  · simp [Pipeline.fresh, Warehouse.empty]

theorem afterHours_summary (hclient : Honest client chain) (attempts : List (HourlyAttempt ρ))
    (h : SummaryInvariant chain vars committed w) : ∃ committed',
      SummaryInvariant chain vars committed' (afterHours client vars attempts w) := by
  induction attempts generalizing committed w with
  | nil => exact ⟨committed, h⟩
  | cons attempt attempts ih =>
    obtain ⟨_, hattempt⟩ :=
      (attempt_effect client vars attempt.toAttempt w).summary hclient attempt.hourly h
    exact ih hattempt

theorem SummaryInvariant.summary (h : SummaryInvariant chain vars committed w)
    (hshown : w.warehouse.qualitySummaryWindow = some window) :
    w.warehouse.qualitySummary vars.usdtDecimals = some (chain.summaryIn vars window) := by
  have hwindow := h.shown window hshown
  have haligned := hwindow.aligned
  have hsame : flowOfWindow window w.warehouse.flows =
      w.warehouse.flows.filter fun flow => flow.hourStartUtc = window.start := by
    apply List.filter_congr
    intro flow hflow
    rw [decide_eq_decide, haligned.contains_iff, h.sourced flow hflow]
  have hgold := h.toGoldInvariant.complete hwindow.toServes haligned hwindow.filled
  rw [Warehouse.qualitySummary, hshown, Option.bind_some, tetherTreasuryFlowQualitySummary, hsame,
    summarize_single (directions_nodup_of_gold haligned hgold)]
  · exact congrArg some (summaryOf_of_gold haligned hgold fun flow hflow =>
      of_decide_eq_true (List.mem_filter.mp hflow).2)
  · exact fun flow hflow => h.fits flow (List.mem_of_mem_filter hflow)
  · exact fun flow hflow => h.usdtNonneg flow (List.mem_of_mem_filter hflow)

theorem afterHours_shown (attempts : List (HourlyAttempt ρ)) (w : World ρ Warehouse) :
    (afterHours client vars attempts w).warehouse.qualitySummaryWindow =
        w.warehouse.qualitySummaryWindow ∨
      ∃ attempt ∈ attempts, (afterHours client vars attempts w).warehouse.qualitySummaryWindow =
        some attempt.window := by
  induction attempts generalizing w with
  | nil => exact .inl rfl
  | cons attempt attempts ih =>
    rcases ih (attempt.run client vars w).2 with hsame | ⟨later, hlater, hshown⟩
    · rcases (attempt_effect client vars attempt.toAttempt w).shown with hkept | ⟨hshown, -⟩
      · exact .inl (hsame.trans hkept)
      · exact .inr ⟨attempt, List.mem_cons_self, hsame.trans hshown⟩
    · exact .inr ⟨later, List.mem_cons_of_mem _ hlater, hshown⟩

theorem completes_shown (hdone : completes client vars attempt w = true) :
    (attempt.run client vars w).2.warehouse.qualitySummaryWindow = some attempt.window := by
  have heffect : ∃ rows, RunEffect client vars (fun _ _ => True) attempt.window attempt.process.now
      rows w (attempt.run client vars w).2 := runInterval_effect trivial hdone
  obtain ⟨rows, heffect⟩ := heffect
  rw [heffect.warehouse]
  rfl

theorem quality_summary_tells_chain (chain : Chain) (client : EthereumClient ρ)
    (hclient : Honest client chain) (vars : DbtVars) (rpc : ρ) :
    (∀ attempts : List (HourlyAttempt ρ),
      (afterHours client vars attempts (fresh rpc)).warehouse.qualitySummaryWindow ≠ none →
      ∃ shown ∈ attempts, (afterHours client vars attempts (fresh rpc)).warehouse.qualitySummary
        vars.usdtDecimals = some (chain.summaryIn vars shown.window)) ∧
    ∀ (before after : List (HourlyAttempt ρ)) (attempt : HourlyAttempt ρ),
      completes client vars attempt.toAttempt (afterHours client vars before (fresh rpc)) = true →
      ∃ shown ∈ attempt :: after, (afterHours client vars (before ++ attempt :: after)
        (fresh rpc)).warehouse.qualitySummary vars.usdtDecimals =
          some (chain.summaryIn vars shown.window) := by
  constructor
  · intro attempts hexists
    obtain ⟨_, hinvariant⟩ := afterHours_summary hclient attempts (SummaryInvariant.fresh chain vars rpc)
    rcases afterHours_shown attempts (fresh rpc) with hempty | ⟨attempt, hattempt, hshown⟩
    · exact absurd hempty hexists
    · exact ⟨attempt, hattempt, hinvariant.summary hshown⟩
  · intro before after attempt hdone
    obtain ⟨_, hinvariant⟩ := afterHours_summary hclient (before ++ attempt :: after)
      (SummaryInvariant.fresh chain vars rpc)
    have hcompleted := completes_shown hdone
    rw [afterHours_split] at hinvariant ⊢
    rcases afterHours_shown after (attempt.run client vars
      (afterHours client vars before (fresh rpc))).2 with hkept | ⟨later, hlater, hshown⟩
    · exact ⟨attempt, List.mem_cons_self, hinvariant.summary (hkept.trans hcompleted)⟩
    · exact ⟨later, List.mem_cons_of_mem _ hlater, hinvariant.summary hshown⟩

theorem quality_summary_tells_chain_deposit :
    depositInBlockSeven.summaryIn projectVars ⟨minutes 60, minutes 120⟩ =
        ⟨minutes 60, minutes 120, 1, 1, 1, some (minutes 60), some (minutes 60), 1000000, 0, 1, 0⟩ ∧
      (afterHours depositProvider projectVars ([depositHour (· = .erc20Transfers)] ++
          depositHour (fun _ => false) :: [depositHour (· = .tetherTreasuryFlowQualitySummary)])
          (fresh ())).warehouse.qualitySummary 6 =
        some (depositInBlockSeven.summaryIn projectVars ⟨minutes 60, minutes 120⟩) := by
  refine ⟨by decide +kernel, ?_⟩
  obtain ⟨shown, hshown, hsummary⟩ := (quality_summary_tells_chain depositInBlockSeven depositProvider
    depositProvider_honest projectVars ()).2 [depositHour (· = .erc20Transfers)]
    [depositHour (· = .tetherTreasuryFlowQualitySummary)] (depositHour fun _ => false)
    depositAttempt_completes.1
  refine hsummary.trans ?_
  simp only [List.mem_cons, List.not_mem_nil, or_false] at hshown
  rcases hshown with rfl | rfl
  · rfl
  · rfl

end EthereumLogs.Pipeline
