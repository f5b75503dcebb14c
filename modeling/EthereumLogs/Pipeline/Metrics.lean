import EthereumLogs.Dbt.Balance
import EthereumLogs.Pipeline.BuildGate
import EthereumLogs.Pipeline.ChainFlows
import EthereumLogs.QualityChecks

namespace EthereumLogs.Dbt
open Python Grouping Keyed LogNormalizer

variable {vars : DbtVars} {window : Window} {raw : List LogRow} {transfers : List Erc20Transfer}
  {transfer : Erc20Transfer} {w w' : Warehouse} {now : Instant} {key : FlowKey}

structure Warehouse.Created (warehouse : Warehouse) : Prop where
  silver : ∃ transfers, warehouse.erc20Transfers = some transfers
  gold : ∃ flows, warehouse.tetherTreasuryFlow = some flows

theorem Progress.created (h : Progress vars window raw w w') (hw : w.Created) : w'.Created := by
  cases h with
  | untouched => exact hw
  | silver => exact ⟨⟨_, rfl⟩, hw.gold⟩
  | gold now => exact ⟨⟨_, rfl⟩, ⟨_, rfl⟩⟩
  | complete now => exact ⟨⟨_, rfl⟩, ⟨_, rfl⟩⟩

theorem erc20Transfers_window (h : transfer ∈ erc20Transfers vars window raw) :
    window.Contains transfer.blockTimestampUtc := by
  have hsource := (List.perm_insertionSort _ _).mem_iff.mp ((firsts_sublist _ _ _).subset h)
  obtain ⟨log, hlog, hdecoded⟩ := List.mem_filterMap.mp hsource
  rw [(decodeTransfer_from hdecoded).timestamp]
  exact (of_decide_eq_true (List.mem_filter.mp hlog).2).2

theorem Progress.inside (h : Progress vars window raw w w') (ht : transfer ∈ w'.transfers) :
    transfer ∈ w.transfers ∨ window.Contains transfer.blockTimestampUtc := by
  rcases h.transfers with hsame | hrebuilt
  · rw [hsame] at ht
    exact .inl ht
  · rw [hrebuilt] at ht
    rcases (mem_replace transferKey).mp ht with hnew | ⟨hold, -⟩
    · exact .inr (erc20Transfers_window hnew)
    · exact .inl hold

section Sums

variable {M : Type} [AddCommMonoid M] {f : FlowKey → Erc20Transfer → M}

theorem sum_treasuryFlow {total : TreasuryFlow → M}
    (htotal : ∀ key rows, total (aggregated now key rows) = (rows.map (f key)).sum) :
    ((tetherTreasuryFlow vars window now transfers).map total).sum =
      ((treasuryTransfers vars window transfers).map fun transfer =>
        (classify vars transfer).elim 0 (f · transfer)).sum := by
  have htotals : total ∘ (fun g : FlowKey × List Erc20Transfer => aggregated now g.1 g.2) =
      fun g => (g.2.map (f g.1)).sum := funext fun g => htotal g.1 g.2
  rw [tetherTreasuryFlow, List.map_map]
  exact (congrArg (fun t => (List.map t _).sum) htotals).trans sum_groupBy

end Sums

theorem treasuryTransfers_inside (h : ∀ transfer ∈ transfers,
    window.Contains transfer.blockTimestampUtc) : treasuryTransfers vars window transfers =
      transfers.filter fun transfer => IsTreasuryTransfer vars transfer := by
  apply List.filter_congr
  intro transfer ht
  rw [decide_eq_decide]
  exact and_iff_left (h transfer ht)

def usdtAmount (transfer : Erc20Transfer) : Rat := transfer.amountUsdt.getD 0

theorem sumUsdt_eq : sumUsdt transfers = (transfers.map usdtAmount).sum := by
  induction transfers with
  | nil => rfl
  | cons transfer rows ih =>
    rw [sumUsdt] at ih ⊢
    cases husdt : transfer.amountUsdt with
    | none => simp [husdt, usdtAmount, ih]
    | some amount => simp [husdt, usdtAmount, ih]

structure Directed (treasury : Text) (transfer : Erc20Transfer) (key : FlowKey) : Prop where
  inflow : key.direction = .inflow ↔ transfer.toAddress = treasury
  outflow : key.direction = .outflow ↔ transfer.fromAddress = treasury

theorem IsTreasuryTransfer.classified (h : IsTreasuryTransfer vars transfer) :
    ∃ key, classify vars transfer = some key ∧
      Directed (lower vars.tetherTreasuryAddress) transfer key := by
  obtain ⟨-, -, -, -, hside, hself⟩ := h
  by_cases hto : transfer.toAddress = lower vars.tetherTreasuryAddress
  · have hfrom : transfer.fromAddress ≠ lower vars.tetherTreasuryAddress :=
      fun hfrom => hself ⟨hfrom, hto⟩
    exact ⟨_, by simp [classify, directionOf, hto]; rfl, by simp [hto], by simp [hfrom]⟩
  · have hfrom := hside.resolve_right hto
    exact ⟨_, by simp [classify, directionOf, hto, hfrom]; rfl, by simp [hto], by simp [hfrom]⟩

end EthereumLogs.Dbt

namespace EthereumLogs.QualityChecks
open Effect Duckdb DeltaWriter Dbt

variable {vars : DbtVars} {w : Warehouse} {table : Option DeltaTable} {run : RawRunCounts}
  {log : List QualityEvent} {transfers : List Erc20Transfer} {flows : List TreasuryFlow}

def metricsOf (transfers : List Erc20Transfer) (flows : List TreasuryFlow) : AnalyticsMetrics where
  erc20TransferCount := transfers.length
  usdtTreasuryTransferCount := (flows.map TreasuryFlow.transferCount).sum
  inflow := totalOf .inflow TreasuryFlow.totalAmountUsdt flows
  outflow := totalOf .outflow TreasuryFlow.totalAmountUsdt flows
  netFlow := (flows.map signedAmount).sum

theorem signedAmount_sum :
    (flows.map signedAmount).sum = totalOf .inflow TreasuryFlow.totalAmountUsdt flows -
      totalOf .outflow TreasuryFlow.totalAmountUsdt flows := by
  induction flows with
  | nil => simp [totalOf, directed]
  | cons flow flows ih =>
    simp only [totalOf, directed, List.map_cons, List.sum_cons, signedAmount] at ih ⊢
    rw [ih]
    cases flow.direction with
    | inflow => simp [add_sub_assoc]
    | outflow =>
      simp
      ring

theorem directed_nonneg {direction : Direction} (h : ∀ flow ∈ flows, 0 ≤ flow.totalAmountUsdt) :
    ∀ amount ∈ directed direction TreasuryFlow.totalAmountUsdt flows, 0 ≤ amount := by
  intro amount hamount
  obtain ⟨flow, hflow, rfl⟩ := List.mem_map.mp hamount
  split_ifs
  · exact h flow hflow
  · exact le_rfl

theorem sumDecimal_usdt (d : ℕ) (direction : Direction)
    (h : ∀ flow ∈ flows, 0 ≤ flow.totalAmountUsdt) :
    sumDecimal d (directed direction TreasuryFlow.totalAmountUsdt flows) =
      if FitsHugeint d (totalOf direction TreasuryFlow.totalAmountUsdt flows) then
        some (totalOf direction TreasuryFlow.totalAmountUsdt flows)
      else none := sumDecimal_nonneg (directed_nonneg h)

theorem totalOf_prefix (direction : Direction) {front : List TreasuryFlow} (hfront : front <+: flows)
    (h : ∀ flow ∈ flows, 0 ≤ flow.totalAmountUsdt) :
    0 ≤ totalOf direction TreasuryFlow.totalAmountUsdt front ∧
      totalOf direction TreasuryFlow.totalAmountUsdt front ≤
        totalOf direction TreasuryFlow.totalAmountUsdt flows := by
  obtain ⟨rest, rfl⟩ := hfront
  have hnonneg : ∀ rows : List TreasuryFlow, (∀ flow ∈ rows, 0 ≤ flow.totalAmountUsdt) →
      0 ≤ totalOf direction TreasuryFlow.totalAmountUsdt rows := fun _ hrows =>
    List.sum_nonneg (directed_nonneg hrows)
  have hsplit : totalOf direction TreasuryFlow.totalAmountUsdt (front ++ rest) =
      totalOf direction TreasuryFlow.totalAmountUsdt front +
        totalOf direction TreasuryFlow.totalAmountUsdt rest := by
    simp [totalOf, directed]
  refine ⟨hnonneg front fun flow hflow => h flow (List.mem_append_left _ hflow), ?_⟩
  rw [hsplit]
  exact le_add_of_nonneg_right (hnonneg rest fun flow hflow => h flow (List.mem_append_right _ hflow))

theorem sumDecimal_netFlow (d : ℕ) (h : ∀ flow ∈ flows, 0 ≤ flow.totalAmountUsdt)
    (hin : FitsHugeint d (totalOf .inflow TreasuryFlow.totalAmountUsdt flows))
    (hout : FitsHugeint d (totalOf .outflow TreasuryFlow.totalAmountUsdt flows)) :
    sumDecimal d (flows.map signedAmount) = some (flows.map signedAmount).sum := by
  apply sumDecimal_of_prefixes
  intro front hfront
  obtain ⟨rows, hrows, rfl⟩ := List.prefix_map_iff.mp hfront
  obtain ⟨hin0, hinle⟩ := totalOf_prefix .inflow hrows h
  obtain ⟨hout0, houtle⟩ := totalOf_prefix .outflow hrows h
  have hscale : (0 : Rat) ≤ 10 ^ d := by positivity
  have hinscaled := mul_le_mul_of_nonneg_right hinle hscale
  have houtscaled := mul_le_mul_of_nonneg_right houtle hscale
  have hinpos := mul_nonneg hin0 hscale
  have houtpos := mul_nonneg hout0 hscale
  rw [signedAmount_sum, FitsHugeint, sub_mul]
  constructor
  · linarith [hout.2]
  · linarith [hin.2]

theorem flowSums_eq (d : ℕ) (h : ∀ flow ∈ flows, 0 ≤ flow.totalAmountUsdt) : flowSums d flows =
    if FitsHugeint d (totalOf .inflow TreasuryFlow.totalAmountUsdt flows) ∧
        FitsHugeint d (totalOf .outflow TreasuryFlow.totalAmountUsdt flows) then
      some (totalOf .inflow TreasuryFlow.totalAmountUsdt flows,
        totalOf .outflow TreasuryFlow.totalAmountUsdt flows, (flows.map signedAmount).sum)
    else none := by
  rw [flowSums, sumDecimal_usdt d .inflow h, sumDecimal_usdt d .outflow h]
  by_cases hin : FitsHugeint d (totalOf .inflow TreasuryFlow.totalAmountUsdt flows)
  · by_cases hout : FitsHugeint d (totalOf .outflow TreasuryFlow.totalAmountUsdt flows)
    · rw [if_pos hin, if_pos hout, sumDecimal_netFlow d h hin hout, if_pos ⟨hin, hout⟩]
      rfl
    · rw [if_neg hout, if_neg (not_and_of_not_right _ hout)]
      cases (if FitsHugeint d (totalOf .inflow TreasuryFlow.totalAmountUsdt flows) then
        some (totalOf .inflow TreasuryFlow.totalAmountUsdt flows) else none) with
      | none => rfl
      | some inflow => rfl
  · rw [if_neg hin, if_neg (not_and_of_not_left _ hin)]
    rfl

theorem validateAnalyticsMetrics_created (h : w.Created) (d : ℕ)
    (hflows : ∀ flow ∈ w.flows, 0 ≤ flow.totalAmountUsdt) :
    let metrics := metricsOf w.transfers w.flows
    validateAnalyticsMetrics ⟨true, true, true⟩ d w log =
      if FitsHugeint d metrics.inflow ∧ FitsHugeint d metrics.outflow then
        (.ok metrics, log ++ [.analyticsQualityMetrics metrics])
      else (.error (.dataQualityError "Analytics validation query failed."), log) := by
  obtain ⟨⟨transfers, hsilver⟩, ⟨flows, hgold⟩⟩ := h
  have hsums := flowSums_eq d hflows
  have hkept : w.flows = flows := by rw [Warehouse.flows, hgold, Option.getD_some]
  have hrows : w.transfers = transfers := by rw [Warehouse.transfers, hsilver, Option.getD_some]
  simp only [validateAnalyticsMetrics, Bool.true_eq_false, if_false, hsilver, hgold, Option.map_some,
    requiredScalar, Eff.ofExcept_ok_bind, hsums, metricsOf, hrows]
  split_ifs with hfits
  · rw [hkept]
    rfl
  · rfl

theorem countDuplicateNaturalKeys_unique (h : ((storedRows table).map storedKey).Nodup) :
    countDuplicateNaturalKeys noFaults table = .ok 0 := by
  obtain ⟨count, hcount⟩ : ∃ count, countDuplicateNaturalKeys noFaults table = .ok count := by
    cases table with
    | none => exact ⟨0, rfl⟩
    | some t => exact ⟨_, rfl⟩
  rw [hcount, countDuplicateNaturalKeys_nodup h hcount]

theorem validateRawMetrics_unique (h : ((storedRows table).map storedKey).Nodup)
    (hcollected : run.failedSubranges = []) : validateRawMetrics noFaults table run log =
      (.ok ⟨run, 0⟩, log ++ [.rawQualityMetrics ⟨run, 0⟩]) := by
  rw [validateRawMetrics, countDuplicateNaturalKeys_unique h]
  simp only [Except.mapError, Eff.ofExcept_ok_bind, hcollected]
  rfl

end EthereumLogs.QualityChecks

namespace EthereumLogs.Pipeline
open Python Duckdb Effect Grouping Keyed LogNormalizer DeltaWriter Dbt QualityChecks

variable {ρ : Type} {client : EthereumClient ρ} {vars : DbtVars} {chain : Chain}
  {committed : List (Interval Warehouse)} {window : Window} {w w' : World ρ Warehouse}
  {attempt : Attempt ρ} {done : Bool} {transfer : Erc20Transfer} {hours : List Instant}

namespace Chain

theorem event_timestamp {n : ℕ} {l : RawLog} {event : LogEvent} (hl : l ∈ chain.logs n)
    (hok : chain.event l = .ok event) : event.blockTimestampUtc = chain.time n := by
  obtain ⟨event', hevent, hblock⟩ := chain.wellFormed n l hl
  cases hevent.symm.trans hok
  have hstamp := (normalizeEvent_from hevent).timestamp
  rw [hblock] at hstamp
  simp only [blockTimestampOf, trueTimestamps, Int.natCast_nonneg, if_true, ensureUtc,
    astimezone_utc, BlockRange.timeAt, Int.toNat_natCast, Except.ok.injEq] at hstamp
  exact hstamp.symm

theorem transfersIn_contains (h : transfer ∈ chain.transfersIn vars window) :
    window.Contains transfer.blockTimestampUtc := by
  obtain ⟨event, hevent, hdecoded⟩ := List.mem_filterMap.mp h
  obtain ⟨n, l, hl, hcontains, hok⟩ := mem_eventsIn.mp hevent
  rw [← event_timestamp hl hok] at hcontains
  rw [(transferOf_from hdecoded).timestamp]
  exact hcontains

def transfersOver (chain : Chain) (vars : DbtVars) (hours : List Instant) : List Erc20Transfer :=
  hours.flatMap fun hour => chain.transfersIn vars (hourWindow hour)

def flowsOver (chain : Chain) (vars : DbtVars) (hours : List Instant) :
    List (FlowKey × ℕ × Rat × Rat) :=
  hours.flatMap fun hour => chain.flowsIn vars (hourWindow hour)

theorem sum_flowsOver {M : Type} [AddCommMonoid M] {total : FlowKey × ℕ × Rat × Rat → M}
    {f : FlowKey → Erc20Transfer → M}
    (htotal : ∀ key rows, total (flowTotals (aggregated 0 key rows)) = (rows.map (f key)).sum) :
    ((chain.flowsOver vars hours).map total).sum =
      (((chain.transfersOver vars hours).filter fun t => IsTreasuryTransfer vars t).map fun t =>
        (classify vars t).elim 0 (f · t)).sum := by
  induction hours with
  | nil => rfl
  | cons hour hours ih =>
    have hhour : ((tetherTreasuryFlow vars (hourWindow hour) 0
        (chain.transfersIn vars (hourWindow hour))).map (total ∘ flowTotals)).sum = _ :=
      sum_treasuryFlow htotal
    rw [flowsOver, transfersOver] at ih ⊢
    rw [List.flatMap_cons, List.flatMap_cons, List.map_append, List.sum_append, ih,
      List.filter_append, List.map_append, List.sum_append, flowsIn, List.map_map,
      ← treasuryTransfers_inside fun t ht => transfersIn_contains ht]
    exact congrArg (· + _) hhour

end Chain

theorem AttemptEffect.inside (h : AttemptEffect client vars attempt w done w')
    (ht : transfer ∈ w'.warehouse.transfers) :
    transfer ∈ w.warehouse.transfers ∨ attempt.window.Contains transfer.blockTimestampUtc := by
  cases h with
  | stopped s => exact .inl ht
  | committed s warehouse prepared stored done hprepare haccepted hprogress =>
    exact hprogress.inside ht

theorem AttemptEffect.created (h : AttemptEffect client vars attempt w done w')
    (hw : w.warehouse.Created) : w'.warehouse.Created := by
  cases h with
  | stopped s => exact hw
  | committed s warehouse prepared stored done hprepare haccepted hprogress =>
    exact hprogress.created hw

theorem afterAttempts_inside (attempts : List (Attempt ρ))
    (ht : transfer ∈ (afterAttempts client vars attempts w).warehouse.transfers) :
    transfer ∈ w.warehouse.transfers ∨
      ∃ attempt ∈ attempts, attempt.window.Contains transfer.blockTimestampUtc := by
  induction attempts generalizing w with
  | nil => exact .inl ht
  | cons attempt attempts ih =>
    rcases ih ht with hmem | ⟨later, hlater, hcontains⟩
    · rcases (attempt_effect client vars attempt w).inside hmem with hold | hcontains
      · exact .inl hold
      · exact .inr ⟨attempt, List.mem_cons_self, hcontains⟩
    · exact .inr ⟨later, List.mem_cons_of_mem _ hlater, hcontains⟩

theorem afterAttempts_created (attempts : List (Attempt ρ)) (hw : w.warehouse.Created) :
    (afterAttempts client vars attempts w).warehouse.Created := by
  induction attempts generalizing w with
  | nil => exact hw
  | cons attempt attempts ih => exact ih ((attempt_effect client vars attempt w).created hw)

theorem afterAttempts_store (attempts : List (Attempt ρ)) (hw : StoreInvariant w.delta) :
    StoreInvariant (afterAttempts client vars attempts w).delta := by
  induction attempts generalizing w with
  | nil => exact hw
  | cons attempt attempts ih => exact ih ((attempt_effect client vars attempt w).store hw)

theorem completes_created (hdone : completes client vars attempt w = true) :
    (attempt.run client vars w).2.warehouse.Created := by
  obtain ⟨prepared, stored, -, hcompleted⟩ := runInterval_ok hdone
  obtain ⟨dbtResult, hdbt⟩ := hcompleted.dbt
  have hbuilt := (runDbtBuild_passed attempt.settings hdbt).warehouse
  change (runInterval client (attempt.interval vars) { w with rpc := attempt.rpc }).2.warehouse.Created
  rw [hbuilt]
  exact ⟨⟨_, rfl⟩, ⟨_, rfl⟩⟩

structure HourServed (chain : Chain) (vars : DbtVars) (hour : Instant) (warehouse : Warehouse) :
    Prop where
  aligned : AlignedHour (hourWindow hour)
  silver : ((warehouse.transfers.filter fun t => (hourWindow hour).Contains t.blockTimestampUtc).map
    unstamped).Perm (chain.transfersIn vars (hourWindow hour))
  gold : (flowsOf (hourWindow hour) warehouse).Perm (chain.flowsIn vars (hourWindow hour))

section Hours

variable {warehouse : Warehouse} (hunique : hours.Nodup)
  (hserved : ∀ hour ∈ hours, HourServed chain vars hour warehouse)
include hunique hserved

theorem silver_over (hinside : ∀ t ∈ warehouse.transfers, dateTruncHour t.blockTimestampUtc ∈ hours) :
    (warehouse.transfers.map unstamped).Perm (chain.transfersOver vars hours) := by
  have hgroups : warehouse.transfers.Perm (hours.flatMap
      (group (fun t => some (dateTruncHour t.blockTimestampUtc)) warehouse.transfers)) :=
    perm_groups hunique fun t ht => ⟨_, hinside t ht, rfl⟩
  refine (hgroups.map unstamped).trans ?_
  rw [List.map_flatMap, Chain.transfersOver]
  refine List.Perm.flatMap_left _ fun hour hhour => ?_
  have hfilter : group (fun t => some (dateTruncHour t.blockTimestampUtc)) warehouse.transfers hour =
      warehouse.transfers.filter fun t => (hourWindow hour).Contains t.blockTimestampUtc := by
    apply List.filter_congr
    intro t _
    rw [decide_eq_decide, Option.some.injEq, (hserved hour hhour).aligned.contains_iff]
    rfl
  rw [hfilter]
  exact (hserved hour hhour).silver

theorem gold_over (hinside : ∀ flow ∈ warehouse.flows, flow.hourStartUtc ∈ hours) :
    (warehouse.flows.map flowTotals).Perm (chain.flowsOver vars hours) := by
  have hgroups : warehouse.flows.Perm (hours.flatMap
      (group (fun flow => some flow.hourStartUtc) warehouse.flows)) :=
    perm_groups hunique fun flow hflow => ⟨_, hinside flow hflow, rfl⟩
  refine (hgroups.map flowTotals).trans ?_
  rw [List.map_flatMap, Chain.flowsOver]
  refine List.Perm.flatMap_left _ fun hour hhour => ?_
  have hfilter : group (fun flow => some flow.hourStartUtc) warehouse.flows hour =
      warehouse.flows.filter fun flow => flow.hourStartUtc = hour := by
    apply List.filter_congr
    intro flow _
    rw [decide_eq_decide, Option.some.injEq]
  rw [hfilter]
  exact (hserved hour hhour).gold

end Hours

def hoursOf (attempts : List (HourlyAttempt ρ)) : List Instant :=
  (attempts.map fun attempt => attempt.start).dedup

def CaughtUp (client : EthereumClient ρ) (vars : DbtVars) (attempts : List (HourlyAttempt ρ))
    (w : World ρ Warehouse) : Prop :=
  ∀ attempt ∈ attempts, ∃ before done after, attempts = before ++ done :: after ∧
    done.window = attempt.window ∧
    completes client vars done.toAttempt (afterHours client vars before w) = true

theorem mem_hoursOf {attempts : List (HourlyAttempt ρ)} {attempt : HourlyAttempt ρ}
    (hmem : attempt ∈ attempts) : attempt.start ∈ hoursOf attempts :=
  List.mem_dedup.mpr (List.mem_map_of_mem hmem)

theorem CaughtUp.hour {rpc : ρ} {attempts : List (HourlyAttempt ρ)} (hclient : Honest client chain)
    (h : CaughtUp client vars attempts (fresh rpc)) {hour : Instant} (hhour : hour ∈ hoursOf attempts) :
    HourServed chain vars hour (afterHours client vars attempts (fresh rpc)).warehouse := by
  obtain ⟨attempt, hattempt, rfl⟩ := List.mem_map.mp (List.mem_dedup.mp hhour)
  obtain ⟨before, done, after, rfl, hwindow, hdone⟩ := h attempt hattempt
  have hsame : hourWindow attempt.start = done.window := by
    rw [hwindow]
    exact attempt.hourly.hourWindow_eq
  obtain ⟨_, -, hbefore⟩ := afterHours_gold hclient before (GoldInvariant.fresh chain vars rpc)
  obtain ⟨_, hinvariant, hserves⟩ := completes_serves hclient (before.map HourlyAttempt.toAttempt)
    (after.map HourlyAttempt.toAttempt) done.toAttempt (ChainInvariant.fresh chain vars rpc) hdone
  constructor
  · rw [hsame]
    exact done.hourly
  · rw [hsame, afterHours, List.map_append, List.map_cons]
    exact hserves.silver hinvariant
  · rw [hsame, afterHours_split]
    exact hbefore.completed hclient done after hdone

theorem afterHours_inside {rpc : ρ} (attempts : List (HourlyAttempt ρ))
    (ht : transfer ∈ (afterHours client vars attempts (fresh rpc)).warehouse.transfers) :
    dateTruncHour transfer.blockTimestampUtc ∈ hoursOf attempts := by
  have hempty : transfer ∉ (fresh rpc).warehouse.transfers := by
    simp [fresh, Warehouse.empty, Warehouse.transfers]
  obtain ⟨attempt, hattempt, hcontains⟩ := (afterAttempts_inside _ ht).resolve_left hempty
  obtain ⟨hourly, hmem, rfl⟩ := List.mem_map.mp hattempt
  rw [hourly.hourly.contains_iff] at hcontains
  rw [hcontains]
  exact mem_hoursOf hmem

theorem GoldInvariant.inside (h : GoldInvariant chain vars committed w)
    (hinside : ∀ t ∈ w.warehouse.transfers, dateTruncHour t.blockTimestampUtc ∈ hours) :
    ∀ flow ∈ w.warehouse.flows, flow.hourStartUtc ∈ hours := by
  intro flow hflow
  obtain ⟨t, ht⟩ := List.exists_mem_of_ne_nil _ (h.hourly flow hflow).1.inhabited
  obtain ⟨hmem, hbelongs⟩ := List.mem_filter.mp ht
  rw [← (of_decide_eq_true hbelongs).2.2.1]
  exact hinside t hmem

def chainMetrics (vars : DbtVars) (transfers : List Erc20Transfer) : AnalyticsMetrics :=
  let treasury := transfers.filter fun t => IsTreasuryTransfer vars t
  let inflow := sumUsdt (treasury.filter fun t => t.toAddress = lower vars.tetherTreasuryAddress)
  let outflow := sumUsdt (treasury.filter fun t => t.fromAddress = lower vars.tetherTreasuryAddress)
  { erc20TransferCount := transfers.length
    usdtTreasuryTransferCount := treasury.length
    inflow := inflow
    outflow := outflow
    netFlow := inflow - outflow }

section Totals

variable {flows : List TreasuryFlow} (hgold : (flows.map flowTotals).Perm (chain.flowsOver vars hours))
include hgold

theorem sum_flows_over {M : Type} [AddCommMonoid M] (total : FlowKey × ℕ × Rat × Rat → M)
    {f : FlowKey → Erc20Transfer → M} (g : Erc20Transfer → M)
    (htotal : ∀ key rows, total (flowTotals (aggregated 0 key rows)) = (rows.map (f key)).sum)
    (hdirected : ∀ t key, Directed (lower vars.tetherTreasuryAddress) t key → f key t = g t) :
    (flows.map fun flow => total (flowTotals flow)).sum =
      (((chain.transfersOver vars hours).filter fun t => IsTreasuryTransfer vars t).map g).sum := by
  have hsum := ((hgold.map total).sum_eq).trans (Chain.sum_flowsOver htotal)
  rw [List.map_map] at hsum
  refine hsum.trans (congrArg List.sum (List.map_congr_left fun t ht => ?_))
  obtain ⟨key, hclass, hkey⟩ := (of_decide_eq_true (List.mem_filter.mp ht).2).classified
  rw [hclass]
  exact hdirected t key hkey

theorem transferCount_over : (flows.map TreasuryFlow.transferCount).sum =
    ((chain.transfersOver vars hours).filter fun t => IsTreasuryTransfer vars t).length := by
  have hcount : ∀ (key : FlowKey) rows, (flowTotals (aggregated 0 key rows)).2.1 =
      (rows.map fun _ => 1).sum := by simp [aggregated, flowTotals]
  have hsum := sum_flows_over hgold (fun t => t.2.1) (fun _ => 1) hcount fun _ _ _ => rfl
  rw [List.map_const', List.sum_replicate, nsmul_one] at hsum
  exact hsum

theorem totalOf_over {direction : Direction} {P : Erc20Transfer → Prop} [DecidablePred P]
    {amount : TreasuryFlow → Rat} {value : Erc20Transfer → Rat} (total : FlowKey × ℕ × Rat × Rat → Rat)
    (hamount : ∀ flow, amount flow = total (flowTotals flow))
    (hvalue : ∀ key rows, amount (aggregated 0 key rows) = (rows.map value).sum)
    (hdirected : ∀ t key, Directed (lower vars.tetherTreasuryAddress) t key →
      (key.direction = direction ↔ P t)) :
    totalOf direction amount flows = ((((chain.transfersOver vars hours).filter
      fun t => IsTreasuryTransfer vars t).filter fun t => P t).map value).sum := by
  have htotal : ∀ (key : FlowKey) rows, (if key.direction = direction then
      total (flowTotals (aggregated 0 key rows)) else 0) =
        (rows.map fun t => if key.direction = direction then value t else 0).sum := by
    intro key rows
    rw [← hamount, hvalue]
    split_ifs with hdirection
    · rfl
    · simp
  have hsame : ∀ t key, Directed (lower vars.tetherTreasuryAddress) t key →
      (if key.direction = direction then value t else 0) = if P t then value t else 0 := by
    intro t key hkey
    simp only [hdirected t key hkey]
  have hsum := sum_flows_over hgold (fun t => if t.1.direction = direction then total t else 0)
    (fun t => if P t then value t else 0) htotal hsame
  simp only [totalOf, directed, hamount]
  rw [sum_filter]
  exact hsum

theorem totalUsdt_over {direction : Direction} {P : Erc20Transfer → Prop} [DecidablePred P]
    (hdirected : ∀ t key, Directed (lower vars.tetherTreasuryAddress) t key →
      (key.direction = direction ↔ P t)) :
    totalOf direction TreasuryFlow.totalAmountUsdt flows = sumUsdt
      (((chain.transfersOver vars hours).filter fun t => IsTreasuryTransfer vars t).filter
        fun t => P t) :=
  (totalOf_over hgold (fun t => t.2.2.2) (fun _ => rfl) (fun _ _ => sumUsdt_eq) hdirected).trans
    sumUsdt_eq.symm

theorem totalRaw_over {direction : Direction} {P : Erc20Transfer → Prop} [DecidablePred P]
    (hdirected : ∀ t key, Directed (lower vars.tetherTreasuryAddress) t key →
      (key.direction = direction ↔ P t)) :
    totalOf direction TreasuryFlow.totalAmountRaw flows = sumRaw
      (((chain.transfersOver vars hours).filter fun t => IsTreasuryTransfer vars t).filter
        fun t => P t) :=
  (totalOf_over hgold (fun t => t.2.2.1) (fun _ => rfl) (fun _ _ => sumRaw_eq) hdirected).trans
    sumRaw_eq.symm

end Totals

theorem metrics_over {warehouse : Warehouse}
    (hsilver : (warehouse.transfers.map unstamped).Perm (chain.transfersOver vars hours))
    (hgold : (warehouse.flows.map flowTotals).Perm (chain.flowsOver vars hours)) :
    metricsOf warehouse.transfers warehouse.flows =
      chainMetrics vars (chain.transfersOver vars hours) := by
  have hcount := hsilver.length_eq
  rw [List.length_map] at hcount
  rw [metricsOf, chainMetrics, signedAmount_sum, hcount, transferCount_over hgold,
    totalUsdt_over hgold fun _ _ hkey => hkey.inflow,
    totalUsdt_over hgold fun _ _ hkey => hkey.outflow]

theorem CaughtUp.created {attempts : List (HourlyAttempt ρ)} (h : CaughtUp client vars attempts w)
    (hsome : attempts ≠ []) : (afterHours client vars attempts w).warehouse.Created := by
  obtain ⟨attempt, hattempt⟩ := List.exists_mem_of_ne_nil _ hsome
  obtain ⟨before, done, after, rfl, -, hdone⟩ := h attempt hattempt
  rw [afterHours_split]
  exact afterAttempts_created _ (completes_created hdone)

theorem GoldInvariant.usdtNonneg (h : GoldInvariant chain vars committed w) :
    ∀ flow ∈ w.warehouse.flows, 0 ≤ flow.totalAmountUsdt := by
  intro flow hflow
  rw [(h.hourly flow hflow).1.totals.totalAmountUsdt]
  apply List.sum_nonneg
  intro amount hamount
  obtain ⟨t, ht, hvalue⟩ := List.mem_filterMap.mp hamount
  have hcanonical : ∀ row ∈ storedRows w.delta, CanonicalRow row := fun row hrow =>
    (h.ingested.canonical row hrow).1
  exact (h.sound.amounts hcanonical (List.mem_of_mem_filter ht)).usdtNonneg amount hvalue

theorem caught_up_metrics (chain : Chain) (client : EthereumClient ρ) (hclient : Honest client chain)
    (vars : DbtVars) (rpc : ρ) (attempts : List (HourlyAttempt ρ)) (hsome : attempts ≠ [])
    (hcaught : CaughtUp client vars attempts (fresh rpc)) :
    let w := afterHours client vars attempts (fresh rpc)
    let metrics := chainMetrics vars (chain.transfersOver vars (hoursOf attempts))
    (∀ log, validateAnalyticsMetrics ⟨true, true, true⟩ vars.usdtDecimals w.warehouse log =
      if FitsHugeint vars.usdtDecimals metrics.inflow ∧
          FitsHugeint vars.usdtDecimals metrics.outflow then
        (.ok metrics, log ++ [.analyticsQualityMetrics metrics])
      else (.error (.dataQualityError "Analytics validation query failed."), log)) ∧
    ∀ run : RawRunCounts, run.failedSubranges = [] → ∀ log,
      validateRawMetrics noFaults w.delta run log =
        (.ok ⟨run, 0⟩, log ++ [.rawQualityMetrics ⟨run, 0⟩]) := by
  intro w metrics
  obtain ⟨_, -, hgold⟩ := afterHours_gold hclient attempts (GoldInvariant.fresh chain vars rpc)
  have hserved : ∀ hour ∈ hoursOf attempts, HourServed chain vars hour w.warehouse :=
    fun _ hhour => hcaught.hour hclient hhour
  have hinside : ∀ t ∈ w.warehouse.transfers, dateTruncHour t.blockTimestampUtc ∈ hoursOf attempts :=
    fun _ ht => afterHours_inside attempts ht
  have hmetrics : metricsOf w.warehouse.transfers w.warehouse.flows = metrics :=
    metrics_over (silver_over (List.nodup_dedup _) hserved hinside)
      (gold_over (List.nodup_dedup _) hserved (hgold.inside hinside))
  constructor
  · intro log
    rw [validateAnalyticsMetrics_created (hcaught.created hsome) _ hgold.usdtNonneg]
    rw [hmetrics]
  · intro run hcollected log
    have hstore : StoreInvariant w.delta := afterAttempts_store _ ⟨by simp [fresh],
      by simp [fresh, storedRows], by simp [fresh, storedRows], by simp [fresh, storedRows]⟩
    exact validateRawMetrics_unique hstore.uniqueKeys hcollected

theorem depositHours_caughtUp : CaughtUp depositProvider projectVars
    [depositHour (· = .erc20Transfers), depositHour fun _ => false] (fresh ()) := by
  intro attempt hattempt
  refine ⟨[depositHour (· = .erc20Transfers)], depositHour fun _ => false, [], rfl, ?_,
    depositAttempt_completes.1⟩
  simp only [List.mem_cons, List.not_mem_nil, or_false] at hattempt
  rcases hattempt with rfl | rfl
  · rfl
  · rfl

theorem caught_up_metrics_deposit :
    chainMetrics projectVars (depositInBlockSeven.transfersOver projectVars [minutes 60]) =
        ⟨1, 1, 1, 0, 1⟩ ∧
      validateAnalyticsMetrics ⟨true, true, true⟩ 6 (afterHours depositProvider projectVars
          [depositHour (· = .erc20Transfers), depositHour fun _ => false] (fresh ())).warehouse [] =
        (.ok ⟨1, 1, 1, 0, 1⟩, [.analyticsQualityMetrics ⟨1, 1, 1, 0, 1⟩]) := by
  have hmetrics : chainMetrics projectVars (depositInBlockSeven.transfersOver projectVars
      [minutes 60]) = ⟨1, 1, 1, 0, 1⟩ := by
    decide +kernel
  have hcaught := (caught_up_metrics depositInBlockSeven depositProvider depositProvider_honest
    projectVars () [depositHour (· = .erc20Transfers), depositHour fun _ => false] (by simp)
    depositHours_caughtUp).1 []
  have hhours : hoursOf [depositHour (· = .erc20Transfers), depositHour fun _ => false] =
      [minutes 60] := by decide
  rw [hhours, hmetrics] at hcaught
  exact ⟨hmetrics, hcaught.trans (if_pos (by decide +kernel))⟩

end EthereumLogs.Pipeline
