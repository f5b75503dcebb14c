import EthereumLogs.Dbt.Checks
import EthereumLogs.Pipeline.ChainTables

namespace EthereumLogs.Dbt
open Python Duckdb Grouping Keyed LogNormalizer

variable {vars : DbtVars} {window : Window} {transfers transfers' : List Erc20Transfer}
  {key : FlowKey} {flow : TreasuryFlow} {now : Instant}

def flowTotals (flow : TreasuryFlow) : FlowKey × ℕ × Rat × Rat :=
  (flow.toFlowKey, flow.transferCount, flow.totalAmountRaw, flow.totalAmountUsdt)

theorem HourlyFlow.totals_eq {flow' : TreasuryFlow} (h : HourlyFlow vars transfers flow)
    (h' : HourlyFlow vars transfers flow') (hkey : flow.toFlowKey = flow'.toFlowKey) :
    flowTotals flow = flowTotals flow' := by
  simp only [flowTotals, Prod.mk.injEq]
  exact ⟨hkey, by rw [h.totals.transferCount, h'.totals.transferCount, hkey],
    by rw [h.totals.totalAmountRaw, h'.totals.totalAmountRaw, hkey],
    by rw [h.totals.totalAmountUsdt, h'.totals.totalAmountUsdt, hkey]⟩

theorem transfersOf_unstamped (transfers : List Erc20Transfer) (key : FlowKey) :
    (transfersOf transfers key).map unstamped = transfersOf (transfers.map unstamped) key := by
  rw [transfersOf, transfersOf, List.filter_map]
  rfl

theorem sumRaw_unstamped (transfers : List Erc20Transfer) :
    sumRaw (transfers.map unstamped) = sumRaw transfers := by
  rw [sumRaw, List.filterMap_map]
  rfl

theorem sumUsdt_unstamped (transfers : List Erc20Transfer) :
    sumUsdt (transfers.map unstamped) = sumUsdt transfers := by
  rw [sumUsdt, List.filterMap_map]
  rfl

theorem HourlyFlow.congr (h : HourlyFlow vars transfers flow)
    (hcount : (transfersOf transfers flow.toFlowKey).length =
      (transfersOf transfers' flow.toFlowKey).length)
    (hraw : sumRaw (transfersOf transfers flow.toFlowKey) =
      sumRaw (transfersOf transfers' flow.toFlowKey))
    (husdt : sumUsdt (transfersOf transfers flow.toFlowKey) =
      sumUsdt (transfersOf transfers' flow.toFlowKey)) : HourlyFlow vars transfers' flow := by
  refine ⟨h.configured, ?_, ?_, ?_, ?_⟩
  · rw [← List.length_pos_iff, ← hcount, List.length_pos_iff]
    exact h.inhabited
  · rw [h.totals.transferCount, hcount]
  · rw [h.totals.totalAmountRaw, hraw]
  · rw [h.totals.totalAmountUsdt, husdt]

theorem HourlyFlow.perm (h : HourlyFlow vars transfers flow)
    (hsame : (transfersOf transfers flow.toFlowKey).Perm (transfersOf transfers' flow.toFlowKey)) :
    HourlyFlow vars transfers' flow :=
  h.congr hsame.length_eq (hsame.filterMap _).sum_eq (hsame.filterMap _).sum_eq

theorem HourlyFlow.unstamped (h : HourlyFlow vars transfers flow)
    (hsame : ((transfersOf transfers flow.toFlowKey).map unstamped).Perm
      (transfersOf transfers' flow.toFlowKey)) : HourlyFlow vars transfers' flow := by
  refine h.congr ?_ ?_ ?_
  · rw [← hsame.length_eq, List.length_map]
  · rw [← sumRaw_unstamped]
    exact (hsame.filterMap _).sum_eq
  · rw [← sumUsdt_unstamped]
    exact (hsame.filterMap _).sum_eq

def hourWindow (hour : Instant) : Window := ⟨hour, hour + microsPerHour⟩

theorem AlignedHour.hourWindow_eq (h : AlignedHour window) : hourWindow window.start = window := by
  rw [hourWindow, ← h.oneHour]

theorem Belongs.aligned {transfer : Erc20Transfer} (h : Belongs key transfer) :
    AlignedHour (hourWindow key.hourStartUtc) := by
  refine ⟨?_, rfl⟩
  change key.hourStartUtc % microsPerHour = 0
  rw [← h.2.2.1]
  exact dateTruncHour_mod _

theorem HourlyFlow.aligned (h : HourlyFlow vars transfers flow) :
    AlignedHour (hourWindow flow.hourStartUtc) := by
  obtain ⟨t, ht⟩ := List.exists_mem_of_ne_nil _ h.inhabited
  exact Belongs.aligned (of_decide_eq_true (List.mem_filter.mp ht).2)

theorem mem_totals (h : AlignedHour window) {total : FlowKey × ℕ × Rat × Rat} :
    total ∈ (tetherTreasuryFlow vars window now transfers).map flowTotals ↔
      ∃ flow, HourlyFlow vars transfers flow ∧ flow.hourStartUtc = window.start ∧
        flowTotals flow = total := by
  rw [List.mem_map]
  constructor
  · rintro ⟨flow, hflow, rfl⟩
    refine ⟨flow, refreshed_inside h hflow, ?_, rfl⟩
    obtain ⟨-, hinhabited, -⟩ := tetherTreasuryFlow_from hflow
    obtain ⟨t, ht⟩ := List.exists_mem_of_ne_nil _ hinhabited
    obtain ⟨hmem, hwindow⟩ := List.mem_filter.mp ht
    have hbelongs := of_decide_eq_true (List.mem_filter.mp hmem).2
    rw [decide_eq_true_eq, h.contains_iff] at hwindow
    exact hbelongs.2.2.1.symm.trans hwindow
  · rintro ⟨flow, hflow, hhour, rfl⟩
    have hinhabited := hflow.inhabited
    rw [← transfersOf_inside h hhour] at hinhabited
    have hkey : flow.toFlowKey ∈
        (tetherTreasuryFlow vars window now transfers).map TreasuryFlow.toFlowKey :=
      mem_flowKeys hflow.configured hinhabited
    obtain ⟨flow', hflow', hkey⟩ := List.mem_map.mp hkey
    exact ⟨flow', hflow', (refreshed_inside h hflow').totals_eq hflow hkey⟩

end EthereumLogs.Dbt

namespace EthereumLogs.Pipeline
open Python Duckdb Effect Keyed LogNormalizer DeltaWriter Dbt

variable {ρ : Type} {client : EthereumClient ρ} {vars : DbtVars} {chain : Chain}
  {committed committed' : List (Interval Warehouse)} {window : Window} {w w' : World ρ Warehouse}
  {attempt : Attempt ρ} {done : Bool} {key : FlowKey} {flow : TreasuryFlow}

def Chain.flowsIn (chain : Chain) (vars : DbtVars) (window : Window) :
    List (FlowKey × ℕ × Rat × Rat) :=
  (tetherTreasuryFlow vars window 0 (chain.transfersIn vars window)).map flowTotals

structure HourlyAttempt (ρ : Type) extends Attempt ρ where
  hourly : AlignedHour toAttempt.window

theorem Serves.transfersOf_perm (h : ChainInvariant chain vars committed w)
    (hserves : Serves vars committed window w) (haligned : AlignedHour window)
    (hkey : key.hourStartUtc = window.start) :
    ((transfersOf w.warehouse.transfers key).map unstamped).Perm
      (transfersOf (chain.transfersIn vars window) key) := by
  have hinside : transfersOf w.warehouse.transfers key = transfersOf
      (w.warehouse.transfers.filter fun t => window.Contains t.blockTimestampUtc) key := by
    rw [← transfersOf_inside haligned hkey, transfersOf, transfersOf, List.filter_comm]
  rw [hinside, transfersOf_unstamped]
  exact (hserves.silver h).filter _

theorem Advances.transfersOf_perm (h : Advances chain vars committed committed' w w')
    (hw : ChainInvariant chain vars committed w) (hserves : Serves vars committed window w)
    (haligned : AlignedHour window) (hkey : key.hourStartUtc = window.start) :
    (transfersOf w.warehouse.transfers key).Perm (transfersOf w'.warehouse.transfers key) := by
  have hunique : w.warehouse.transfers.Nodup := hw.sound.unique.of_map
  have hunique' : w'.warehouse.transfers.Nodup := h.invariant.sound.unique.of_map
  rw [transfersOf, transfersOf,
    List.perm_ext_iff_of_nodup (hunique.filter _) (hunique'.filter _)]
  intro t
  rw [List.mem_filter, List.mem_filter]
  constructor
  · rintro ⟨ht, hbelongs⟩
    exact ⟨h.kept ht, hbelongs⟩
  · rintro ⟨ht, hbelongs⟩
    refine ⟨h.settled window hserves t ht ?_, hbelongs⟩
    rw [haligned.contains_iff, ← hkey]
    exact (of_decide_eq_true hbelongs).2.2.1

structure GoldInvariant (chain : Chain) (vars : DbtVars) (committed : List (Interval Warehouse))
    (w : World ρ Warehouse) : Prop extends ChainInvariant chain vars committed w where
  uniqueKeys : (w.warehouse.flows.map TreasuryFlow.toFlowKey).Nodup
  hourly : ∀ flow ∈ w.warehouse.flows, HourlyFlow vars w.warehouse.transfers flow ∧
    Serves vars committed (hourWindow flow.hourStartUtc) w

theorem AttemptAdvances.gold (haligned : AlignedHour window)
    (h : AttemptAdvances chain vars committed committed' window done w w')
    (hw : GoldInvariant chain vars committed w) : GoldInvariant chain vars committed' w' := by
  have hold : ∀ flow ∈ w.warehouse.flows, HourlyFlow vars w'.warehouse.transfers flow ∧
      Serves vars committed' (hourWindow flow.hourStartUtc) w' := by
    intro flow hflow
    obtain ⟨hhourly, hserves⟩ := hw.hourly flow hflow
    have hperm := h.transfersOf_perm hw.toChainInvariant hserves hhourly.aligned rfl
    exact ⟨hhourly.perm hperm, h.serves _ hserves⟩
  rcases h.flows with hsame | hrefreshed
  · rw [← hsame] at hold
    exact ⟨h.invariant, by rw [hsame]; exact hw.uniqueKeys, hold⟩
  · obtain ⟨now, hflows⟩ := hrefreshed.flows
    refine ⟨h.invariant, ?_, ?_⟩
    · rw [hflows]
      exact replace_nodup _ hw.uniqueKeys (tetherTreasuryFlow_keys _ _ _ _)
    · intro flow hflow
      rw [hflows] at hflow
      rcases (mem_replace TreasuryFlow.toFlowKey).mp hflow with hnew | ⟨hkept, -⟩
      · obtain ⟨flow', hflow', hhour, hsame⟩ := (mem_totals haligned).mp
          (List.mem_map_of_mem hnew)
        have hkey : flow'.toFlowKey = flow.toFlowKey := congrArg Prod.fst hsame
        rw [hkey] at hhour
        refine ⟨refreshed_inside haligned hnew, ?_⟩
        rw [hhour, haligned.hourWindow_eq]
        exact hrefreshed.toServes
      · exact hold flow hkept

theorem GoldInvariant.fresh (chain : Chain) (vars : DbtVars) (rpc : ρ) :
    GoldInvariant chain vars [] (fresh rpc) :=
  ⟨.fresh chain vars rpc, by simp [Pipeline.fresh, Warehouse.empty, Warehouse.flows],
    by simp [Pipeline.fresh, Warehouse.empty, Warehouse.flows]⟩

def afterHours (client : EthereumClient ρ) (vars : DbtVars) (attempts : List (HourlyAttempt ρ))
    (w : World ρ Warehouse) : World ρ Warehouse :=
  afterAttempts client vars (attempts.map HourlyAttempt.toAttempt) w

theorem afterHours_gold (hclient : Honest client chain) (attempts : List (HourlyAttempt ρ))
    (h : GoldInvariant chain vars committed w) : ∃ committed',
      Advances chain vars committed committed' w (afterHours client vars attempts w) ∧
        GoldInvariant chain vars committed' (afterHours client vars attempts w) := by
  induction attempts generalizing committed w with
  | nil =>
    exact ⟨committed, .refl h.toChainInvariant, h⟩
  | cons attempt attempts ih =>
    obtain ⟨committed', hadvance⟩ := (attempt_effect client vars attempt.toAttempt w).advances hclient
      h.toChainInvariant
    obtain ⟨committed'', hrest, hgold⟩ := ih (hadvance.gold attempt.hourly h)
    exact ⟨committed'', hadvance.toAdvances.trans hrest, hgold⟩

theorem GoldInvariant.genuine (h : GoldInvariant chain vars committed w)
    (hflow : flow ∈ w.warehouse.flows) :
    flowTotals flow ∈ chain.flowsIn vars (hourWindow flow.hourStartUtc) := by
  obtain ⟨hhourly, hserves⟩ := h.hourly flow hflow
  have hperm := hserves.transfersOf_perm h.toChainInvariant hhourly.aligned rfl
  exact (mem_totals hhourly.aligned).mpr ⟨flow, hhourly.unstamped hperm, rfl, rfl⟩

def Filled (vars : DbtVars) (window : Window) (warehouse : Warehouse) : Prop :=
  ∀ key, ConfiguredKey vars key → key.hourStartUtc = window.start →
    transfersOf warehouse.transfers key ≠ [] → key ∈ warehouse.flows.map TreasuryFlow.toFlowKey

theorem Refreshed.filled (h : Refreshed vars committed window w w') (haligned : AlignedHour window) :
    Filled vars window w'.warehouse := by
  intro key hconfigured hhour hinhabited
  obtain ⟨now, hflows⟩ := h.flows
  rw [← transfersOf_inside haligned hhour] at hinhabited
  have hkey : key ∈ (tetherTreasuryFlow vars window now w'.warehouse.transfers).map
      TreasuryFlow.toFlowKey := mem_flowKeys hconfigured hinhabited
  obtain ⟨flow, hflow, rfl⟩ := List.mem_map.mp hkey
  rw [hflows]
  exact List.mem_map_of_mem ((mem_replace _).mpr (.inl hflow))

theorem Advances.filled (h : Advances chain vars committed committed' w w')
    (hw : ChainInvariant chain vars committed w) (hserves : Serves vars committed window w)
    (haligned : AlignedHour window) (hfilled : Filled vars window w.warehouse) :
    Filled vars window w'.warehouse := by
  intro key hconfigured hhour hinhabited
  have hperm := h.transfersOf_perm hw hserves haligned hhour
  apply h.flowKeys
  apply hfilled key hconfigured hhour
  intro hnil
  rw [hnil, List.nil_perm] at hperm
  exact hinhabited hperm

def flowsOf (window : Window) (warehouse : Warehouse) : List (FlowKey × ℕ × Rat × Rat) :=
  (warehouse.flows.filter fun flow => flow.hourStartUtc = window.start).map flowTotals

theorem GoldInvariant.complete (h : GoldInvariant chain vars committed w)
    (hserves : Serves vars committed window w) (haligned : AlignedHour window)
    (hfilled : Filled vars window w.warehouse) :
    (flowsOf window w.warehouse).Perm (chain.flowsIn vars window) := by
  have hkeys : ((flowsOf window w.warehouse).map Prod.fst).Nodup := by
    rw [flowsOf, List.map_map]
    exact h.uniqueKeys.sublist (List.filter_sublist.map _)
  have hchainKeys : ((chain.flowsIn vars window).map Prod.fst).Nodup := by
    rw [Chain.flowsIn, List.map_map]
    exact tetherTreasuryFlow_keys _ _ _ _
  have hforward : ∀ flow ∈ w.warehouse.flows, flow.hourStartUtc = window.start →
      flowTotals flow ∈ chain.flowsIn vars window := by
    intro flow hflow hhour
    have hgenuine := h.genuine hflow
    rwa [hhour, haligned.hourWindow_eq] at hgenuine
  rw [List.perm_ext_iff_of_nodup hkeys.of_map hchainKeys.of_map]
  intro total
  constructor
  · intro htotal
    obtain ⟨flow, hflow, rfl⟩ := List.mem_map.mp htotal
    obtain ⟨hmem, hhour⟩ := List.mem_filter.mp hflow
    exact hforward flow hmem (of_decide_eq_true hhour)
  · intro htotal
    obtain ⟨flow, hhourly, hhour, rfl⟩ := (mem_totals haligned).mp htotal
    have hperm := hserves.transfersOf_perm h.toChainInvariant haligned hhour
    have hinhabited : transfersOf w.warehouse.transfers flow.toFlowKey ≠ [] := by
      intro hnil
      rw [hnil, List.map_nil, List.nil_perm] at hperm
      exact hhourly.inhabited hperm
    obtain ⟨flow', hflow', hkey⟩ := List.mem_map.mp
      (hfilled flow.toFlowKey hhourly.configured hhour hinhabited)
    have hhour' : flow'.hourStartUtc = window.start := by rw [hkey, hhour]
    have hsame : flowTotals flow' = flowTotals flow :=
      eq_of_key_eq Prod.fst hchainKeys (hforward flow' hflow' hhour') htotal hkey
    rw [← hsame]
    exact List.mem_map_of_mem (List.mem_filter.mpr ⟨hflow', decide_eq_true hhour'⟩)

theorem depositAttempt_aligned : AlignedHour ⟨minutes 60, minutes 120⟩ :=
  ⟨by decide, by decide⟩

def depositHour (failing : DbtNode → Bool) : HourlyAttempt Unit :=
  ⟨depositAttempt failing, depositAttempt_aligned⟩

theorem GoldInvariant.completed (hclient : Honest client chain)
    (h : GoldInvariant chain vars committed w) (attempt : HourlyAttempt ρ) (after : List (HourlyAttempt ρ))
    (hdone : completes client vars attempt.toAttempt w = true) :
    (flowsOf attempt.window (afterHours client vars after
        (attempt.run client vars w).2).warehouse).Perm (chain.flowsIn vars attempt.window) := by
  obtain ⟨_, hattempt⟩ := (attempt_effect client vars attempt.toAttempt w).advances hclient
    h.toChainInvariant
  have hrefreshed := hattempt.completed hdone
  obtain ⟨_, hafter, hgold⟩ := afterHours_gold hclient after (hattempt.gold attempt.hourly h)
  exact hgold.complete (hafter.serves _ hrefreshed.toServes) attempt.hourly
    (hafter.filled hattempt.invariant hrefreshed.toServes attempt.hourly
      (hrefreshed.filled attempt.hourly))

theorem afterHours_split (before after : List (HourlyAttempt ρ)) (attempt : HourlyAttempt ρ)
    (w : World ρ Warehouse) : afterHours client vars (before ++ attempt :: after) w =
      afterHours client vars after (attempt.run client vars (afterHours client vars before w)).2 := by
  simp [afterHours, afterAttempts, history]

end EthereumLogs.Pipeline
