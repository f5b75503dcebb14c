import EthereumLogs.Dbt.Silver

namespace EthereumLogs.Dbt
open Python Duckdb Grouping Keyed LogNormalizer

variable {vars : DbtVars} {window : Window} {transfers before after : List Erc20Transfer}
  {transfer : Erc20Transfer} {key : FlowKey} {flow : TreasuryFlow} {flows : List TreasuryFlow}
  {now : Instant}

def Belongs (key : FlowKey) (transfer : Erc20Transfer) : Prop :=
  transfer.chainId = key.chainId ∧ transfer.contractAddress = key.contractAddress ∧
    dateTruncHour transfer.blockTimestampUtc = key.hourStartUtc ∧
    directionOf key.treasuryAddress transfer = some key.direction ∧
    ¬ (transfer.fromAddress = key.treasuryAddress ∧ transfer.toAddress = key.treasuryAddress) ∧
    transfer.amountNumericStatus = uint256StatusDecimal38Available ∧
    transfer.rawAmountDecimal ≠ none ∧ transfer.amountUsdt ≠ none

instance (key : FlowKey) (transfer : Erc20Transfer) : Decidable (Belongs key transfer) :=
  inferInstanceAs (Decidable (_ ∧ _))

def transfersOf (transfers : List Erc20Transfer) (key : FlowKey) : List Erc20Transfer :=
  transfers.filter fun transfer => Belongs key transfer

structure CompleteTotals (transfers : List Erc20Transfer) (flow : TreasuryFlow) : Prop where
  transferCount : flow.transferCount = (transfersOf transfers flow.toFlowKey).length
  totalAmountRaw : flow.totalAmountRaw = sumRaw (transfersOf transfers flow.toFlowKey)
  totalAmountUsdt : flow.totalAmountUsdt = sumUsdt (transfersOf transfers flow.toFlowKey)

structure ConfiguredKey (vars : DbtVars) (key : FlowKey) : Prop where
  contract : key.contractAddress = lower vars.usdtContractAddress
  treasury : key.treasuryAddress = lower vars.tetherTreasuryAddress

theorem directionOf_some {treasury : Text} {direction : Direction}
    (h : directionOf treasury transfer = some direction) :
    transfer.fromAddress = treasury ∨ transfer.toAddress = treasury := by
  unfold directionOf at h
  split_ifs at h with hto hfrom
  · exact .inr hto
  · exact .inl hfrom

theorem classified_iff : IsTreasuryTransfer vars transfer ∧ classify vars transfer = some key ↔
    ConfiguredKey vars key ∧ Belongs key transfer := by
  constructor
  · rintro ⟨⟨hcontract, hstatus, hraw, husdt, -, hself⟩, hkey⟩
    obtain ⟨direction, hdirection, rfl⟩ := Option.map_eq_some_iff.mp hkey
    exact ⟨⟨hcontract, rfl⟩, rfl, rfl, rfl, hdirection, hself, hstatus, hraw, husdt⟩
  · rintro ⟨⟨hcontract, htreasury⟩, hchain, hsame, hhour, hdirection, hself, hstatus, hraw, husdt⟩
    obtain ⟨chainId, contractAddress, treasuryAddress, hourStartUtc, direction⟩ := key
    subst hcontract htreasury hchain hhour
    refine ⟨⟨hsame, hstatus, hraw, husdt, directionOf_some hdirection, hself⟩, ?_⟩
    simp [classify, hdirection, hsame]

theorem group_window (hkey : ConfiguredKey vars key) :
    group (classify vars) (treasuryTransfers vars window transfers) key =
      (transfersOf transfers key).filter fun t => window.Contains t.blockTimestampUtc := by
  rw [group, treasuryTransfers, transfersOf, List.filter_filter, List.filter_filter]
  apply List.filter_congr
  intro t _
  rw [Bool.eq_iff_iff]
  simp only [Bool.and_eq_true, decide_eq_true_eq]
  constructor
  · rintro ⟨hclass, htreasury, hwindow⟩
    exact ⟨hwindow, (classified_iff.mp ⟨htreasury, hclass⟩).2⟩
  · rintro ⟨hwindow, hbelongs⟩
    obtain ⟨htreasury, hclass⟩ := classified_iff.mpr ⟨hkey, hbelongs⟩
    exact ⟨hclass, htreasury, hwindow⟩

structure AggregatedFrom (vars : DbtVars) (window : Window) (transfers : List Erc20Transfer)
    (flow : TreasuryFlow) : Prop where
  configured : ConfiguredKey vars flow.toFlowKey
  inhabited : ((transfersOf transfers flow.toFlowKey).filter
    fun t => window.Contains t.blockTimestampUtc) ≠ []
  totals : ∃ now, flow = aggregated now flow.toFlowKey ((transfersOf transfers flow.toFlowKey).filter
    fun t => window.Contains t.blockTimestampUtc)

theorem tetherTreasuryFlow_from (h : flow ∈ tetherTreasuryFlow vars window now transfers) :
    AggregatedFrom vars window transfers flow := by
  obtain ⟨⟨key, rows⟩, hmem, rfl⟩ := List.mem_map.mp h
  obtain ⟨hne, rfl⟩ := mem_groupBy.mp hmem
  obtain ⟨t, ht, hclass⟩ := group_ne_nil.mp hne
  have htreasury : IsTreasuryTransfer vars t := by
    have hkept := (List.mem_filter.mp ht).2
    simp only [decide_eq_true_eq] at hkept
    exact hkept.1
  have hkey := (classified_iff.mp ⟨htreasury, hclass⟩).1
  rw [group_window hkey] at hne ⊢
  exact ⟨hkey, hne, now, rfl⟩

theorem mem_flowKeys (hkey : ConfiguredKey vars key)
    (hne : ((transfersOf transfers key).filter fun t => window.Contains t.blockTimestampUtc) ≠ []) :
    key ∈ (tetherTreasuryFlow vars window now transfers).map TreasuryFlow.toFlowKey := by
  rw [← group_window hkey] at hne
  exact List.mem_map.mpr ⟨_, List.mem_map_of_mem (mem_groupBy.mpr ⟨hne, rfl⟩), rfl⟩

structure AlignedHour (window : Window) : Prop where
  aligned : window.start % microsPerHour = 0
  oneHour : window.stop = window.start + microsPerHour

theorem AlignedHour.contains_iff (h : AlignedHour window) {t : Instant} :
    window.Contains t ↔ dateTruncHour t = window.start := by
  rw [dateTruncHour_eq_iff h.aligned, ← h.oneHour]
  rfl

theorem transfersOf_inside (h : AlignedHour window) (hkey : key.hourStartUtc = window.start) :
    ((transfersOf transfers key).filter fun t => window.Contains t.blockTimestampUtc) =
      transfersOf transfers key := by
  apply List.filter_eq_self.mpr
  intro t ht
  have hbelongs := of_decide_eq_true (List.mem_filter.mp ht).2
  rw [decide_eq_true_eq, h.contains_iff, ← hkey]
  exact hbelongs.2.2.1

theorem transfersOf_outside (h : AlignedHour window) (hkey : key.hourStartUtc ≠ window.start)
    (houtside : after.filter (fun t => ¬ window.Contains t.blockTimestampUtc) =
      before.filter (fun t => ¬ window.Contains t.blockTimestampUtc)) :
    transfersOf after key = transfersOf before key := by
  refine filter_congr_within ?_ houtside
  intro t hbelongs
  rw [h.contains_iff]
  exact fun hhour => hkey (hbelongs.2.2.1.symm.trans hhour)

structure HourlyFlow (vars : DbtVars) (transfers : List Erc20Transfer) (flow : TreasuryFlow) :
    Prop where
  configured : ConfiguredKey vars flow.toFlowKey
  inhabited : transfersOf transfers flow.toFlowKey ≠ []
  totals : CompleteTotals transfers flow

theorem refreshed_inside (h : AlignedHour window)
    (hflow : flow ∈ tetherTreasuryFlow vars window now after) : HourlyFlow vars after flow := by
  obtain ⟨hconfigured, hinhabited, now', htotals⟩ := tetherTreasuryFlow_from hflow
  have hhour : flow.hourStartUtc = window.start := by
    obtain ⟨t, ht⟩ := List.exists_mem_of_ne_nil _ hinhabited
    obtain ⟨hmem, hwindow⟩ := List.mem_filter.mp ht
    have hbelongs := of_decide_eq_true (List.mem_filter.mp hmem).2
    rw [decide_eq_true_eq, h.contains_iff] at hwindow
    exact hbelongs.2.2.1.symm.trans hwindow
  rw [transfersOf_inside h hhour] at hinhabited htotals
  refine ⟨hconfigured, hinhabited, ?_, ?_, ?_⟩
  · rw [htotals]
    rfl
  · rw [htotals]
    rfl
  · rw [htotals]
    rfl

theorem refreshed_outside (h : AlignedHour window) (hflow : HourlyFlow vars before flow)
    (hstale : flow.toFlowKey ∉
      (tetherTreasuryFlow vars window now after).map TreasuryFlow.toFlowKey)
    (hkept : ∀ t ∈ before, window.Contains t.blockTimestampUtc → t ∈ after)
    (houtside : after.filter (fun t => ¬ window.Contains t.blockTimestampUtc) =
      before.filter (fun t => ¬ window.Contains t.blockTimestampUtc)) :
    HourlyFlow vars after flow := by
  have hhour : flow.hourStartUtc ≠ window.start := by
    intro hhour
    apply hstale
    apply mem_flowKeys hflow.configured
    rw [transfersOf_inside h hhour]
    obtain ⟨t, ht⟩ := List.exists_mem_of_ne_nil _ hflow.inhabited
    obtain ⟨hmem, hbelongs⟩ := List.mem_filter.mp ht
    have hwindow : window.Contains t.blockTimestampUtc := by
      rw [h.contains_iff, ← hhour]
      exact (of_decide_eq_true hbelongs).2.2.1
    exact List.ne_nil_of_mem (List.mem_filter.mpr ⟨hkept t hmem hwindow, hbelongs⟩)
  have hsame := transfersOf_outside h hhour houtside
  refine ⟨hflow.configured, by rw [hsame]; exact hflow.inhabited, ?_⟩
  obtain ⟨hcount, hraw, husdt⟩ := hflow.totals
  exact ⟨by rw [hsame]; exact hcount, by rw [hsame]; exact hraw, by rw [hsame]; exact husdt⟩

theorem refreshed_hourly (h : AlignedHour window) (hflows : ∀ flow ∈ flows, HourlyFlow vars before flow)
    (hkept : ∀ t ∈ before, window.Contains t.blockTimestampUtc → t ∈ after)
    (houtside : after.filter (fun t => ¬ window.Contains t.blockTimestampUtc) =
      before.filter (fun t => ¬ window.Contains t.blockTimestampUtc)) :
    ∀ flow ∈ replace TreasuryFlow.toFlowKey flows (tetherTreasuryFlow vars window now after),
      HourlyFlow vars after flow := by
  intro flow hflow
  rcases (mem_replace TreasuryFlow.toFlowKey).mp hflow with hnew | ⟨hold, hstale⟩
  · exact refreshed_inside h hnew
  · exact refreshed_outside h (hflows flow hold) hstale hkept houtside

end EthereumLogs.Dbt
