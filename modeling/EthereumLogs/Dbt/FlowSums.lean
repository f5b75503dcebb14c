import EthereumLogs.Dbt.Balance

namespace EthereumLogs.Dbt
open Python Duckdb Grouping LogNormalizer

variable {vars : DbtVars} {window : Window} {transfers : List Erc20Transfer} {key : FlowKey}
  {flow : TreasuryFlow} {flows : List TreasuryFlow} {now : Instant} {d scale : ℕ}
  {direction : Direction} {amount : TreasuryFlow → Rat}

structure FlowFits (d : ℕ) (flow : TreasuryFlow) : Prop where
  raw : FitsHugeint 0 flow.totalAmountRaw
  usdt : FitsHugeint d flow.totalAmountUsdt

theorem flowSumsFit_fits (h : flowSumsFit vars window transfers = true)
    (hflow : flow ∈ tetherTreasuryFlow vars window now transfers) :
    FlowFits vars.usdtDecimals flow := by
  obtain ⟨⟨key, rows⟩, hmem, rfl⟩ := List.mem_map.mp hflow
  have hrows : sumsFit vars rows = true := List.all_eq_true.mp h _ hmem
  rw [sumsFit, Bool.and_eq_true] at hrows
  exact ⟨sumDecimal_fits hrows.1, sumDecimal_fits hrows.2⟩

structure SilverAmounts (d : ℕ) (transfer : Erc20Transfer) : Prop where
  rawNonneg : ∀ raw ∈ transfer.rawAmountDecimal, 0 ≤ raw
  usdtNonneg : ∀ amount ∈ transfer.amountUsdt, 0 ≤ amount
  scaled : ∀ raw ∈ transfer.rawAmountDecimal, ∀ amount ∈ transfer.amountUsdt, amount * 10 ^ d = raw

theorem SilverAmounts.exact {transfer : Erc20Transfer} (h : SilverAmounts d transfer)
    (hbelongs : Belongs key transfer) : ExactAmount d transfer := by
  obtain ⟨-, -, -, -, -, hstatus, hraw, husdt⟩ := hbelongs
  obtain ⟨raw, hraw⟩ := Option.ne_none_iff_exists'.mp hraw
  obtain ⟨amount, hamount⟩ := Option.ne_none_iff_exists'.mp husdt
  exact ⟨hstatus, raw, amount, hraw, hamount, h.scaled raw hraw amount hamount⟩

theorem sumsFit_iff (h : ∀ t ∈ transfers, SilverAmounts vars.usdtDecimals t ∧ Belongs key t) :
    sumsFit vars transfers = true ↔ sumRaw transfers < 2 ^ 127 := by
  have hscaled := sumUsdt_scaled fun t ht => (h t ht).1.exact (h t ht).2
  have hraw : ∀ raw ∈ transfers.filterMap Erc20Transfer.rawAmountDecimal, 0 ≤ raw := by
    intro raw hmem
    obtain ⟨t, ht, hvalue⟩ := List.mem_filterMap.mp hmem
    exact (h t ht).1.rawNonneg raw hvalue
  have husdt : ∀ amount ∈ transfers.filterMap Erc20Transfer.amountUsdt, 0 ≤ amount := by
    intro amount hmem
    obtain ⟨t, ht, hvalue⟩ := List.mem_filterMap.mp hmem
    exact (h t ht).1.usdtNonneg amount hvalue
  rw [sumUsdt, sumRaw] at hscaled
  rw [sumsFit, Bool.and_eq_true, sumDecimal_isSome hraw, sumDecimal_isSome husdt, sumRaw,
    fitsHugeint_iff (List.sum_nonneg hraw), fitsHugeint_iff (List.sum_nonneg husdt), hscaled, pow_zero,
    mul_one, and_self_iff]

def TotalsFit (vars : DbtVars) (window : Window) (transfers : List Erc20Transfer) : Prop :=
  ∀ key, ConfiguredKey vars key → sumRaw ((transfersOf transfers key).filter
    fun t => window.Contains t.blockTimestampUtc) < 2 ^ 127

theorem flowSumsFit_iff (h : ∀ t ∈ transfers, SilverAmounts vars.usdtDecimals t) :
    flowSumsFit vars window transfers = true ↔ TotalsFit vars window transfers := by
  have hgroup : ∀ key, ∀ t ∈ (transfersOf transfers key).filter
      (fun t => window.Contains t.blockTimestampUtc),
        SilverAmounts vars.usdtDecimals t ∧ Belongs key t := by
    intro key t ht
    obtain ⟨hmem, hbelongs⟩ := List.mem_filter.mp (List.mem_of_mem_filter ht)
    exact ⟨h t hmem, of_decide_eq_true hbelongs⟩
  rw [flowSumsFit, List.all_eq_true]
  constructor
  · intro hsums key hkey
    rw [← sumsFit_iff (hgroup key)]
    by_cases hempty : (transfersOf transfers key).filter
        (fun t => window.Contains t.blockTimestampUtc) = []
    · rw [hempty]
      rfl
    · have hrows : group (classify vars) (treasuryTransfers vars window transfers) key = _ :=
        group_window hkey
      exact hsums (key, _) (mem_groupBy.mpr ⟨by rw [hrows]; exact hempty, hrows.symm⟩)
  · rintro htotals ⟨key, rows⟩ hmem
    obtain ⟨hne, rfl⟩ := mem_groupBy.mp hmem
    obtain ⟨t, ht, hclass⟩ := group_ne_nil.mp hne
    have hkept := of_decide_eq_true (List.mem_filter.mp ht).2
    have hkey := (classified_iff.mp ⟨hkept.1, hclass⟩).1
    rw [group_window hkey]
    exact (sumsFit_iff (hgroup key)).mpr (htotals key hkey)

theorem TotalsFit.of_perm {transfers' : List Erc20Transfer}
    (h : (transfers.filter fun t => window.Contains t.blockTimestampUtc).Perm
      (transfers'.filter fun t => window.Contains t.blockTimestampUtc)) :
    TotalsFit vars window transfers ↔ TotalsFit vars window transfers' := by
  refine forall₂_congr fun key _ => ?_
  have hrows : ((transfersOf transfers key).filter fun t => window.Contains t.blockTimestampUtc).Perm
      ((transfersOf transfers' key).filter fun t => window.Contains t.blockTimestampUtc) := by
    rw [transfersOf, transfersOf, List.filter_comm, List.filter_comm (l := transfers')]
    exact h.filter _
  rw [sumRaw, sumRaw, (hrows.filterMap _).sum_eq]

theorem directions_nodup {keys : List FlowKey} {chainId : Int} {contract treasury : Text}
    {hour : Instant} (h : keys.Nodup)
    (hkeys : ∀ key ∈ keys, key = ⟨chainId, contract, treasury, hour, key.direction⟩) :
    (keys.map FlowKey.direction).Nodup := by
  refine h.map_on fun key hkey key' hkey' hsame => ?_
  rw [hkeys key hkey, hkeys key' hkey', hsame]

theorem totalOf_absent (h : direction ∉ flows.map fun flow => flow.direction) :
    totalOf direction amount flows = 0 := by
  apply List.sum_eq_zero
  intro value hvalue
  obtain ⟨flow, hflow, rfl⟩ := List.mem_map.mp hvalue
  exact if_neg fun hsame => h (List.mem_map.mpr ⟨flow, hflow, hsame⟩)

theorem totalOf_single (direction : Direction) (h : (flows.map fun flow => flow.direction).Nodup) :
    (∀ amount, totalOf direction amount flows = 0) ∨
      ∃ flow ∈ flows, ∀ amount, totalOf direction amount flows = amount flow := by
  induction flows with
  | nil => exact .inl fun _ => rfl
  | cons flow flows ih =>
    obtain ⟨hfresh, hrest⟩ := List.nodup_cons.mp h
    have hcons : ∀ amount, totalOf direction amount (flow :: flows) =
        (if flow.direction = direction then amount flow else 0) + totalOf direction amount flows :=
      fun amount => List.sum_cons
    by_cases hside : flow.direction = direction
    · refine .inr ⟨flow, List.mem_cons_self, fun amount => ?_⟩
      rw [hcons, if_pos hside, totalOf_absent (hside ▸ hfresh), add_zero]
    · simp only [hcons, if_neg hside, zero_add]
      exact (ih hrest).imp_right fun ⟨other, hother, hrow⟩ =>
        ⟨other, List.mem_cons_of_mem _ hother, hrow⟩

theorem sumDecimal_directed (h : (flows.map fun flow => flow.direction).Nodup)
    (hfits : ∀ flow ∈ flows, FitsHugeint scale (amount flow)) :
    sumDecimal scale (directed direction amount flows) = some (totalOf direction amount flows) := by
  apply sumDecimal_of_prefixes
  intro front hfront
  obtain ⟨rows, hrows, rfl⟩ := List.prefix_map_iff.mp hfront
  have hsub : (rows.map fun flow => flow.direction).Nodup := h.sublist (hrows.map _).sublist
  change FitsHugeint scale (totalOf direction amount rows)
  rcases totalOf_single direction hsub with hzero | ⟨flow, hflow, htotal⟩
  · rw [hzero]
    exact fitsHugeint_zero scale
  · rw [htotal]
    exact hfits flow (hrows.subset hflow)

theorem totalOf_summedUsdt (direction : Direction) (d : ℕ)
    (h : (flows.map fun flow => flow.direction).Nodup) :
    totalOf direction (summedUsdt d) flows =
      castScale d (commonScale d 6) (totalOf direction TreasuryFlow.totalAmountUsdt flows) := by
  rcases totalOf_single direction h with hzero | ⟨flow, -, htotal⟩
  · rw [hzero, hzero, castScale_zero]
  · rw [htotal, htotal]
    rfl

def summaryOf (usdtDecimals : ℕ) (window : Window) (flow : List TreasuryFlow) : QualitySummary where
  windowStartUtc := window.start
  windowEndUtc := window.stop
  flowRowCount := flow.length
  transferCount := (flow.map TreasuryFlow.transferCount).sum
  directionCount := (flow.map fun f => f.direction).dedup.length
  firstHourStartUtc := (flow.map fun f => f.hourStartUtc).min?
  lastHourStartUtc := (flow.map fun f => f.hourStartUtc).max?
  totalInflowRaw := totalOf .inflow TreasuryFlow.totalAmountRaw flow
  totalOutflowRaw := totalOf .outflow TreasuryFlow.totalAmountRaw flow
  totalInflowUsdt := castScale usdtDecimals (commonScale usdtDecimals 6)
    (totalOf .inflow TreasuryFlow.totalAmountUsdt flow)
  totalOutflowUsdt := castScale usdtDecimals (commonScale usdtDecimals 6)
    (totalOf .outflow TreasuryFlow.totalAmountUsdt flow)

theorem summarize_single (h : (flows.map fun flow => flow.direction).Nodup)
    (hfits : ∀ flow ∈ flows, FlowFits d flow) (hnonneg : ∀ flow ∈ flows, 0 ≤ flow.totalAmountUsdt) :
    summarize d window flows = some (summaryOf d window flows) := by
  have hraw : ∀ flow ∈ flows, FitsHugeint 0 flow.totalAmountRaw := fun flow hflow => (hfits flow hflow).raw
  have husdt : ∀ flow ∈ flows, FitsHugeint (commonScale d 6) (summedUsdt d flow) := fun flow hflow =>
    castScale_fits (commonScale_le d 6) (hnonneg flow hflow) (hfits flow hflow).usdt
  simp only [summarize, sumDecimal_directed h hraw, sumDecimal_directed h husdt,
    totalOf_summedUsdt _ _ h, Option.bind_eq_bind, Option.bind_some]
  rfl

structure SummaryFits (d : ℕ) (window : Window) (flows : List TreasuryFlow) : Prop where
  raw : ∀ direction, FitsHugeint 0
    (totalOf direction TreasuryFlow.totalAmountRaw (flowOfWindow window flows))
  usdt : ∀ direction, FitsHugeint (commonScale d 6)
    (totalOf direction (summedUsdt d) (flowOfWindow window flows))

theorem directed_nonneg (h : ∀ flow ∈ flows, 0 ≤ amount flow) :
    ∀ value ∈ directed direction amount flows, 0 ≤ value := by
  intro value hvalue
  obtain ⟨flow, hflow, rfl⟩ := List.mem_map.mp hvalue
  split_ifs
  · exact h flow hflow
  · exact le_rfl

theorem summarize_isSome (d : ℕ) (window : Window) (flows : List TreasuryFlow) :
    (summarize d window flows).isSome = true ↔ ∀ direction,
      (sumDecimal 0 (directed direction TreasuryFlow.totalAmountRaw flows)).isSome = true ∧
      (sumDecimal (commonScale d 6) (directed direction (summedUsdt d) flows)).isSome = true := by
  constructor
  · intro h
    obtain ⟨_, h⟩ := Option.isSome_iff_exists.mp h
    obtain ⟨_, hinflowRaw, h⟩ := Option.bind_eq_some_iff.mp h
    obtain ⟨_, houtflowRaw, h⟩ := Option.bind_eq_some_iff.mp h
    obtain ⟨_, hinflowUsdt, h⟩ := Option.bind_eq_some_iff.mp h
    obtain ⟨_, houtflowUsdt, -⟩ := Option.bind_eq_some_iff.mp h
    intro direction
    cases direction with
    | inflow => exact ⟨Option.isSome_of_eq_some hinflowRaw, Option.isSome_of_eq_some hinflowUsdt⟩
    | outflow => exact ⟨Option.isSome_of_eq_some houtflowRaw, Option.isSome_of_eq_some houtflowUsdt⟩
  · intro h
    obtain ⟨_, hinflowRaw⟩ := Option.isSome_iff_exists.mp (h .inflow).1
    obtain ⟨_, houtflowRaw⟩ := Option.isSome_iff_exists.mp (h .outflow).1
    obtain ⟨_, hinflowUsdt⟩ := Option.isSome_iff_exists.mp (h .inflow).2
    obtain ⟨_, houtflowUsdt⟩ := Option.isSome_iff_exists.mp (h .outflow).2
    simp only [summarize, hinflowRaw, houtflowRaw, hinflowUsdt, houtflowUsdt]
    rfl

theorem qualitySummary_isSome_iff (hraw : ∀ flow ∈ flows, 0 ≤ flow.totalAmountRaw)
    (husdt : ∀ flow ∈ flows, 0 ≤ flow.totalAmountUsdt) :
    (tetherTreasuryFlowQualitySummary d window flows).isSome = true ↔ SummaryFits d window flows := by
  have hraws : ∀ direction, ∀ value ∈ directed direction TreasuryFlow.totalAmountRaw
      (flowOfWindow window flows), 0 ≤ value := fun direction =>
    directed_nonneg fun flow hflow => hraw flow (List.mem_of_mem_filter hflow)
  have husdts : ∀ direction, ∀ value ∈ directed direction (summedUsdt d) (flowOfWindow window flows),
      0 ≤ value := fun direction =>
    directed_nonneg fun flow hflow => castScale_nonneg (husdt flow (List.mem_of_mem_filter hflow))
  rw [tetherTreasuryFlowQualitySummary, summarize_isSome]
  simp only [sumDecimal_isSome (hraws _), sumDecimal_isSome (husdts _)]
  exact ⟨fun h => ⟨fun direction => (h direction).1, fun direction => (h direction).2⟩,
    fun h direction => ⟨h.raw direction, h.usdt direction⟩⟩

end EthereumLogs.Dbt
