import EthereumLogs.Dbt.Amounts
import EthereumLogs.Dbt.Gold

namespace EthereumLogs.Dbt
open Python Duckdb Grouping LogNormalizer

variable {vars : DbtVars} {window : Window} {rows transfers : List Erc20Transfer} {d : ℕ}
  {transfer : Erc20Transfer} {key : FlowKey} {flow : TreasuryFlow} {now : Instant}

def usdtRows (vars : DbtVars) (window : Window) (transfers : List Erc20Transfer) :
    List Erc20Transfer :=
  transfers.filter fun transfer => transfer.contractAddress = lower vars.usdtContractAddress ∧
    window.Contains transfer.blockTimestampUtc

def External (treasury : Text) (transfer : Erc20Transfer) : Prop :=
  (transfer.fromAddress = treasury ∧ transfer.toAddress ≠ treasury) ∨
    (transfer.fromAddress ≠ treasury ∧ transfer.toAddress = treasury)

instance (treasury : Text) (transfer : Erc20Transfer) : Decidable (External treasury transfer) :=
  inferInstanceAs (Decidable (_ ∨ _))

def flowKey (treasury : Text) (transfer : Erc20Transfer) : FlowKey where
  chainId := transfer.chainId
  contractAddress := transfer.contractAddress
  treasuryAddress := treasury
  hourStartUtc := dateTruncHour transfer.blockTimestampUtc
  direction := if transfer.toAddress = treasury then .inflow else .outflow

def externalRows (vars : DbtVars) (window : Window) (transfers : List Erc20Transfer) :
    List Erc20Transfer :=
  (usdtRows vars window transfers).filter fun transfer =>
    External (lower vars.tetherTreasuryAddress) transfer

def countedIn (vars : DbtVars) (window : Window) (transfers : List Erc20Transfer)
    (key : FlowKey) : List Erc20Transfer :=
  (externalRows vars window transfers).filter fun transfer =>
    flowKey (lower vars.tetherTreasuryAddress) transfer = key

def received (treasury : Text) (rows : List Erc20Transfer) : Rat :=
  sumRaw (rows.filter fun transfer => transfer.toAddress = treasury)

def sent (treasury : Text) (rows : List Erc20Transfer) : Rat :=
  sumRaw (rows.filter fun transfer => transfer.fromAddress = treasury)

structure ExactAmount (d : ℕ) (transfer : Erc20Transfer) : Prop where
  available : transfer.amountNumericStatus = uint256StatusDecimal38Available
  amounts : ∃ raw amount, transfer.rawAmountDecimal = some raw ∧ transfer.amountUsdt = some amount ∧
    amount * 10 ^ d = raw

def ExactUsdt (vars : DbtVars) (d : ℕ) (transfers : List Erc20Transfer) : Prop :=
  ∀ transfer ∈ transfers, transfer.contractAddress = lower vars.usdtContractAddress →
    ExactAmount d transfer

structure ConservesBalance (vars : DbtVars) (window : Window) (d : ℕ)
    (transfers : List Erc20Transfer) (flows : List TreasuryFlow) : Prop where
  countedOnce : ∀ transfer ∈ externalRows vars window transfers,
    ∃! flow, flow ∈ flows ∧ flow.toFlowKey = flowKey (lower vars.tetherTreasuryAddress) transfer
  countsOnly : ∀ flow ∈ flows,
    flow.transferCount = (countedIn vars window transfers flow.toFlowKey).length ∧
      flow.totalAmountRaw = sumRaw (countedIn vars window transfers flow.toFlowKey) ∧
      flow.totalAmountUsdt = sumUsdt (countedIn vars window transfers flow.toFlowKey)
  countsAll : (flows.map TreasuryFlow.transferCount).sum =
    (externalRows vars window transfers).length
  uniqueKeys : (flows.map TreasuryFlow.toFlowKey).Nodup
  inhabited : ∀ flow ∈ flows, 1 ≤ flow.transferCount
  netFlow : totalOf .inflow TreasuryFlow.totalAmountRaw flows -
      totalOf .outflow TreasuryFlow.totalAmountRaw flows =
    received (lower vars.tetherTreasuryAddress) (usdtRows vars window transfers) -
      sent (lower vars.tetherTreasuryAddress) (usdtRows vars window transfers)
  scaled : ∀ flow ∈ flows, flow.totalAmountUsdt * 10 ^ d = flow.totalAmountRaw

def rawAmount (transfer : Erc20Transfer) : Rat := transfer.rawAmountDecimal.getD 0

theorem sumRaw_eq : sumRaw rows = (rows.map rawAmount).sum := by
  induction rows with
  | nil => rfl
  | cons transfer rows ih =>
    rw [sumRaw] at ih ⊢
    cases hraw : transfer.rawAmountDecimal with
    | none => simp [hraw, rawAmount, ih]
    | some raw => simp [hraw, rawAmount, ih]

theorem sumUsdt_scaled (h : ∀ transfer ∈ rows, ExactAmount d transfer) :
    sumUsdt rows * 10 ^ d = sumRaw rows := by
  induction rows with
  | nil => simp [sumUsdt, sumRaw]
  | cons transfer rows ih =>
    obtain ⟨raw, amount, hraw, hamount, hscaled⟩ := (h transfer List.mem_cons_self).amounts
    have hrest := ih fun t ht => h t (List.mem_cons_of_mem _ ht)
    rw [sumUsdt, sumRaw] at hrest ⊢
    rw [List.filterMap_cons_some hamount, List.filterMap_cons_some hraw, List.sum_cons,
      List.sum_cons, add_mul, hscaled, hrest]

theorem classify_external (h : External (lower vars.tetherTreasuryAddress) transfer) :
    classify vars transfer = some (flowKey (lower vars.tetherTreasuryAddress) transfer) := by
  rcases h with ⟨hfrom, hto⟩ | ⟨hfrom, hto⟩
  · simp [classify, directionOf, flowKey, hfrom, hto]
  · simp [classify, directionOf, flowKey, hto]

theorem treasuryTransfers_eq (h : ExactUsdt vars d transfers) :
    treasuryTransfers vars window transfers = externalRows vars window transfers := by
  rw [externalRows, usdtRows, List.filter_filter, treasuryTransfers]
  apply List.filter_congr
  intro transfer hmem
  rw [Bool.eq_iff_iff]
  simp only [Bool.and_eq_true, decide_eq_true_eq]
  constructor
  · rintro ⟨⟨hcontract, -, -, -, hside, hself⟩, hwindow⟩
    refine ⟨?_, hcontract, hwindow⟩
    unfold External
    tauto
  · rintro ⟨hexternal, hcontract, hwindow⟩
    obtain ⟨hstatus, raw, amount, hraw, hamount, -⟩ := h transfer hmem hcontract
    refine ⟨⟨hcontract, hstatus, by simp [hraw], by simp [hamount], ?_, ?_⟩, hwindow⟩
    · unfold External at hexternal
      tauto
    · unfold External at hexternal
      tauto

theorem mem_external (h : transfer ∈ externalRows vars window transfers) :
    External (lower vars.tetherTreasuryAddress) transfer := by
  simpa using (List.mem_filter.mp h).2

theorem classify_some (h : transfer ∈ externalRows vars window transfers) :
    classify vars transfer = some key ↔
      flowKey (lower vars.tetherTreasuryAddress) transfer = key := by
  rw [classify_external (mem_external h), Option.some.injEq]

theorem group_external :
    group (classify vars) (externalRows vars window transfers) key =
      countedIn vars window transfers key := by
  rw [group, countedIn]
  apply List.filter_congr
  intro transfer hmem
  rw [decide_eq_decide]
  exact classify_some hmem

section Query

variable (h : ExactUsdt vars d transfers)
include h

theorem flows_eq : tetherTreasuryFlow vars window now transfers =
    (keysOf (classify vars) (externalRows vars window transfers)).map fun key =>
      aggregated now key (countedIn vars window transfers key) := by
  rw [tetherTreasuryFlow, treasuryTransfers_eq h, groupBy, List.map_map]
  apply List.map_congr_left
  intro key _
  rw [Function.comp_apply, group_external]

theorem mem_flows : flow ∈ tetherTreasuryFlow vars window now transfers ↔
    ∃ key ∈ keysOf (classify vars) (externalRows vars window transfers),
      aggregated now key (countedIn vars window transfers key) = flow := by
  rw [flows_eq h, List.mem_map]

theorem flow_counted (hflow : flow ∈ tetherTreasuryFlow vars window now transfers) :
    flow = aggregated now flow.toFlowKey (countedIn vars window transfers flow.toFlowKey) := by
  obtain ⟨key, -, rfl⟩ := (mem_flows h).mp hflow
  rfl

theorem flow_inhabited (hflow : flow ∈ tetherTreasuryFlow vars window now transfers) :
    1 ≤ flow.transferCount := by
  obtain ⟨key, hkey, rfl⟩ := (mem_flows h).mp hflow
  obtain ⟨transfer, hmem, hclass⟩ := mem_keysOf.mp hkey
  have hcounted : transfer ∈ countedIn vars window transfers key :=
    List.mem_filter.mpr ⟨hmem, by simpa using (classify_some hmem).mp hclass⟩
  exact List.length_pos_of_mem hcounted

theorem flows_uniqueKeys :
    ((tetherTreasuryFlow vars window now transfers).map TreasuryFlow.toFlowKey).Nodup := by
  have hkeys : (tetherTreasuryFlow vars window now transfers).map TreasuryFlow.toFlowKey =
      keysOf (classify vars) (externalRows vars window transfers) := by
    rw [flows_eq h, List.map_map]
    exact List.map_id _
  rw [hkeys]
  exact List.nodup_dedup _

theorem external_countedOnce (hmem : transfer ∈ externalRows vars window transfers) :
    ∃! flow, flow ∈ tetherTreasuryFlow vars window now transfers ∧
      flow.toFlowKey = flowKey (lower vars.tetherTreasuryAddress) transfer := by
  have hkey : flowKey (lower vars.tetherTreasuryAddress) transfer ∈
      keysOf (classify vars) (externalRows vars window transfers) :=
    mem_keysOf.mpr ⟨transfer, hmem, classify_external (mem_external hmem)⟩
  refine ⟨_, ⟨(mem_flows h).mpr ⟨_, hkey, rfl⟩, rfl⟩, ?_⟩
  rintro flow ⟨hflow, hsame⟩
  rw [flow_counted h hflow, hsame]

theorem countedIn_exact : ∀ transfer ∈ countedIn vars window transfers key, ExactAmount d transfer := by
  intro transfer hmem
  have husdt := List.mem_of_mem_filter (List.mem_of_mem_filter hmem)
  obtain ⟨hrow, hkept⟩ := List.mem_filter.mp husdt
  exact h transfer hrow (of_decide_eq_true hkept).1

theorem sum_flows {M : Type} [AddCommMonoid M] {f : FlowKey → Erc20Transfer → M}
    {total : TreasuryFlow → M}
    (htotal : ∀ key rows, total (aggregated now key rows) = (rows.map (f key)).sum) :
    ((tetherTreasuryFlow vars window now transfers).map total).sum =
      ((externalRows vars window transfers).map fun transfer =>
        f (flowKey (lower vars.tetherTreasuryAddress) transfer) transfer).sum := by
  have hgroups : ((groupBy (classify vars) (externalRows vars window transfers)).map
      fun g => (g.2.map (f g.1)).sum).sum = _ := sum_groupBy
  rw [tetherTreasuryFlow, treasuryTransfers_eq h, List.map_map]
  have htotals : total ∘ (fun g : FlowKey × List Erc20Transfer => aggregated now g.1 g.2) =
      fun g => (g.2.map (f g.1)).sum := funext fun g => htotal g.1 g.2
  refine (congrArg (fun t => (List.map t _).sum) htotals).trans (hgroups.trans ?_)
  apply congrArg
  apply List.map_congr_left
  intro transfer hmem
  rw [classify_external (mem_external hmem)]
  rfl

theorem countsAll_rows : ((tetherTreasuryFlow vars window now transfers).map
    TreasuryFlow.transferCount).sum = (externalRows vars window transfers).length := by
  have hcount : ∀ key rows, (aggregated now key rows).transferCount =
      (rows.map fun _ => 1).sum := by simp [aggregated]
  rw [sum_flows h hcount]
  simp

theorem totalOf_flows (direction : Direction) :
    totalOf direction TreasuryFlow.totalAmountRaw (tetherTreasuryFlow vars window now transfers) =
      ((usdtRows vars window transfers).map fun transfer =>
        if External (lower vars.tetherTreasuryAddress) transfer then
          if (flowKey (lower vars.tetherTreasuryAddress) transfer).direction = direction then
            rawAmount transfer
          else 0
        else 0).sum := by
  have htotal : ∀ key rows, (if (aggregated now key rows).direction = direction then
      (aggregated now key rows).totalAmountRaw else 0) =
        (rows.map fun transfer => if key.direction = direction then rawAmount transfer else 0).sum := by
    intro key rows
    change (if key.direction = direction then sumRaw rows else 0) = _
    split_ifs with hdirection
    · exact sumRaw_eq
    · simp
  rw [totalOf, directed, sum_flows h htotal, externalRows, sum_filter]

end Query

theorem sumRaw_filter (P : Erc20Transfer → Prop) [DecidablePred P] :
    sumRaw (rows.filter fun transfer => P transfer) =
      (rows.map fun transfer => if P transfer then rawAmount transfer else 0).sum := by
  rw [sumRaw_eq, sum_filter]

theorem row_balance (treasury : Text) (transfer : Erc20Transfer) (raw : Rat) :
    (if External treasury transfer then
        if (flowKey treasury transfer).direction = .inflow then raw else 0 else 0) +
      (if transfer.fromAddress = treasury then raw else 0) =
    (if transfer.toAddress = treasury then raw else 0) +
      (if External treasury transfer then
        if (flowKey treasury transfer).direction = .outflow then raw else 0 else 0) := by
  by_cases hfrom : transfer.fromAddress = treasury
  · by_cases hto : transfer.toAddress = treasury
    · simp [External, hfrom, hto]
    · simp [External, flowKey, hfrom, hto]
  · by_cases hto : transfer.toAddress = treasury
    · simp [External, flowKey, hfrom, hto]
    · simp [External, hfrom, hto]

theorem netFlow_balance (h : ExactUsdt vars d transfers) :
    totalOf .inflow TreasuryFlow.totalAmountRaw (tetherTreasuryFlow vars window now transfers) -
      totalOf .outflow TreasuryFlow.totalAmountRaw (tetherTreasuryFlow vars window now transfers) =
    received (lower vars.tetherTreasuryAddress) (usdtRows vars window transfers) -
      sent (lower vars.tetherTreasuryAddress) (usdtRows vars window transfers) := by
  rw [sub_eq_sub_iff_add_eq_add, totalOf_flows h, totalOf_flows h, received, sent, sumRaw_filter,
    sumRaw_filter, ← List.sum_map_add, ← List.sum_map_add]
  exact congrArg List.sum (List.map_congr_left fun transfer _ => row_balance _ transfer _)

theorem treasury_flow_conserves_balance (vars : DbtVars) (window : Window) (now : Instant) (d : ℕ)
    (transfers : List Erc20Transfer) (h : ExactUsdt vars d transfers) :
    ConservesBalance vars window d transfers (tetherTreasuryFlow vars window now transfers) where
  countedOnce _ hmem := external_countedOnce h hmem
  countsOnly flow hflow := by
    have hcounted := flow_counted h hflow
    exact ⟨congrArg TreasuryFlow.transferCount hcounted, congrArg TreasuryFlow.totalAmountRaw hcounted,
      congrArg TreasuryFlow.totalAmountUsdt hcounted⟩
  countsAll := countsAll_rows h
  uniqueKeys := flows_uniqueKeys h
  inhabited _ hflow := flow_inhabited h hflow
  netFlow := netFlow_balance h
  scaled flow hflow := by
    rw [flow_counted h hflow]
    exact sumUsdt_scaled (countedIn_exact h)

def treasuryRow (fromAddress toAddress : Text) (units : ℕ) : Erc20Transfer where
  chainId := 1
  blockNumber := 1
  blockTimestampUtc := 0
  blockDateUtc := 0
  intervalStartUtc := 0
  intervalEndUtc := 1
  transactionHash := "0xaa".toList
  logIndex := 0
  contractAddress := lower usdtContractAddress
  fromAddress := fromAddress
  toAddress := toAddress
  dataRaw := uint256Hex (units * 10 ^ 6)
  rawAmountDecimalText := some (decimalText (units * 10 ^ 6))
  rawAmountDecimal := some (units * 10 ^ 6 : ℕ)
  amountNumericStatus := uint256StatusDecimal38Available
  amountUsdtDecimalText := some (decimalText units ++ ".000000".toList)
  amountUsdt := some units
  ingestedAtUtc := 0

def treasuryRows : List Erc20Transfer :=
  [treasuryRow "0xa".toList (lower tetherTreasuryAddress) 5,
    treasuryRow (lower tetherTreasuryAddress) "0xb".toList 2,
    treasuryRow (lower tetherTreasuryAddress) (lower tetherTreasuryAddress) 9]

theorem treasury_flow_conserves_balance_day :
    ConservesBalance usdtVars ⟨0, 1⟩ 6 treasuryRows
      (tetherTreasuryFlow usdtVars ⟨0, 1⟩ 0 treasuryRows) := by
  apply treasury_flow_conserves_balance
  intro transfer hmem _
  simp only [treasuryRows, List.mem_cons, List.not_mem_nil, or_false] at hmem
  rcases hmem with rfl | rfl | rfl
  · exact ⟨rfl, _, _, rfl, rfl, by norm_num⟩
  · exact ⟨rfl, _, _, rfl, rfl, by norm_num⟩
  · exact ⟨rfl, _, _, rfl, rfl, by norm_num⟩

end EthereumLogs.Dbt
