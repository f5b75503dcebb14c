import EthereumLogs.Dbt.AmountAgreement
import EthereumLogs.Dbt.FlowSums
import EthereumLogs.LogNormalizer.HexFields
import Mathlib.Algebra.Order.BigOperators.Group.List

namespace EthereumLogs.Dbt
open Python Duckdb Effect Grouping Keyed LogNormalizer DeltaWriter

variable {vars : DbtVars} {window : Window} {raw : List LogRow} {row : LogRow}
  {transfer : Erc20Transfer} {transfers : List Erc20Transfer} {flow : TreasuryFlow}
  {flows : List TreasuryFlow} {now : Instant} {topic address : Text}

theorem canonicalRow_uint256 (h : CanonicalRow row) :
    (row.dataUint256DecimalText = none ∧
        row.dataUint256DecodeStatus = uint256StatusNotUint256Word) ∨
      ∃ v, WordColumns (stagedLog row) v := by
  rcases decode_ok h.redecoded with hnot | ⟨v, hword⟩
  · exact .inl (Uint256DecodeResult.mk.inj hnot)
  · exact .inr ⟨v, Uint256DecodeResult.mk.inj hword⟩

theorem canonicalRow_checked (h : CanonicalRow row) :
    ethereumLogsUint256Contract (stagedLog row) = false := by
  rcases canonicalRow_uint256 h with ⟨htext, hstatus⟩ | ⟨v, hcolumns⟩
  · have htext' : (stagedLog row).dataUint256DecimalText = none := htext
    have hstatus' : (stagedLog row).dataUint256DecodeStatus = uint256StatusNotUint256Word := hstatus
    simp [ethereumLogsUint256Contract, htext', hstatus', word_statuses_ne.1.symm,
      word_statuses_ne.2.symm]
  · exact ethereumLogsUint256Contract_passes hcolumns

theorem ethereumLogsTests_pass (hraw : RawContract raw) (h : ∀ row ∈ raw, CanonicalRow row) :
    ethereumLogsTests (ethereumLogs raw) = true := by
  have hkeys : (ethereumLogs raw).map logKey = raw.map logKey := by
    rw [ethereumLogs, List.map_map]
    exact List.map_congr_left fun row hrow => hraw.stagedKey hrow
  rw [ethereumLogsTests, hkeys, decide_eq_true_eq, List.all_eq_true]
  refine ⟨hraw.unique, ?_⟩
  intro log hlog
  obtain ⟨row, hrow, rfl⟩ := List.mem_map.mp hlog
  rw [canonicalRow_checked (h row hrow)]
  rfl

theorem matchesHexWord_iff {digits : ℕ} {s : Text} : matchesHexWord digits s = true ↔
    ∃ body, s = '0' :: 'x' :: body ∧ body.length = digits ∧ ∀ c ∈ body, isLowerHexDigit c = true := by
  rw [matchesHexWord, Bool.and_eq_true, Bool.and_eq_true, beq_iff_eq, List.all_eq_true]
  constructor
  · rintro ⟨⟨hstarts, hlength⟩, hdigits⟩
    exact ⟨s.drop 2, startsWith0x_split hstarts, hlength, hdigits⟩
  · rintro ⟨body, rfl, hlength, hdigits⟩
    exact ⟨⟨rfl, hlength⟩, hdigits⟩

theorem decodeEthereumAddress_matches (h : decodeEthereumAddress (some topic) = some address) :
    matchesHexWord 40 address = true := by
  simp only [decodeEthereumAddress] at h
  split_ifs at h with hword
  cases h
  obtain ⟨body, hbody, hlength, hdigits⟩ := matchesHexWord_iff.mp hword
  have hsize : topic.length = 66 := by
    have hsame : (lower topic).length = topic.length := List.length_map _
    rw [← hsame, hbody]
    simp [hlength]
  have hright : lower (right topic 40) = body.drop 24 := by
    rw [right, hsize]
    have hdrop : lower (topic.drop 26) = (lower topic).drop 26 := List.map_drop
    rw [hdrop, hbody]
    rfl
  refine matchesHexWord_iff.mpr ⟨body.drop 24, ?_, by simp [hlength], ?_⟩
  · rw [← hright]
    rfl
  · intro c hc
    exact hdigits c (List.mem_of_mem_drop hc)

theorem transferOf_staged (h : transferOf vars row = some transfer) :
    HasTransferShape (stagedLog row) ∧ decodeTransfer vars (stagedLog row) = some transfer := by
  unfold transferOf at h
  split_ifs at h with hshape
  exact ⟨hshape, h⟩

structure SilverColumns (row : LogRow) (transfer : Erc20Transfer) : Prop where
  fromAddress : matchesHexWord 40 transfer.fromAddress = true
  toAddress : matchesHexWord 40 transfer.toAddress = true
  chain : transfer.chainId = row.chainId
  data : transfer.dataRaw = lower row.dataRaw

theorem transferOf_columns (h : transferOf vars row = some transfer) : SilverColumns row transfer := by
  obtain ⟨⟨-, htopic1, htopic2, -⟩, hdecoded⟩ := transferOf_staged h
  obtain ⟨topic1, h1⟩ := Option.ne_none_iff_exists'.mp htopic1
  obtain ⟨topic2, h2⟩ := Option.ne_none_iff_exists'.mp htopic2
  obtain ⟨fromAddress, hfrom, hrest⟩ := Option.bind_eq_some_iff.mp hdecoded
  obtain ⟨toAddress, hto, hrest⟩ := Option.bind_eq_some_iff.mp hrest
  rw [h1] at hfrom
  rw [h2] at hto
  cases hrest
  exact ⟨decodeEthereumAddress_matches hfrom, decodeEthereumAddress_matches hto, rfl, rfl⟩

theorem transferOf_word (hrow : CanonicalRow row) (h : transferOf vars row = some transfer) :
    ∃ v, WordColumns (stagedLog row) v := by
  rcases canonicalRow_uint256 hrow with ⟨-, hstatus⟩ | hcolumns
  · have hshape := (transferOf_staged h).1.2.2.2.2.1
    have hstatus' : (stagedLog row).dataUint256DecodeStatus = uint256StatusNotUint256Word := hstatus
    rw [hstatus'] at hshape
    simp [word_statuses_ne.1.symm, word_statuses_ne.2.symm] at hshape
  · exact hcolumns

structure Analysable (vars : DbtVars) (transfer : Erc20Transfer) : Prop where
  word : matchesHexWord 64 transfer.dataRaw = true
  fits : transfer.contractAddress = lower vars.usdtContractAddress →
    transfer.amountNumericStatus = uint256StatusDecimal38Available

theorem erc20TransferIntegrity_iff (hrow : CanonicalRow row)
    (h : transferOf vars row = some transfer) :
    erc20TransferIntegrity transfer = false ↔ matchesHexWord 64 transfer.dataRaw = true := by
  obtain ⟨v, htext, hstatus⟩ := transferOf_word hrow h
  obtain ⟨-, htext', hstatus', -⟩ := decodeTransfer_amounts (transferOf_staged h).2
  have hcolumns := transferOf_columns h
  have hknown : statusOf v = uint256StatusDecimal38Available ∨
      statusOf v = uint256StatusOutsideDecimal38Range :=
    (statusOf_cases v).imp And.right And.right
  rw [erc20TransferIntegrity, hstatus', hstatus, htext', htext]
  simp [hcolumns.fromAddress, hcolumns.toAddress, hknown, canonical_decimalText]

theorem nonUsdtAmountUsdtNull_passes (h : transferOf vars row = some transfer) :
    nonUsdtAmountUsdtNull vars transfer = false := by
  obtain ⟨hcontract, -, -, -, hamountText, hamount⟩ := decodeTransfer_amounts (transferOf_staged h).2
  by_cases husdt : transfer.contractAddress = lower vars.usdtContractAddress
  · simp [nonUsdtAmountUsdtNull, husdt]
  · have hother : ¬ ((stagedLog row).contractAddress = lower vars.usdtContractAddress ∧
        (stagedLog row).dataUint256DecodeStatus = uint256StatusDecimal38Available) :=
      fun hboth => husdt (hcontract.trans hboth.1)
    rw [amountUsdtDecimalText, if_neg hother] at hamountText
    rw [hamountText] at hamount
    simp [nonUsdtAmountUsdtNull, hamountText, hamount]

theorem usdtAmountNumericNotNull_iff (hrow : CanonicalRow row)
    (h : transferOf vars row = some transfer) : usdtAmountNumericNotNull vars transfer = false ↔
      (transfer.contractAddress = lower vars.usdtContractAddress →
        transfer.amountNumericStatus = uint256StatusDecimal38Available) := by
  have hdecoded := (transferOf_staged h).2
  obtain ⟨v, htext, hstatus⟩ := transferOf_word hrow h
  obtain ⟨-, -, hstatus', -⟩ := decodeTransfer_amounts hdecoded
  constructor
  · intro hpasses husdt
    by_contra hnot
    simp [usdtAmountNumericNotNull, husdt, hnot] at hpasses
  · intro hfits
    by_cases husdt : transfer.contractAddress = lower vars.usdtContractAddress
    · have havailable := hfits husdt
      rw [hstatus', hstatus] at havailable
      have hlog : AvailableText (stagedLog row) (decimalText v) :=
        ⟨htext, hstatus.trans havailable, canonical_decimalText,
          by rw [digitsValue_decimalText]; exact statusOf_available.mp havailable⟩
      exact usdtAmountNumericNotNull_passes hlog hdecoded
    · simp [usdtAmountNumericNotNull, husdt]

theorem erc20TransfersTests_iff (hcanonical : ∀ row ∈ raw, CanonicalRow row)
    (hsound : Sound vars raw transfers) :
    erc20TransfersTests vars transfers = true ↔ ∀ transfer ∈ transfers, Analysable vars transfer := by
  rw [erc20TransfersTests, List.all_eq_true]
  refine forall₂_congr fun transfer ht => ?_
  obtain ⟨row, hrow, -, hdecoded⟩ := hsound.decoded transfer ht
  have hcolumns := hcanonical row hrow
  obtain ⟨v, hword⟩ := transferOf_word hcolumns hdecoded
  have hamounts := erc20AmountNumericStatusIntegrity_passes hword (transferOf_staged hdecoded).2
  simp only [hamounts, nonUsdtAmountUsdtNull_passes hdecoded, Bool.not_false, Bool.true_and,
    Bool.and_true, Bool.and_eq_true, Bool.not_eq_true', erc20TransferIntegrity_iff hcolumns hdecoded,
    usdtAmountNumericNotNull_iff hcolumns hdecoded]
  exact ⟨fun h => ⟨h.1, h.2⟩, fun h => ⟨h.word, h.fits⟩⟩

structure FlowContract (vars : DbtVars) (flow : TreasuryFlow) : Prop where
  configured : ConfiguredKey vars flow.toFlowKey
  mainnet : flow.chainId = 1
  counted : flow.transferCount ≠ 0
  rawNonneg : 0 ≤ flow.totalAmountRaw
  usdtNonneg : 0 ≤ flow.totalAmountUsdt

structure FlowsContract (vars : DbtVars) (flows : List TreasuryFlow) : Prop where
  uniqueKeys : (flows.map TreasuryFlow.toFlowKey).Nodup
  flows : ∀ flow ∈ flows, FlowContract vars flow

theorem FlowsContract.empty (vars : DbtVars) : FlowsContract vars [] :=
  ⟨.nil, by simp⟩

theorem tetherTreasuryFlowTests_iff :
    tetherTreasuryFlowTests vars flows = true ↔ FlowsContract vars flows := by
  rw [tetherTreasuryFlowTests, decide_eq_true_eq, List.all_eq_true]
  constructor
  · rintro ⟨hunique, hflows⟩
    refine ⟨hunique, fun flow hflow => ?_⟩
    have hpasses := hflows flow hflow
    simp only [treasuryFlowIntegrity, Bool.not_eq_true', decide_eq_false_iff_not, not_or, not_not,
      not_lt] at hpasses
    obtain ⟨hmainnet, hcontract, htreasury, hcounted, hraw, husdt⟩ := hpasses
    exact ⟨⟨hcontract, htreasury⟩, hmainnet, hcounted, hraw, husdt⟩
  · intro h
    refine ⟨h.uniqueKeys, ?_⟩
    intro flow hflow
    obtain ⟨⟨hcontract, htreasury⟩, hmainnet, hcounted, hraw, husdt⟩ := h.flows flow hflow
    simp [treasuryFlowIntegrity, hcontract, htreasury, hmainnet, hcounted, hraw, husdt]

theorem transferOf_amounts (hrow : CanonicalRow row) (h : transferOf vars row = some transfer) :
    SilverAmounts vars.usdtDecimals transfer := by
  obtain ⟨v, hword⟩ := transferOf_word hrow h
  have hstaged := (transferOf_staged h).2
  have hraw : ∀ a ∈ transfer.rawAmountDecimal, a = v := by
    intro a ha
    rw [rawAmountDecimal_word hword hstaged] at ha
    split_ifs at ha
    · cases ha
      rfl
    · cases ha
  refine ⟨?_, ?_, ?_⟩
  · intro a ha
    rw [hraw a ha]
    positivity
  · intro a ha
    rw [amountUsdt_word hword hstaged ha]
    positivity
  · intro a ha b hb
    rw [hraw a ha, amountUsdt_word hword hstaged hb, div_mul_cancel₀ _ (by positivity)]

structure MainnetAmounts (vars : DbtVars) (transfer : Erc20Transfer) : Prop extends
    SilverAmounts vars.usdtDecimals transfer where
  mainnet : transfer.chainId = 1

theorem Sound.amounts (hcanonical : ∀ row ∈ raw, CanonicalRow row) (hsound : Sound vars raw transfers)
    (ht : transfer ∈ transfers) : SilverAmounts vars.usdtDecimals transfer := by
  obtain ⟨row, hrow, -, hdecoded⟩ := hsound.decoded transfer ht
  exact transferOf_amounts (hcanonical row hrow) hdecoded

theorem Sound.mainnetAmounts (hcanonical : ∀ row ∈ raw, CanonicalRow row)
    (hmainnet : ∀ row ∈ raw, row.chainId = 1) (hsound : Sound vars raw transfers)
    (ht : transfer ∈ transfers) : MainnetAmounts vars transfer := by
  obtain ⟨row, hrow, -, hdecoded⟩ := hsound.decoded transfer ht
  exact ⟨transferOf_amounts (hcanonical row hrow) hdecoded,
    (transferOf_columns hdecoded).chain.trans (hmainnet row hrow)⟩

theorem aggregated_contract (hamounts : ∀ t ∈ transfers, MainnetAmounts vars t)
    (hflow : flow ∈ tetherTreasuryFlow vars window now transfers) : FlowContract vars flow := by
  obtain ⟨hconfigured, hinhabited, now', htotals⟩ := tetherTreasuryFlow_from hflow
  have hmem : ∀ t ∈ (transfersOf transfers flow.toFlowKey).filter
      (fun t => window.Contains t.blockTimestampUtc), MainnetAmounts vars t ∧ Belongs flow.toFlowKey t := by
    intro t ht
    have hbelongs := List.mem_filter.mp (List.mem_filter.mp ht).1
    exact ⟨hamounts t hbelongs.1, of_decide_eq_true hbelongs.2⟩
  obtain ⟨t, ht⟩ := List.exists_mem_of_ne_nil _ hinhabited
  refine ⟨hconfigured, ?_, ?_, ?_, ?_⟩
  · exact (hmem t ht).2.1.symm.trans (hmem t ht).1.mainnet
  · rw [htotals]
    exact (List.length_pos_iff.mpr hinhabited).ne'
  · rw [htotals]
    apply List.sum_nonneg
    intro a ha
    obtain ⟨t, ht, hraw⟩ := List.mem_filterMap.mp ha
    exact (hmem t ht).1.rawNonneg a hraw
  · rw [htotals]
    apply List.sum_nonneg
    intro a ha
    obtain ⟨t, ht, husdt⟩ := List.mem_filterMap.mp ha
    exact (hmem t ht).1.usdtNonneg a husdt

theorem tetherTreasuryFlow_keys (vars : DbtVars) (window : Window) (now : Instant)
    (transfers : List Erc20Transfer) :
    ((tetherTreasuryFlow vars window now transfers).map TreasuryFlow.toFlowKey).Nodup := by
  have hkeys : (tetherTreasuryFlow vars window now transfers).map TreasuryFlow.toFlowKey =
      keysOf (classify vars) (treasuryTransfers vars window transfers) := by
    rw [tetherTreasuryFlow, groupBy, List.map_map, List.map_map]
    exact List.map_id _
  rw [hkeys]
  exact List.nodup_dedup _

theorem FlowsContract.refreshed (h : FlowsContract vars flows)
    (hamounts : ∀ t ∈ transfers, MainnetAmounts vars t) : FlowsContract vars
      (replace TreasuryFlow.toFlowKey flows (tetherTreasuryFlow vars window now transfers)) := by
  have hnew : ∀ flow ∈ tetherTreasuryFlow vars window now transfers, FlowContract vars flow :=
    fun _ hflow => aggregated_contract hamounts hflow
  exact ⟨replace_nodup _ h.uniqueKeys (tetherTreasuryFlow_keys _ _ _ _),
    replace_forall _ hnew h.flows⟩

theorem transfers_window (vars : DbtVars) (window : Window) (raw : List LogRow) :
    (raw.filter fun row => window.Contains row.blockTimestampUtc).filterMap (transferOf vars) =
      (raw.filterMap (transferOf vars)).filter fun t => window.Contains t.blockTimestampUtc := by
  rw [List.filterMap_filter, List.filter_filterMap]
  apply List.filterMap_congr
  intro row _
  cases hdecoded : transferOf vars row with
  | none => simp
  | some transfer =>
    have hsame : transfer.blockTimestampUtc = row.blockTimestampUtc :=
      (transferOf_from hdecoded).timestamp
    simp [Option.filter, hsame]

section Builds

variable {process : DbtProcess} {table : Option DeltaTable} {w : Warehouse}

structure Healthy (process : DbtProcess) : Prop where
  started : process.startError = none
  nodes : ∀ node, process.failing node = false
  finishes : process.timesOut = false

theorem runNode_isOk (h : Healthy process) (node : DbtNode) (passes : Bool)
    (rest : Action Warehouse Unit) (w : Warehouse) :
    ((runNode process node passes >>= fun _ => rest) w).1.isOk = true ↔
      passes = true ∧ (rest w).1.isOk = true := by
  rw [runNode, h.nodes node]
  cases passes with
  | true => exact (and_iff_right rfl).symm
  | false => exact iff_of_false Bool.false_ne_true (fun hok => Bool.false_ne_true hok.1)

theorem writeNode_isOk (h : Healthy process) (node : DbtNode) (passes : Bool)
    (update : Warehouse → Warehouse) (rest : Action Warehouse Unit) (w : Warehouse) :
    (((runNode process node passes >>= fun _ => Eff.modify update) >>= fun _ => rest) w).1.isOk =
        true ↔ passes = true ∧ (rest (update w)).1.isOk = true := by
  rw [runNode, h.nodes node]
  cases passes with
  | true => exact (and_iff_right rfl).symm
  | false => exact iff_of_false Bool.false_ne_true (fun hok => Bool.false_ne_true hok.1)

theorem testNode_isOk (h : Healthy process) (node : DbtNode) (passes : Warehouse → Bool)
    (rest : Action Warehouse Unit) (w : Warehouse) :
    (((Eff.get >>= fun w => runNode process node (passes w)) >>= fun _ => rest) w).1.isOk = true ↔
      passes w = true ∧ (rest w).1.isOk = true :=
  runNode_isOk h node (passes w) rest w

theorem buildTetherTreasuryFlow_isOk (h : Healthy process) (rest : Action Warehouse Unit)
    (w : Warehouse) :
    ((buildTetherTreasuryFlow vars process window >>= fun _ => rest) w).1.isOk = true ↔
      flowSumsFit vars window w.transfers = true ∧ (rest { w with
        tetherTreasuryFlow := some (replace TreasuryFlow.toFlowKey w.flows
          (tetherTreasuryFlow vars window process.now w.transfers)) }).1.isOk = true :=
  writeNode_isOk h .tetherTreasuryFlow (flowSumsFit vars window w.transfers) _ rest w

theorem buildQualitySummary_isOk (h : Healthy process) (rest : Action Warehouse Unit)
    (w : Warehouse) : ((buildQualitySummary process window >>= fun _ => rest) w).1.isOk = true ↔
      (rest { w with qualitySummaryWindow := some window }).1.isOk = true :=
  (writeNode_isOk h .tetherTreasuryFlowQualitySummary true _ rest w).trans (and_iff_right rfl)

theorem testQualitySummary_isOk (h : Healthy process) (w : Warehouse) :
    (testQualitySummary vars process w).1.isOk = true ↔
      (w.qualitySummary vars.usdtDecimals).isSome = true := by
  rw [testQualitySummary, Eff.get_bind, runNode, h.nodes]
  cases (w.qualitySummary vars.usdtDecimals).isSome with
  | true => exact iff_of_true rfl rfl
  | false => exact iff_of_false Bool.false_ne_true Bool.false_ne_true

theorem dbtBuild_isOk_iff (h : Healthy process) :
    (dbtBuild vars process window table w).1.isOk = true ↔
      table.isSome = true ∧ ethereumLogsTests (ethereumLogs (storedRows table)) = true ∧
        vars.usdtDecimals ≤ 38 ∧
        erc20TransfersTests vars (rebuilt vars window (storedRows table) w.transfers) = true ∧
        flowSumsFit vars window (rebuilt vars window (storedRows table) w.transfers) = true ∧
        tetherTreasuryFlowTests vars
          (built vars process.now window (storedRows table) w).flows = true ∧
        (tetherTreasuryFlowQualitySummary vars.usdtDecimals window
          (built vars process.now window (storedRows table) w).flows).isSome = true := by
  rw [dbtBuild, runNode_isOk h, runNode_isOk h, buildErc20Transfers, writeNode_isOk h,
    decide_eq_true_eq, testErc20Transfers, testNode_isOk h, buildTetherTreasuryFlow_isOk h,
    testTetherTreasuryFlow, testNode_isOk h, buildQualitySummary_isOk h, testQualitySummary_isOk h]
  rfl

theorem runDbtBuild_isOk_iff (h : Healthy process) (settings : PipelineSettings)
    (start stop : Instant) : (runDbtBuild vars process settings start stop table w).1.isOk = true ↔
      (dbtBuild vars process ⟨start, stop⟩ table w).1.isOk = true := by
  rw [runDbtBuild, startProcess, h.started, finishProcess, h.finishes, Eff.ofExcept_ok_bind]
  rcases hbuild : dbtBuild vars process ⟨start, stop⟩ table w with ⟨e | _, after⟩
  · rw [Eff.bind_of_error hbuild]
    rfl
  · rw [Eff.bind_of_ok hbuild]
    rfl

structure TablesContract (vars : DbtVars) (table : Option DeltaTable) (w : Warehouse) : Prop where
  raw : RawContract (storedRows table)
  canonical : ∀ row ∈ storedRows table, CanonicalRow row
  mainnet : ∀ row ∈ storedRows table, row.chainId = 1
  silver : Sound vars (storedRows table) w.transfers
  gold : FlowsContract vars w.flows

theorem TablesContract.rebuilt (h : TablesContract vars table w) (window : Window) :
    Sound vars (storedRows table) (rebuilt vars window (storedRows table) w.transfers) :=
  rebuilt_sound h.raw h.silver

theorem TablesContract.refreshed (h : TablesContract vars table w) (now : Instant) (window : Window) :
    FlowsContract vars (built vars now window (storedRows table) w).flows :=
  h.gold.refreshed fun _ ht => (h.rebuilt window).mainnetAmounts h.canonical h.mainnet ht

theorem TablesContract.sums_iff (h : TablesContract vars table w) :
    flowSumsFit vars window (Dbt.rebuilt vars window (storedRows table) w.transfers) = true ↔
      TotalsFit vars window ((storedRows table).filterMap (transferOf vars)) := by
  have hexact : Rebuilt vars window (storedRows table) w.transfers _ := rebuilt_exact h.raw h.silver
  have hdecoded := hexact.inside
  rw [transfers_window] at hdecoded
  rw [flowSumsFit_iff fun t ht => (h.rebuilt window).amounts h.canonical ht]
  exact TotalsFit.of_perm hdecoded

theorem TablesContract.build_isOk_iff (h : TablesContract vars table w) (hhealthy : Healthy process)
    (settings : PipelineSettings) (start stop : Instant) :
    (runDbtBuild vars process settings start stop table w).1.isOk = true ↔
      table.isSome = true ∧ vars.usdtDecimals ≤ 38 ∧
        (∀ transfer ∈ Dbt.rebuilt vars ⟨start, stop⟩ (storedRows table) w.transfers,
          Analysable vars transfer) ∧
        TotalsFit vars ⟨start, stop⟩ ((storedRows table).filterMap (transferOf vars)) ∧
        SummaryFits vars.usdtDecimals ⟨start, stop⟩
          (built vars process.now ⟨start, stop⟩ (storedRows table) w).flows := by
  have hgold := h.refreshed process.now ⟨start, stop⟩
  rw [runDbtBuild_isOk_iff hhealthy, dbtBuild_isOk_iff hhealthy,
    erc20TransfersTests_iff h.canonical (h.rebuilt _), h.sums_iff, qualitySummary_isSome_iff
      (fun flow hflow => (hgold.flows flow hflow).rawNonneg)
      (fun flow hflow => (hgold.flows flow hflow).usdtNonneg)]
  constructor
  · rintro ⟨htable, -, hdecimals, hanalysable, htotals, -, hsummary⟩
    exact ⟨htable, hdecimals, hanalysable, htotals, hsummary⟩
  · rintro ⟨htable, hdecimals, hanalysable, htotals, hsummary⟩
    exact ⟨htable, ethereumLogsTests_pass h.raw h.canonical, hdecimals, hanalysable, htotals,
      tetherTreasuryFlowTests_iff.mpr hgold, hsummary⟩

end Builds

end EthereumLogs.Dbt
