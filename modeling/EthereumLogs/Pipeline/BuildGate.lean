import EthereumLogs.Dbt.Checks
import EthereumLogs.Pipeline.ChainTables

namespace EthereumLogs.Dbt
open Python Effect Keyed LogNormalizer DeltaWriter

variable {vars : DbtVars} {window : Window} {raw : List LogRow} {before : List Erc20Transfer}

theorem rebuilt_forall (hraw : RawContract raw) (hsound : Sound vars raw before)
    (P : Erc20Transfer → Prop) :
    (∀ transfer ∈ rebuilt vars window raw before, P transfer) ↔
      (∀ transfer ∈ before, P transfer) ∧ ∀ row ∈ raw, window.Contains row.blockTimestampUtc →
        ∀ transfer, transferOf vars row = some transfer → P transfer := by
  constructor
  · intro h
    exact ⟨fun transfer ht => h transfer (rebuilt_keeps hraw hsound ht),
      fun row hrow hwindow transfer hdecoded =>
        h transfer (rebuilt_silvered hraw row hrow hwindow transfer hdecoded)⟩
  · rintro ⟨hbefore, hnew⟩ transfer ht
    rcases (mem_replace transferKey).mp ht with hbuilt | ⟨hold, -⟩
    · obtain ⟨row, hrow, hwindow, hdecoded⟩ := (mem_erc20Transfers hraw).mp hbuilt
      exact hnew row hrow hwindow transfer hdecoded
    · exact hbefore transfer hold

end EthereumLogs.Dbt

namespace EthereumLogs.Pipeline
open Python Effect Keyed LogNormalizer DeltaWriter Dbt

variable {ρ : Type} {client : EthereumClient ρ} {vars : DbtVars} {chain : Chain}
  {committed committed' : List (Interval Warehouse)} {window : Window} {w w' : World ρ Warehouse}
  {attempt : Attempt ρ} {done : Bool} {raw : List LogRow}

theorem ExactlyOnce.canonical (h : ExactlyOnce chain committed raw) :
    ∀ row ∈ raw, CanonicalRow row ∧ row.chainId = chain.chainId := by
  intro row hrow
  obtain ⟨interval, -, n, l, -, -, hnormal⟩ := h.sound row hrow
  exact ⟨Normalized.canonicalRow ⟨_, _, _, _, _, _, hnormal⟩,
    (normalizeEvent_from (row_event hnormal)).sameChain⟩

structure PipelineInvariant (chain : Chain) (vars : DbtVars) (committed : List (Interval Warehouse))
    (w : World ρ Warehouse) : Prop extends ChainInvariant chain vars committed w where
  store : StoreInvariant w.delta
  gold : FlowsContract vars w.warehouse.flows

theorem PipelineInvariant.tables (h : PipelineInvariant chain vars committed w)
    (hmainnet : chain.chainId = 1) : TablesContract vars w.delta w.warehouse where
  raw := h.contract
  canonical row hrow := (h.ingested.canonical row hrow).1
  mainnet row hrow := (h.ingested.canonical row hrow).2.trans hmainnet
  silver := h.sound
  gold := h.gold

theorem PipelineInvariant.fresh (chain : Chain) (vars : DbtVars) (rpc : ρ) :
    PipelineInvariant chain vars [] (fresh rpc) :=
  ⟨.fresh chain vars rpc, ⟨by simp [Pipeline.fresh], by simp [Pipeline.fresh, storedRows],
    by simp [Pipeline.fresh, storedRows], by simp [Pipeline.fresh, storedRows]⟩, .empty vars⟩

theorem AttemptEffect.store (h : AttemptEffect client vars attempt w done w')
    (hstore : StoreInvariant w.delta) : StoreInvariant w'.delta := by
  cases h with
  | stopped s => exact hstore
  | committed s warehouse prepared stored done hprepare haccepted => exact hstore.accepted haccepted

theorem AttemptEffect.pipeline (hclient : Honest client chain) (hmainnet : chain.chainId = 1)
    (heffect : AttemptEffect client vars attempt w done w')
    (h : PipelineInvariant chain vars committed w) : ∃ committed',
      AttemptAdvances chain vars committed committed' attempt.window done w w' ∧
        PipelineInvariant chain vars committed' w' := by
  obtain ⟨committed', hadvance⟩ := heffect.advances hclient h.toChainInvariant
  refine ⟨committed', hadvance, hadvance.invariant, heffect.store h.store, ?_⟩
  rcases hadvance.flows with hsame | hrefreshed
  · rw [hsame]
    exact h.gold
  · obtain ⟨now, hflows⟩ := hrefreshed.flows
    have hcanonical := hadvance.invariant.ingested.canonical
    rw [hflows]
    exact h.gold.refreshed fun t ht => hadvance.invariant.sound.mainnetAmounts
      (fun row hrow => (hcanonical row hrow).1)
      (fun row hrow => (hcanonical row hrow).2.trans hmainnet) ht

theorem afterAttempts_pipeline (hclient : Honest client chain) (hmainnet : chain.chainId = 1)
    (attempts : List (Attempt ρ)) (h : PipelineInvariant chain vars committed w) : ∃ committed',
      Advances chain vars committed committed' w (afterAttempts client vars attempts w) ∧
        PipelineInvariant chain vars committed' (afterAttempts client vars attempts w) := by
  induction attempts generalizing committed w with
  | nil =>
    exact ⟨committed, .refl h.toChainInvariant, h⟩
  | cons attempt attempts ih =>
    obtain ⟨committed', hadvance, hinvariant⟩ :=
      (attempt_effect client vars attempt w).pipeline hclient hmainnet h
    obtain ⟨committed'', hrest, hfinal⟩ := ih hinvariant
    exact ⟨committed'', hadvance.toAdvances.trans hrest, hfinal⟩

theorem dbt_build_passes_iff (chain : Chain) (client : EthereumClient ρ) (hclient : Honest client chain)
    (hmainnet : chain.chainId = 1) (vars : DbtVars) (rpc : ρ) (attempts : List (Attempt ρ))
    (process : DbtProcess) (hhealthy : Healthy process) (settings : PipelineSettings)
    (start stop : Instant) :
    let w := afterAttempts client vars attempts (fresh rpc)
    (runDbtBuild vars process settings start stop w.delta w.warehouse).1.isOk = true ↔
      w.delta.isSome = true ∧ vars.usdtDecimals ≤ 38 ∧
        (∀ transfer ∈ w.warehouse.transfers, Analysable vars transfer) ∧
        (∀ row ∈ storedRows w.delta, start ≤ row.blockTimestampUtc → row.blockTimestampUtc < stop →
          ∀ transfer, transferOf vars row = some transfer → Analysable vars transfer) ∧
        TotalsFit vars ⟨start, stop⟩ ((storedRows w.delta).filterMap (transferOf vars)) ∧
        SummaryFits vars.usdtDecimals ⟨start, stop⟩
          (built vars process.now ⟨start, stop⟩ (storedRows w.delta) w.warehouse).flows := by
  intro w
  obtain ⟨committed, -, hinvariant⟩ := afterAttempts_pipeline hclient hmainnet attempts
    (PipelineInvariant.fresh chain vars rpc)
  have htables := hinvariant.tables hmainnet
  rw [htables.build_isOk_iff hhealthy settings start stop, rebuilt_forall htables.raw htables.silver]
  simp only [Window.Contains, and_imp, and_assoc]
  rfl

def afterFailingGold : World Unit Warehouse :=
  afterAttempts depositProvider projectVars [failingGold] (fresh ())

theorem plainInputs_healthy : Healthy plainInputs.process := ⟨rfl, fun _ => rfl, rfl⟩

theorem dbt_build_passes_iff_deposit :
    (runDbtBuild projectVars plainInputs.process defaultSettings (minutes 60) (minutes 120)
      afterFailingGold.delta afterFailingGold.warehouse).1.isOk = true ∧
    afterFailingGold.warehouse.transfers.length = 1 ∧
      ∀ transfer ∈ afterFailingGold.warehouse.transfers, Analysable projectVars transfer := by
  have hrun : (runDbtBuild projectVars plainInputs.process defaultSettings (minutes 60) (minutes 120)
      afterFailingGold.delta afterFailingGold.warehouse).1.isOk = true ∧
      afterFailingGold.warehouse.transfers.length = 1 := by
    decide +kernel
  have hiff := dbt_build_passes_iff depositInBlockSeven depositProvider depositProvider_honest rfl
    projectVars () [failingGold] plainInputs.process plainInputs_healthy defaultSettings (minutes 60)
    (minutes 120)
  exact ⟨hrun.1, hrun.2, (hiff.mp hrun.1).2.2.1⟩

theorem Refreshed.analysable (h : Refreshed vars committed window w w')
    (hinvariant : ChainInvariant chain vars committed w') :
    ∀ transfer ∈ w'.warehouse.transfers, Analysable vars transfer := by
  have hcanonical := hinvariant.ingested.canonical
  exact (erc20TransfersTests_iff (fun row hrow => (hcanonical row hrow).1) hinvariant.sound).mp
    h.tested

def Poisoned (vars : DbtVars) (w : World ρ Warehouse) : Prop :=
  ∃ transfer ∈ w.warehouse.transfers, ¬ Analysable vars transfer

theorem AttemptAdvances.poisoned
    (h : AttemptAdvances chain vars committed committed' window done w w') (hpoisoned : Poisoned vars w) :
    Poisoned vars w' ∧ done = false ∧ w'.warehouse.flows = w.warehouse.flows := by
  obtain ⟨transfer, ht, hbad⟩ := hpoisoned
  have hnot : ¬ Refreshed vars committed' window w w' := fun hrefreshed =>
    hbad (hrefreshed.analysable h.invariant transfer (h.kept ht))
  refine ⟨⟨transfer, h.kept ht, hbad⟩, ?_, h.flows.resolve_right hnot⟩
  cases done with
  | false => rfl
  | true => exact absurd (h.completed rfl) hnot

theorem afterAttempts_poisoned (hclient : Honest client chain) (attempts : List (Attempt ρ))
    (h : ChainInvariant chain vars committed w) (hpoisoned : Poisoned vars w) :
    (∃ committed', ChainInvariant chain vars committed' (afterAttempts client vars attempts w)) ∧
      Poisoned vars (afterAttempts client vars attempts w) ∧
      (afterAttempts client vars attempts w).warehouse.flows = w.warehouse.flows := by
  induction attempts generalizing committed w with
  | nil =>
    exact ⟨⟨committed, h⟩, hpoisoned, rfl⟩
  | cons attempt attempts ih =>
    obtain ⟨committed', hadvance⟩ := (attempt_effect client vars attempt w).advances hclient h
    obtain ⟨hstill, -, hflows⟩ := hadvance.poisoned hpoisoned
    obtain ⟨hinvariant, hlast, hrest⟩ := ih hadvance.invariant hstill
    exact ⟨hinvariant, hlast, hrest.trans hflows⟩

theorem poisoned_silver_blocks (chain : Chain) (client : EthereumClient ρ)
    (hclient : Honest client chain) (vars : DbtVars) (rpc : ρ) (before after : List (Attempt ρ))
    (hpoisoned : Poisoned vars (afterAttempts client vars before (fresh rpc))) :
    let w := afterAttempts client vars (before ++ after) (fresh rpc)
    (∀ attempt, completes client vars attempt w = false) ∧
      w.warehouse.flows = (afterAttempts client vars before (fresh rpc)).warehouse.flows := by
  intro w
  obtain ⟨committed, hbefore⟩ := afterAttempts_advances hclient before
    (ChainInvariant.fresh chain vars rpc)
  obtain ⟨⟨committed', hinvariant⟩, hstill, hflows⟩ :=
    afterAttempts_poisoned hclient after hbefore.invariant hpoisoned
  have hsplit : w = afterAttempts client vars after (afterAttempts client vars before (fresh rpc)) := by
    simp [w, afterAttempts, history]
  rw [hsplit]
  refine ⟨fun attempt => ?_, hflows⟩
  obtain ⟨_, hadvance⟩ := (attempt_effect client vars attempt _).advances hclient hinvariant
  exact (hadvance.poisoned hstill).2.1

def hourAttempt (startMinute : Int) : Attempt Unit where
  toRunInputs := plainInputs
  start := minutes startMinute
  stop := minutes (startMinute + 60)
  rpc := ()

theorem overflow_poisons :
    Poisoned projectVars (afterAttempts overflowProvider projectVars [hourAttempt 60] (fresh ())) := by
  have hbad : (afterAttempts overflowProvider projectVars [hourAttempt 60]
      (fresh ())).warehouse.transfers.any (fun t =>
        t.contractAddress = lower projectVars.usdtContractAddress ∧
          t.amountNumericStatus ≠ uint256StatusDecimal38Available) = true := by
    decide +kernel
  obtain ⟨t, ht, hstatus⟩ := List.any_eq_true.mp hbad
  rw [decide_eq_true_eq] at hstatus
  exact ⟨t, ht, fun hgood => hstatus.2 (hgood.fits hstatus.1)⟩

theorem poisoned_silver_blocks_overflow :
    completes overflowProvider projectVars (hourAttempt 120) (afterAttempts overflowProvider projectVars
      ([hourAttempt 60] ++ [hourAttempt 0]) (fresh ())) = false :=
  (poisoned_silver_blocks overflowInBlockSeven overflowProvider overflowProvider_honest projectVars ()
    [hourAttempt 60] [hourAttempt 0] overflow_poisons).1 (hourAttempt 120)

end EthereumLogs.Pipeline
