import EthereumLogs.Pipeline.HourlyTotals

namespace EthereumLogs.Dbt
open Python Effect Keyed LogNormalizer DeltaWriter

variable {vars : DbtVars} {process : DbtProcess} {window : Window} {table : Option DeltaTable}
  {w w' : Warehouse} {raw : List LogRow}

structure Tested (vars : DbtVars) (window : Window) (raw : List LogRow) (w : Warehouse) : Prop where
  silver : erc20TransfersTests vars (rebuilt vars window raw w.transfers) = true
  sums : flowSumsFit vars window (rebuilt vars window raw w.transfers) = true

inductive Progress (vars : DbtVars) (window : Window) (raw : List LogRow) (w : Warehouse) :
    Warehouse → Prop
  | untouched : Progress vars window raw w w
  | silver : Progress vars window raw w { w with
      erc20Transfers := some (rebuilt vars window raw w.transfers) }
  | gold (now : Instant) (htested : Tested vars window raw w) :
      Progress vars window raw w { built vars now window raw w with
        qualitySummaryWindow := w.qualitySummaryWindow }
  | complete (now : Instant) (htested : Tested vars window raw w) :
      Progress vars window raw w (built vars now window raw w)

theorem testErc20Transfers_cases (vars : DbtVars) (process : DbtProcess) (w : Warehouse) :
    (erc20TransfersTests vars w.transfers = true ∧ testErc20Transfers vars process w = (.ok (), w)) ∨
      testErc20Transfers vars process w = (.error process.failure, w) := by
  rw [testErc20Transfers, Eff.get_bind]
  exact runNode_cases process _ _ w

theorem buildTetherTreasuryFlow_cases (vars : DbtVars) (process : DbtProcess) (window : Window)
    (w : Warehouse) :
    (flowSumsFit vars window w.transfers = true ∧
        buildTetherTreasuryFlow vars process window w = (.ok (), { w with
          tetherTreasuryFlow := some (replace TreasuryFlow.toFlowKey w.flows
            (tetherTreasuryFlow vars window process.now w.transfers)) })) ∨
      buildTetherTreasuryFlow vars process window w = (.error process.failure, w) := by
  rw [buildTetherTreasuryFlow, Eff.get_bind]
  exact writeNode_cases process .tetherTreasuryFlow _ _ w

theorem testTetherTreasuryFlow_cases (vars : DbtVars) (process : DbtProcess) (w : Warehouse) :
    testTetherTreasuryFlow vars process w = (.ok (), w) ∨
      testTetherTreasuryFlow vars process w = (.error process.failure, w) := by
  rw [testTetherTreasuryFlow, Eff.get_bind]
  exact (runNode_cases process _ _ w).imp_left And.right

theorem buildQualitySummary_cases (process : DbtProcess) (window : Window) (w : Warehouse) :
    buildQualitySummary process window w =
        (.ok (), { w with qualitySummaryWindow := some window }) ∨
      buildQualitySummary process window w = (.error process.failure, w) :=
  (writeNode_cases process .tetherTreasuryFlowQualitySummary _ _ w).imp_left And.right

theorem testQualitySummary_cases (vars : DbtVars) (process : DbtProcess) (w : Warehouse) :
    testQualitySummary vars process w = (.ok (), w) ∨
      testQualitySummary vars process w = (.error process.failure, w) := by
  rw [testQualitySummary, Eff.get_bind]
  exact (runNode_cases process _ _ w).imp_left And.right

theorem dbtBuild_progress (vars : DbtVars) (process : DbtProcess) (window : Window)
    (table : Option DeltaTable) (w : Warehouse) :
    Progress vars window (storedRows table) w (dbtBuild vars process window table w).2 := by
  rw [dbtBuild]
  rcases runNode_cases process .ethereumLogs table.isSome w with ⟨-, hview⟩ | hview
  · rw [Eff.bind_of_ok hview]
    rcases runNode_cases process .ethereumLogsTests
      (ethereumLogsTests (ethereumLogs (storedRows table))) w with ⟨-, hviewTests⟩ | hviewTests
    · rw [Eff.bind_of_ok hviewTests]
      rcases buildErc20Transfers_cases vars process window (storedRows table) w
        with hsilver | hsilver
      · rw [Eff.bind_of_ok hsilver]
        rcases testErc20Transfers_cases vars process _ with ⟨htested, hsilverTests⟩ | hsilverTests
        · rw [Eff.bind_of_ok hsilverTests]
          rcases buildTetherTreasuryFlow_cases vars process window _ with ⟨hsums, hgold⟩ | hgold
          · rw [Eff.bind_of_ok hgold]
            rcases testTetherTreasuryFlow_cases vars process _ with hgoldTests | hgoldTests
            · rw [Eff.bind_of_ok hgoldTests]
              rcases buildQualitySummary_cases process window _ with hsummary | hsummary
              · rw [Eff.bind_of_ok hsummary]
                rcases testQualitySummary_cases vars process _ with hsummaryTests | hsummaryTests
                · rw [hsummaryTests]
                  exact .complete process.now ⟨htested, hsums⟩
                · rw [hsummaryTests]
                  exact .complete process.now ⟨htested, hsums⟩
              · rw [Eff.bind_of_error hsummary]
                exact .gold process.now ⟨htested, hsums⟩
            · rw [Eff.bind_of_error hgoldTests]
              exact .gold process.now ⟨htested, hsums⟩
          · rw [Eff.bind_of_error hgold]
            exact .silver
        · rw [Eff.bind_of_error hsilverTests]
          exact .silver
      · rw [Eff.bind_of_error hsilver]
        exact .untouched
    · rw [Eff.bind_of_error hviewTests]
      exact .untouched
  · rw [Eff.bind_of_error hview]
    exact .untouched

theorem runDbtBuild_progress (vars : DbtVars) (process : DbtProcess) (settings : PipelineSettings)
    (start stop : Instant) (table : Option DeltaTable) (w : Warehouse) :
    Progress vars ⟨start, stop⟩ (storedRows table) w
      (runDbtBuild vars process settings start stop table w).2 := by
  rw [runDbtBuild]
  cases startProcess process with
  | error e => exact .untouched
  | ok _ =>
    rw [Eff.ofExcept_ok_bind]
    have hprogress := dbtBuild_progress vars process ⟨start, stop⟩ table w
    rcases hbuild : dbtBuild vars process ⟨start, stop⟩ table w with ⟨e | _, after⟩
    · rw [hbuild] at hprogress
      rw [Eff.bind_of_error hbuild]
      exact hprogress
    · rw [hbuild] at hprogress
      rw [Eff.bind_of_ok hbuild]
      cases hfinish : finishProcess process with
      | error e => exact hprogress
      | ok _ => exact hprogress

structure Refilled (vars : DbtVars) (window : Window) (raw : List LogRow) (now : Instant)
    (w w' : Warehouse) : Prop where
  transfers : w'.transfers = rebuilt vars window raw w.transfers
  flows : w'.flows = replace TreasuryFlow.toFlowKey w.flows
    (tetherTreasuryFlow vars window now w'.transfers)
  tested : erc20TransfersTests vars w'.transfers = true
  sums : flowSumsFit vars window w'.transfers = true

theorem Progress.transfers (h : Progress vars window raw w w') :
    w'.transfers = w.transfers ∨ w'.transfers = rebuilt vars window raw w.transfers := by
  cases h with
  | untouched => exact .inl rfl
  | silver => exact .inr rfl
  | gold now => exact .inr rfl
  | complete now => exact .inr rfl

theorem Progress.flows (h : Progress vars window raw w w') :
    w'.flows = w.flows ∨ ∃ now, Refilled vars window raw now w w' := by
  cases h with
  | untouched => exact .inl rfl
  | silver => exact .inl rfl
  | gold now htested => exact .inr ⟨now, rfl, rfl, htested.silver, htested.sums⟩
  | complete now htested => exact .inr ⟨now, rfl, rfl, htested.silver, htested.sums⟩

theorem Progress.flowKeys (h : Progress vars window raw w w') :
    w.flows.map TreasuryFlow.toFlowKey ⊆ w'.flows.map TreasuryFlow.toFlowKey := by
  rcases h.flows with hsame | ⟨now, hrefilled⟩
  · rw [hsame]
    exact List.Subset.refl _
  · rw [hrefilled.flows]
    exact replace_keys _ _ _

theorem runDbtBuild_refilled (settings : PipelineSettings) {start stop : Instant} {r : JsonObject}
    (h : runDbtBuild vars process settings start stop table w = (.ok r, w')) :
    Refilled vars ⟨start, stop⟩ (storedRows table) process.now w w' := by
  have hpassed := runDbtBuild_passed settings h
  rw [hpassed.warehouse]
  exact ⟨rfl, rfl, hpassed.silverTested, hpassed.sums⟩

end EthereumLogs.Dbt

namespace EthereumLogs.Pipeline
open Python Effect Keyed LogNormalizer DeltaWriter Dbt Dag

variable {ρ ω : Type} {client : EthereumClient ρ} {vars : DbtVars}

structure Attempt (ρ : Type) extends RunInputs where
  start : Instant
  stop : Instant
  rpc : ρ

namespace Attempt

def window (attempt : Attempt ρ) : Window := ⟨attempt.start, attempt.stop⟩

def interval (vars : DbtVars) (attempt : Attempt ρ) : Interval Warehouse :=
  attempt.toRunInputs.interval vars attempt.start attempt.stop

def run (client : EthereumClient ρ) (vars : DbtVars) (attempt : Attempt ρ) :
    Action (World ρ Warehouse) PipelineRunResult := fun w =>
  runInterval client (attempt.interval vars) { w with rpc := attempt.rpc }

end Attempt

def afterAttempts (client : EthereumClient ρ) (vars : DbtVars) (attempts : List (Attempt ρ))
    (w : World ρ Warehouse) : World ρ Warehouse := history (attempts.map (Attempt.run client vars)) w

def completes (client : EthereumClient ρ) (vars : DbtVars) (attempt : Attempt ρ)
    (w : World ρ Warehouse) : Bool := (attempt.run client vars w).1.isOk

inductive AttemptEffect (client : EthereumClient ρ) (vars : DbtVars) (attempt : Attempt ρ)
    (w : World ρ Warehouse) : Bool → World ρ Warehouse → Prop
  | stopped (s : ρ) : AttemptEffect client vars attempt w false { w with rpc := s }
  | committed (s : ρ) (warehouse : Warehouse) (prepared : Prepared) (stored : List LogRow)
      (done : Bool) (hprepare : (prepareRows client (attempt.interval vars) attempt.rpc).1 = .ok prepared)
      (haccepted : Accepted attempt.faults prepared.rows w.delta stored)
      (hprogress : Progress vars attempt.window stored w.warehouse warehouse)
      (hdone : done = true → ∃ now,
        Refilled vars attempt.window stored now w.warehouse warehouse) :
      AttemptEffect client vars attempt w done ⟨s, some (committed w.delta stored), warehouse⟩

theorem map_isOk {α β : Type} (f : α → β) (r : Except Exc α) : (r.map f).isOk = r.isOk := by
  cases r with
  | error e => rfl
  | ok a => rfl

def finishedResult (prepared : Prepared) (deltaResult : DeltaWriteResult) (dbtResult : JsonObject) :
    PipelineRunResult :=
  ⟨prepared.fetched.blockRange.fromBlock, prepared.fetched.blockRange.toBlock,
    prepared.fetched.rawLogs.length, prepared.normalized.rows.length,
    prepared.normalized.invalidLogCount, deltaResult, dbtResult⟩

theorem finishRun_run (interval : Interval ω) (prepared : Prepared) (deltaResult : DeltaWriteResult)
    (w : World ρ ω) : finishRun interval prepared deltaResult w =
      ((interval.dbtRunner interval.settings prepared.start prepared.stop w.delta w.warehouse).1.map
          (finishedResult prepared deltaResult),
        { w with warehouse := (interval.dbtRunner interval.settings prepared.start prepared.stop
          w.delta w.warehouse).2 }) := by
  rcases h : interval.dbtRunner interval.settings prepared.start prepared.stop w.delta w.warehouse
    with ⟨r, warehouse⟩
  have hrun : onWarehouse (interval.dbtRunner interval.settings prepared.start prepared.stop) w =
      (r, { w with warehouse := warehouse }) := by
    rw [onWarehouse, Eff.get_bind]
    simp [Eff.zoom, h]
  cases r with
  | error e =>
    rw [finishRun, Eff.bind_of_error hrun]
    rfl
  | ok dbtResult =>
    rw [finishRun, Eff.bind_of_ok hrun]
    rfl

theorem finishRun_attempt {attempt : Attempt ρ} {prepared : Prepared}
    (deltaResult : DeltaWriteResult) (w : World ρ Warehouse)
    (hprepared : PreparedFrom client (attempt.interval vars) prepared) :
    let out := finishRun (attempt.interval vars) prepared deltaResult w
    Progress vars attempt.window (storedRows w.delta) w.warehouse out.2.warehouse ∧
      (out.1.isOk = true → ∃ now,
        Refilled vars attempt.window (storedRows w.delta) now w.warehouse out.2.warehouse) := by
  intro out
  have hstart : prepared.start = attempt.start := by
    rw [hprepared.start]
    exact instant_utc _
  have hstop : prepared.stop = attempt.stop := by
    rw [hprepared.stop]
    exact instant_utc _
  have hout : out.2.warehouse = (runDbtBuild vars attempt.process attempt.settings attempt.start
      attempt.stop w.delta w.warehouse).2 := by
    rw [← hstart, ← hstop]
    exact congrArg (fun out => out.2.warehouse)
      (finishRun_run (attempt.interval vars) prepared deltaResult w)
  constructor
  · rw [hout]
    exact runDbtBuild_progress vars attempt.process attempt.settings _ _ _ _
  · intro hok
    obtain ⟨dbtResult, hdbt⟩ := finishRun_ok hok
    have hrefilled := runDbtBuild_refilled attempt.settings hdbt
    rw [hstart, hstop] at hrefilled
    exact ⟨_, hrefilled⟩

theorem attempt_effect (client : EthereumClient ρ) (vars : DbtVars) (attempt : Attempt ρ)
    (w : World ρ Warehouse) :
    AttemptEffect client vars attempt w (completes client vars attempt w)
      (attempt.run client vars w).2 := by
  have hfaults : (attempt.interval vars).faults = attempt.faults := rfl
  rw [completes, Attempt.run, runInterval, hfaults]
  rcases hprepare : prepareRows client (attempt.interval vars) attempt.rpc with ⟨e | prepared, s⟩
  · rw [Eff.bind_of_error (onRpc_eq (w := { w with rpc := attempt.rpc }) hprepare)]
    exact .stopped s
  · rw [Eff.bind_of_ok (onRpc_eq (w := { w with rpc := attempt.rpc }) hprepare)]
    dsimp only
    have hok : (prepareRows client (attempt.interval vars) attempt.rpc).1 = .ok prepared := by
      rw [hprepare]
    rcases write_cases attempt.faults prepared.rows w.delta with ⟨stored, ha⟩ | ⟨e, he⟩
    · have hwrite := onDelta_eq (w := { w with rpc := s }) (write_accepted ha)
      cases hresult : writeResult attempt.faults w.delta prepared.rows stored with
      | error e =>
        rw [hresult] at hwrite
        rw [Eff.bind_of_error hwrite]
        exact .committed s w.warehouse prepared stored _ hok ha .untouched (fun hdone => by cases hdone)
      | ok deltaResult =>
        rw [hresult] at hwrite
        rw [Eff.bind_of_ok hwrite]
        have hkeeps := finishRun_keeps (attempt.interval vars) prepared deltaResult
          { w with rpc := s, delta := some (committed w.delta stored) }
        have hfinish := finishRun_attempt deltaResult { w with
          rpc := s, delta := some (committed w.delta stored) } (prepareRows_ok hok)
        generalize finishRun (attempt.interval vars) prepared deltaResult
          { w with rpc := s, delta := some (committed w.delta stored) } = out at hkeeps hfinish ⊢
        obtain ⟨r, rpc, delta, warehouse⟩ := out
        dsimp only at hkeeps hfinish
        rw [hkeeps.2]
        exact .committed rpc warehouse prepared stored _ hok ha hfinish.1 hfinish.2
    · rw [Eff.bind_of_error (onDelta_eq (w := { w with rpc := s }) he)]
      exact .stopped s

end EthereumLogs.Pipeline
