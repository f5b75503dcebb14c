import EthereumLogs.Dag
import EthereumLogs.Dbt.Silver
import EthereumLogs.Pipeline.Runs
import Mathlib.Logic.Relation

namespace EthereumLogs.Dbt
open Python Effect Keyed LogNormalizer DeltaWriter

variable {vars : DbtVars} {process : DbtProcess} {window : Window} {table : Option DeltaTable}
  {w w' : Warehouse}

theorem runNode_ok {node : DbtNode} {passes : Bool}
    (h : runNode process node passes w = (.ok (), w')) : passes = true ∧ w' = w := by
  rcases runNode_cases process node passes w with ⟨hpasses, hrun⟩ | hrun
  · rw [hrun] at h
    cases h
    exact ⟨hpasses, rfl⟩
  · rw [hrun] at h
    cases h

theorem writeNode_ok {node : DbtNode} {passes : Bool} {update : Warehouse → Warehouse}
    (h : (runNode process node passes >>= fun _ => Eff.modify update) w = (.ok (), w')) :
    passes = true ∧ w' = update w := by
  rcases writeNode_cases process node passes update w with ⟨hpasses, hrun⟩ | hrun
  · rw [hrun] at h
    cases h
    exact ⟨hpasses, rfl⟩
  · rw [hrun] at h
    cases h

structure Passed (vars : DbtVars) (now : Instant) (window : Window) (raw : List LogRow)
    (w w' : Warehouse) : Prop where
  warehouse : w' = built vars now window raw w
  silverTested : erc20TransfersTests vars (rebuilt vars window raw w.transfers) = true
  sums : flowSumsFit vars window (rebuilt vars window raw w.transfers) = true
  goldTested : tetherTreasuryFlowTests vars w'.flows = true

theorem dbtBuild_passed (h : (dbtBuild vars process window table w).1 = .ok ()) :
    Passed vars process.now window (storedRows table) w (dbtBuild vars process window table w).2 := by
  rw [dbtBuild] at h ⊢
  obtain ⟨_, w1, hview, hrun, h⟩ := Eff.bind_ok_run h
  rw [hrun]
  cases (runNode_ok hview).2
  obtain ⟨_, w2, hviewTests, hrun, h⟩ := Eff.bind_ok_run h
  rw [hrun]
  cases (runNode_ok hviewTests).2
  obtain ⟨_, w3, hsilver, hrun, h⟩ := Eff.bind_ok_run h
  rw [hrun]
  cases (writeNode_ok hsilver).2
  obtain ⟨_, w4, hsilverTests, hrun, h⟩ := Eff.bind_ok_run h
  rw [hrun]
  have hsilverTested := (runNode_ok hsilverTests).1
  cases (runNode_ok hsilverTests).2
  obtain ⟨_, w5, hgold, hrun, h⟩ := Eff.bind_ok_run h
  rw [hrun]
  have hsums := (writeNode_ok hgold).1
  cases (writeNode_ok hgold).2
  obtain ⟨_, w6, hgoldTests, hrun, h⟩ := Eff.bind_ok_run h
  rw [hrun]
  have hgoldTested := (runNode_ok hgoldTests).1
  cases (runNode_ok hgoldTests).2
  obtain ⟨_, w7, hsummary, hrun, h⟩ := Eff.bind_ok_run h
  rw [hrun]
  cases (writeNode_ok hsummary).2
  rcases hsummaryTests : testQualitySummary vars process _ with ⟨r, w8⟩
  rw [hsummaryTests] at h
  cases h
  cases (runNode_ok hsummaryTests).2
  exact ⟨rfl, hsilverTested, hsums, hgoldTested⟩

theorem runDbtBuild_passed (settings : PipelineSettings) {start stop : Instant} {r : JsonObject}
    (h : runDbtBuild vars process settings start stop table w = (.ok r, w')) :
    Passed vars process.now ⟨start, stop⟩ (storedRows table) w w' := by
  obtain ⟨hok, hstate⟩ := Prod.ext_iff.mp h
  dsimp only at hok hstate
  rw [← hstate]
  rw [runDbtBuild] at hok ⊢
  obtain ⟨_, w1, hstart, hrun, hok⟩ := Eff.bind_ok_run hok
  rw [hrun]
  cases (Prod.ext_iff.mp hstart).2
  obtain ⟨_, w2, hbuild, hrun, hok⟩ := Eff.bind_ok_run hok
  rw [hrun]
  obtain ⟨_, w3, hfinish, hrun, hok⟩ := Eff.bind_ok_run hok
  have hpassed := dbtBuild_passed (congrArg Prod.fst hbuild)
  have hsame : w2 = w3 := (Prod.ext_iff.mp hfinish).2
  rw [hbuild, hsame] at hpassed
  rw [hrun]
  exact hpassed

end EthereumLogs.Dbt

namespace EthereumLogs.Pipeline
open Python Effect Keyed LogNormalizer DeltaWriter Dbt Dag

variable {ρ ω : Type} {client : EthereumClient ρ} {vars : DbtVars}
  {Admits : Interval Warehouse → ρ → Prop} {w w' : World ρ Warehouse}

inductive SuccessfulRun (client : EthereumClient ρ) (vars : DbtVars)
    (Admits : Interval Warehouse → ρ → Prop) : World ρ Warehouse → World ρ Warehouse → Prop
  | run (inputs : RunInputs) (start stop : Instant) (s : ρ) (w : World ρ Warehouse)
      (hadmits : Admits (inputs.interval vars start stop) s)
      (hok : (runInterval client (inputs.interval vars start stop) { w with rpc := s }).1.isOk =
        true) :
      SuccessfulRun client vars Admits w
        (runInterval client (inputs.interval vars start stop) { w with rpc := s }).2

def fresh (rpc : ρ) : World ρ Warehouse := ⟨rpc, none, .empty⟩

abbrev Reachable (client : EthereumClient ρ) (vars : DbtVars)
    (Admits : Interval Warehouse → ρ → Prop) (rpc : ρ) (w : World ρ Warehouse) : Prop :=
  Relation.ReflTransGen (SuccessfulRun client vars Admits) (fresh rpc) w

structure RunEffect (client : EthereumClient ρ) (vars : DbtVars)
    (Admits : Interval Warehouse → ρ → Prop) (window : Window) (now : Instant) (rows : List LogRow)
    (w w' : World ρ Warehouse) : Prop where
  fetched : ∃ inputs : RunInputs, ∃ s, Admits (inputs.interval vars window.start window.stop) s ∧
    ∃ prepared, (prepareRows client (inputs.interval vars window.start window.stop) s).1 =
      .ok prepared ∧ prepared.normalized.rows = rows
  accepted : ∃ faults, Accepted faults (rows.map LogRow.toDict) w.delta (storedRows w'.delta)
  passed : Passed vars now window (storedRows w'.delta) w.warehouse w'.warehouse

theorem RunEffect.warehouse {window : Window} {now : Instant} {rows : List LogRow}
    (h : RunEffect client vars Admits window now rows w w') :
    w'.warehouse = built vars now window (storedRows w'.delta) w.warehouse := h.passed.warehouse

theorem runInterval_effect {inputs : RunInputs} {start stop : Instant} {s : ρ}
    (hadmits : Admits (inputs.interval vars start stop) s)
    (hok : (runInterval client (inputs.interval vars start stop) { w with rpc := s }).1.isOk = true) :
    ∃ rows, RunEffect client vars Admits ⟨start, stop⟩ inputs.process.now rows w
      (runInterval client (inputs.interval vars start stop) { w with rpc := s }).2 := by
  obtain ⟨prepared, stored, hprepare, haccepted, hdelta, dbtResult, hdbt⟩ := runInterval_ok hok
  have hp := prepareRows_ok hprepare
  have hpassed := runDbtBuild_passed inputs.settings hdbt
  rw [hp.start, hp.stop] at hpassed
  simp only [RunInputs.interval, instant_utc] at hpassed
  refine ⟨prepared.normalized.rows, ⟨inputs, s, hadmits, prepared, hprepare, rfl⟩,
    ⟨inputs.faults, ?_⟩, hpassed⟩
  rw [hdelta]
  exact haccepted

theorem SuccessfulRun.effect (h : SuccessfulRun client vars Admits w w') :
    ∃ window now rows, RunEffect client vars Admits window now rows w w' := by
  cases h with
  | run inputs start stop s w hadmits hok => exact ⟨_, _, runInterval_effect hadmits hok⟩

theorem PreparedFrom.lowered {interval : Interval ω} {prepared : Prepared}
    (h : PreparedFrom client interval prepared) :
    ∀ row ∈ prepared.normalized.rows, lower row.transactionHash = row.transactionHash := by
  intro row hrow
  obtain ⟨rawLog, -, hnormal⟩ := forall₂_right h.normalized hrow
  exact (normalizeEvent_from (normalizeLog_ok hnormal).1).lowered

abbrev lakehouse (w : World ρ Warehouse) : Lakehouse := ⟨w.delta, w.warehouse⟩

section Step

variable {window : Window} {now : Instant} {rows : List LogRow}

theorem RunEffect.committed (h : RunEffect client vars Admits window now rows w w')
    (hw : SilverInvariant vars (lakehouse w)) : SilverInvariant vars ⟨w'.delta, w.warehouse⟩ := by
  obtain ⟨inputs, s, -, prepared, hprepare, rfl⟩ := h.fetched
  obtain ⟨faults, ha⟩ := h.accepted
  exact hw.commit (prepareRows_ok hprepare).lowered ha

theorem RunEffect.transfers (h : RunEffect client vars Admits window now rows w w') :
    w'.warehouse.transfers = rebuilt vars window (storedRows w'.delta) w.warehouse.transfers := by
  rw [h.warehouse]
  rfl

theorem RunEffect.flows (h : RunEffect client vars Admits window now rows w w') :
    w'.warehouse.flows = replace TreasuryFlow.toFlowKey w.warehouse.flows
      (tetherTreasuryFlow vars window now w'.warehouse.transfers) := by
  rw [h.transfers, h.warehouse]
  rfl

theorem RunEffect.invariant (h : RunEffect client vars Admits window now rows w w')
    (hw : SilverInvariant vars (lakehouse w)) : SilverInvariant vars (lakehouse w') :=
  (h.committed hw).refresh h.transfers

theorem RunEffect.rebuilt (h : RunEffect client vars Admits window now rows w w')
    (hw : SilverInvariant vars (lakehouse w)) :
    Rebuilt vars window (storedRows w'.delta) w.warehouse.transfers w'.warehouse.transfers := by
  rw [h.transfers]
  exact rebuilt_exact (h.committed hw).contract (h.committed hw).sound

end Step

theorem onRpc_ok {α : Type} {m : Action ρ α} {a : α} {w w' : World ρ ω}
    (h : onRpc m w = (.ok a, w')) : ∃ s, w' = { w with rpc := s } := by
  cases (Prod.ext_iff.mp h).2
  exact ⟨_, rfl⟩

theorem runRecentFinalizedInterval_run {inputs : RunInputs} {windowSeconds lagSeconds : Int}
    {result : PipelineRunResult}
    (h : (runRecentFinalizedInterval client vars inputs windowSeconds lagSeconds w).1 =
      .ok result) : ∃ start stop s,
    runRecentFinalizedInterval client vars inputs windowSeconds lagSeconds w =
      runInterval client (inputs.interval vars start stop) { w with rpc := s } := by
  rw [runRecentFinalizedInterval] at h ⊢
  split_ifs at h ⊢
  · cases h
  · cases h
  · obtain ⟨chainId, w1, hchain, hrun, h⟩ := Eff.bind_ok_run h
    rw [hrun]
    obtain ⟨s1, rfl⟩ := onRpc_ok hchain
    split_ifs at h ⊢
    · cases h
    · obtain ⟨block, w2, hblock, hrun, h⟩ := Eff.bind_ok_run h
      rw [hrun]
      obtain ⟨s2, rfl⟩ := onRpc_ok hblock
      obtain ⟨finalizedTs, w3, hts, hrun, h⟩ := Eff.bind_ok_run h
      cases (Prod.ext_iff.mp hts).2
      rw [hrun]
      obtain ⟨intervalEnd, w4, hend, hrun, h⟩ := Eff.bind_ok_run h
      cases (Prod.ext_iff.mp hend).2
      rw [hrun]
      obtain ⟨intervalStart, w5, hstart, hrun, h⟩ := Eff.bind_ok_run h
      cases (Prod.ext_iff.mp hstart).2
      rw [hrun]
      exact ⟨_, _, s2, rfl⟩

theorem runFromContext_run {run : DagRun} {mode : RunMode} {result : PipelineRunResult}
    (h : (runFromContext client vars run w).1 = .ok (mode, result)) : ∃ start stop s,
    (runInterval client (run.interval vars start stop) { w with rpc := s }).1 = .ok result ∧
      (runFromContext client vars run w).2 =
        (runInterval client (run.interval vars start stop) { w with rpc := s }).2 ∧
      (mode = .recentFinalized ∨
        ∃ source, validateHourlyInterval start stop source = .ok ()) := by
  rw [runFromContext] at h ⊢
  obtain ⟨selection, w1, hselect, hrun, h⟩ := Eff.bind_ok_run h
  cases (Prod.ext_iff.mp hselect).2
  rw [hrun]
  cases selection with
  | window mode' start stop =>
    rw [runSelection] at h ⊢
    obtain ⟨result', w2, hresult, hrun, h⟩ := Eff.bind_ok_run h
    cases h
    refine ⟨start, stop, w.rpc, by rw [hresult], ?_, ?_⟩
    · rw [hrun, hresult]
      rfl
    · exact .inr (select_window (Prod.ext_iff.mp hselect).1)
  | recentFinalized windowSeconds lagSeconds =>
    rw [runSelection] at h ⊢
    obtain ⟨result', w2, hresult, hrun, h⟩ := Eff.bind_ok_run h
    cases h
    obtain ⟨start, stop, s, hsame⟩ := runRecentFinalizedInterval_run (congrArg Prod.fst hresult)
    refine ⟨start, stop, s, by rw [← hsame, hresult], ?_, .inl rfl⟩
    rw [hrun, ← hsame, hresult]
    rfl

theorem Reachable.invariant {rpc : ρ} (h : Reachable client vars Admits rpc w) :
    SilverInvariant vars (lakehouse w) := by
  induction h with
  | refl => exact .empty vars
  | tail _ hstep ih =>
    obtain ⟨window, now, rows, heffect⟩ := hstep.effect
    exact heffect.invariant ih

end EthereumLogs.Pipeline
