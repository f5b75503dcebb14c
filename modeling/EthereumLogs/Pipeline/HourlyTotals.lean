import EthereumLogs.Pipeline.Deployment
import EthereumLogs.Pipeline.ExactlyOnce
import EthereumLogs.Dbt.Gold

namespace EthereumLogs.Pipeline
open Python Effect LogNormalizer DeltaWriter Dbt Dag

variable {ρ : Type} {client : EthereumClient ρ} {vars : DbtVars}
  {Admits : Interval Warehouse → ρ → Prop} {w w' : World ρ Warehouse} {window : Window}
  {now : Instant} {rows : List LogRow}

def AdmittedHour (interval : Interval Warehouse) (_ : ρ) : Prop :=
  ∃ source, validateHourlyInterval interval.startUtc.instant interval.endUtc.instant source = .ok ()

theorem runFromContext_step {run : DagRun} {mode : RunMode} {result : PipelineRunResult}
    (h : (runFromContext client vars run w).1 = .ok (mode, result)) (hmode : mode ≠ .recentFinalized) :
    SuccessfulRun client vars AdmittedHour w (runFromContext client vars run w).2 := by
  obtain ⟨start, stop, s, hok, hstate, hselected⟩ := runFromContext_run h
  obtain ⟨source, hvalid⟩ := hselected.resolve_left hmode
  rw [hstate]
  refine .run run.toRunInputs start stop s w ⟨source, ?_⟩ ?_
  · simp only [RunInputs.interval, instant_utc]
    exact hvalid
  · rw [hok]
    rfl

def AdmittedAlignedHour (interval : Interval Warehouse) (s : ρ) : Prop :=
  AdmittedHour interval s ∧ interval.startUtc.instant % microsPerHour = 0

def HourlyTotals (warehouse : Warehouse) : Prop :=
  ∀ flow ∈ warehouse.flows, CompleteTotals warehouse.transfers flow

structure HourlyInvariant (vars : DbtVars) (w : World ρ Warehouse) : Prop extends
    SilverInvariant vars (lakehouse w) where
  hourly : ∀ flow ∈ w.warehouse.flows, HourlyFlow vars w.warehouse.transfers flow

theorem RunEffect.kept (h : RunEffect client vars Admits window now rows w w')
    (hw : SilverInvariant vars (lakehouse w)) :
    ∀ t ∈ w.warehouse.transfers, window.Contains t.blockTimestampUtc →
      t ∈ w'.warehouse.transfers := by
  intro t ht hwindow
  obtain ⟨row, hrow, -, hdecoded⟩ := (h.committed hw).sound.decoded t ht
  rw [(transferOf_from hdecoded).timestamp] at hwindow
  apply List.mem_of_mem_filter
  apply (h.rebuilt hw).inside.mem_iff.mpr
  apply List.mem_filterMap.mpr
  exact ⟨row, List.mem_filter.mpr ⟨hrow, decide_eq_true hwindow⟩, hdecoded⟩

theorem RunEffect.aligned (h : RunEffect client vars AdmittedAlignedHour window now rows w w') :
    AlignedHour window := by
  obtain ⟨inputs, s, ⟨⟨source, hvalid⟩, haligned⟩, -⟩ := h.fetched
  simp only [RunInputs.interval, instant_utc] at hvalid haligned
  exact ⟨haligned, validateHourlyInterval_ok hvalid⟩

theorem RunEffect.hourly (h : RunEffect client vars AdmittedAlignedHour window now rows w w')
    (hw : HourlyInvariant vars w) : HourlyInvariant vars w' := by
  have hbase := hw.toSilverInvariant
  refine ⟨h.invariant hbase, ?_⟩
  rw [h.flows]
  exact refreshed_hourly h.aligned hw.hourly (h.kept hbase) (h.rebuilt hbase).outside

theorem Reachable.hourly {rpc : ρ} (h : Reachable client vars AdmittedAlignedHour rpc w) :
    HourlyInvariant vars w := by
  induction h with
  | refl => exact ⟨.empty vars, by simp [Pipeline.fresh, Warehouse.empty, Warehouse.flows]⟩
  | tail _ hstep ih =>
    obtain ⟨window, now, rows, heffect⟩ := hstep.effect
    exact heffect.hourly ih

theorem hourly_totals_complete (client : EthereumClient ρ) (vars : DbtVars) (rpc : ρ)
    (w : World ρ Warehouse) (h : Reachable client vars AdmittedAlignedHour rpc w) :
    HourlyTotals w.warehouse := fun flow hflow => (h.hourly.hourly flow hflow).totals

def tenMinuteBlock (n : ℕ) : JsonObject :=
  [("number", .str (hex n)), ("timestamp", .str (hex (600 * n)))]

def addressWord (address : Text) : Text := "0x000000000000000000000000".toList ++ address.drop 2

def depositLog (n : ℕ) : RawLog :=
  [("blockNumber", .str (hex n)), ("blockHash", .str (hex n)), ("transactionHash", .str (hex n)),
   ("logIndex", .str "0x0".toList), ("address", .str usdtContractAddress),
   ("topics", .arr [.str transferTopic0,
      .str (addressWord "0x00000000000000000000000000000000000000aa".toList),
      .str (addressWord tetherTreasuryAddress)]),
   ("data", .str (("0x".toList ++ List.replicate 58 '0') ++ "0f4240".toList))]

def depositsIn (blocks : List ℕ) : EthereumClient Unit where
  ethGetBlockByNumber n := pure (tenMinuteBlock n.toNat)
  ethGetFinalizedBlock := pure (tenMinuteBlock 24)
  ethGetLogs fromBlock toBlock _ _ :=
    pure ((blocks.filter fun (n : ℕ) => fromBlock ≤ (n : Int) ∧ (n : Int) ≤ toBlock).map depositLog)
  ethChainId := pure 1

def projectVars : DbtVars := ⟨usdtContractAddress, tetherTreasuryAddress, 6⟩

def plainInputs : RunInputs where
  settings := defaultSettings
  now := 0
  faults := noFaults
  process := ⟨none, fun _ => false, false, 0⟩

def minutes (n : Int) : Instant := n * 60 * microsPerSecond

def plainRun (client : EthereumClient Unit) (startMinute : Int) (w : World Unit Warehouse) :
    Except Exc PipelineRunResult × World Unit Warehouse :=
  runInterval client (plainInputs.interval projectVars (minutes startMinute)
    (minutes (startMinute + 60))) w

def afterRun (client : EthereumClient Unit) (startMinute : Int) (w : World Unit Warehouse) :
    World Unit Warehouse := (plainRun client startMinute w).2

theorem plainRun_step {Admits : Interval Warehouse → Unit → Prop} {client : EthereumClient Unit}
    {startMinute : Int} {w : World Unit Warehouse} (hadmits : Admits (plainInputs.interval projectVars
      (minutes startMinute) (minutes (startMinute + 60))) ())
    (hok : (plainRun client startMinute w).1.isOk = true) :
    SuccessfulRun client projectVars Admits w (afterRun client startMinute w) :=
  .run plainInputs (minutes startMinute) (minutes (startMinute + 60)) () w hadmits hok

def afterAligned : World Unit Warehouse := afterRun (depositsIn [1, 4]) 0 (fresh ())

theorem alignedRun_ok : (plainRun (depositsIn [1, 4]) 0 (fresh ())).1.isOk = true ∧
    afterAligned.warehouse.flows.length = 1 := by
  decide +kernel

theorem hourly_totals_complete_aligned :
    afterAligned.warehouse.flows.length = 1 ∧ HourlyTotals afterAligned.warehouse :=
  ⟨alignedRun_ok.2, hourly_totals_complete (depositsIn [1, 4]) projectVars () afterAligned
    (.single (plainRun_step ⟨⟨"Airflow data interval", by decide⟩, by decide⟩ alignedRun_ok.1))⟩

def afterShifted : World Unit Warehouse := afterRun (depositsIn [1, 4]) 30 afterAligned

theorem hourly_totals_partial : ∃ w : World Unit Warehouse,
    Reachable (depositsIn [1, 4]) projectVars AdmittedHour () w ∧ ¬ HourlyTotals w.warehouse := by
  have hshifted : (plainRun (depositsIn [1, 4]) 30 afterAligned).1.isOk = true ∧
      afterShifted.warehouse.flows.any (fun flow => flow.transferCount ≠
        (transfersOf afterShifted.warehouse.transfers flow.toFlowKey).length) = true := by
    decide +kernel
  obtain ⟨hok, hpartial⟩ := hshifted
  refine ⟨afterShifted, ?_, ?_⟩
  · have hfirst : SuccessfulRun (depositsIn [1, 4]) projectVars AdmittedHour (fresh ()) afterAligned :=
      plainRun_step ⟨"DAG run conf", by decide⟩ alignedRun_ok.1
    exact .tail (.single hfirst) (plainRun_step ⟨"DAG run conf", by decide⟩ hok)
  · intro h
    obtain ⟨flow, hflow, hne⟩ := List.any_eq_true.mp hpartial
    exact (of_decide_eq_true hne) (h flow hflow).transferCount

end EthereumLogs.Pipeline
