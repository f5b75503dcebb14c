import EthereumLogs.Dbt.Build

namespace EthereumLogs
open Effect Duckdb DeltaWriter Dbt

inductive QualityExc where
  | dataQualityError (message : String)
  | raised (e : Exc)
deriving DecidableEq, Repr

-- the arguments that validate_raw_metrics copies into its metrics
structure RawRunCounts where
  runId : String
  intervalStart : String
  intervalEnd : String
  startBlock : Option Int
  endBlock : Option Int
  fetchedLogCount : Int
  normalizedLogCount : Int
  insertedLogCount : Int
  duplicateSkippedCount : Int
  invalidLogCount : Int
  failedSubranges : List (Int × Int)
deriving DecidableEq, Repr

structure RawQualityMetrics extends RawRunCounts where
  uniqueKeyDuplicateCount : ℕ
deriving DecidableEq, Repr

-- the source prints the sums with str()
structure AnalyticsMetrics where
  erc20TransferCount : ℕ
  usdtTreasuryTransferCount : ℕ
  inflow : Rat
  outflow : Rat
  netFlow : Rat
deriving DecidableEq, Repr

inductive QualityEvent where
  | rawQualityMetrics (metrics : RawQualityMetrics)
  | analyticsQualityMetrics (metrics : AnalyticsMetrics)
deriving DecidableEq, Repr

abbrev QualityCheck (α : Type) := Eff (List QualityEvent) QualityExc α

namespace DeltaWriter

def countDuplicateNaturalKeys (faults : StoreFaults) (table : Option DeltaTable) : Except Exc ℕ := do
  loadDependencies faults
  match table with
  | none => .ok 0
  | some t =>
    if faults.opening then
      .error (.deltaWriteError "Failed to read natural keys from Delta table.")
    else .ok (t.rows.length - (t.rows.map storedKey).dedup.length)

theorem countDuplicateNaturalKeys_nodup {faults : StoreFaults} {table : Option DeltaTable} {count : ℕ}
    (h : ((storedRows table).map storedKey).Nodup)
    (hok : countDuplicateNaturalKeys faults table = .ok count) : count = 0 := by
  obtain ⟨_, -, hok⟩ := except_bind_ok hok
  cases table with
  | none => exact (Except.ok.inj hok).symm
  | some t =>
    dsimp only at hok
    split_ifs at hok with hopening
    have hunique : (t.rows.map storedKey).dedup = t.rows.map storedKey := List.Nodup.dedup h
    rw [hunique, List.length_map, Nat.sub_self] at hok
    exact (Except.ok.inj hok).symm

end DeltaWriter

namespace QualityChecks

def logStructured (event : QualityEvent) : QualityCheck Unit := Eff.modify fun log => log ++ [event]

def rangesText (ranges : List (Int × Int)) : String :=
  "[" ++ ", ".intercalate (ranges.map fun r => s!"({r.1}, {r.2})") ++ "]"

def validateRawMetrics (faults : StoreFaults) (table : Option DeltaTable) (run : RawRunCounts) :
    QualityCheck RawQualityMetrics := do
  let duplicateCount ← Eff.ofExcept ((countDuplicateNaturalKeys faults table).mapError .raised)
  let metrics : RawQualityMetrics := { run with uniqueKeyDuplicateCount := duplicateCount }
  logStructured (.rawQualityMetrics metrics)
  if run.failedSubranges ≠ [] then
    throw (.dataQualityError ("Failed block subranges remain: " ++ rangesText run.failedSubranges))
  else if duplicateCount > 0 then
    throw (.dataQualityError s!"Raw Delta table has {duplicateCount} duplicate unique keys.")
  else pure metrics

structure DuckdbAccess where
  installed : Bool
  fileExists : Bool
  connects : Bool
deriving DecidableEq, Repr

def requiredScalar (metricName : String) : Option ℕ → Except QualityExc ℕ
  | some value => .ok value
  | none => .error (.dataQualityError ("Analytics metric query failed: " ++ metricName))

def signedAmount (flow : TreasuryFlow) : Rat :=
  match flow.direction with
  | .inflow => flow.totalAmountUsdt
  | .outflow => -flow.totalAmountUsdt

def flowSums (usdtDecimals : ℕ) (flows : List TreasuryFlow) : Option (Rat × Rat × Rat) := do
  let inflow ← sumDecimal usdtDecimals (directed .inflow TreasuryFlow.totalAmountUsdt flows)
  let outflow ← sumDecimal usdtDecimals (directed .outflow TreasuryFlow.totalAmountUsdt flows)
  let netFlow ← sumDecimal usdtDecimals (flows.map signedAmount)
  pure (inflow, outflow, netFlow)

def validateAnalyticsMetrics (duckdb : DuckdbAccess) (usdtDecimals : ℕ) (warehouse : Warehouse) :
    QualityCheck AnalyticsMetrics := do
  if duckdb.installed = false then
    throw (.dataQualityError "duckdb is required for analytics validation.")
  else if duckdb.fileExists = false then
    throw (.dataQualityError "DuckDB database does not exist.")
  else if duckdb.connects = false then
    throw (.dataQualityError "Analytics validation query failed.")
  else
    let erc20Count ← Eff.ofExcept
      (requiredScalar "erc20_transfer_count" (warehouse.erc20Transfers.map List.length))
    let treasuryCount ← Eff.ofExcept (requiredScalar "usdt_treasury_transfer_count"
      (warehouse.tetherTreasuryFlow.map fun flows => (flows.map TreasuryFlow.transferCount).sum))
    match flowSums usdtDecimals warehouse.flows with
    | none => throw (.dataQualityError "Analytics validation query failed.")
    | some (inflow, outflow, netFlow) =>
      let metrics : AnalyticsMetrics :=
        { erc20TransferCount := erc20Count
          usdtTreasuryTransferCount := treasuryCount
          inflow := inflow
          outflow := outflow
          netFlow := netFlow }
      logStructured (.analyticsQualityMetrics metrics)
      pure metrics

end QualityChecks

end EthereumLogs
