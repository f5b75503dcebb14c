import EthereumLogs.Dbt.Build
import Mathlib.Data.List.Infix

namespace EthereumLogs.Dag
open Python Effect Pipeline Dbt

inductive RunMode where
  | confWindow | recentFinalized | dataInterval
deriving DecidableEq, Repr

structure DagContext where
  conf : Option (List (String × PyVal))
  runType : Text
  dataIntervalStart : PyVal
  dataIntervalEnd : PyVal

structure Environment where
  getenv : String → Option Text
  fromisoformat : Text → Except Exc Datetime
  str : PyVal → Text

def durationText (micros : Int) : Text :=
  let days := micros / microsPerDay
  let clock := micros % microsPerDay
  let hours := clock / microsPerHour
  (if days = 0 then [] else
      (if days < 0 then ['-'] else []) ++ decimalText days.natAbs ++
        (if days.natAbs = 1 then " day, ".toList else " days, ".toList)) ++
    decimalText hours.toNat ++ (clockText clock).drop 2

def validateHourlyInterval (start stop : Instant) (source : String) : Except Exc Unit :=
  if start ≥ stop then .error (.configError s!"{source} start must be earlier than end.")
  else if stop - start ≠ microsPerHour then
    .error (.configError (s!"{source} must define exactly one UTC hour, " ++
      s!"received duration={String.ofList (durationText (stop - start))}."))
  else .ok ()

def replaceZulu (s : Text) : Text :=
  s.flatMap fun c => if c = 'Z' then "+00:00".toList else [c]

def contextDatetime (env : Environment) : PyVal → Except Exc Instant
  | .datetime value =>
    value.astimezoneUtc (.configError "Datetime value must include timezone information.")
  | value => do
    let parsed ← env.fromisoformat (replaceZulu (env.str value))
    parsed.astimezoneUtc (.configError "Datetime string must include timezone information.")

def isManualRun (context : DagContext) : Bool := "manual".toList <:+: lower context.runType

def manualRunMode (env : Environment) : Except Exc RunMode :=
  let mode := lower (strip ((env.getenv "ETH_AIRFLOW_MANUAL_RUN_MODE").getD "data_interval".toList))
  if mode = "data_interval".toList then .ok .dataInterval
  else if mode = "recent_finalized".toList then .ok .recentFinalized
  else .error (.configError ("ETH_AIRFLOW_MANUAL_RUN_MODE must be " ++
    "'data_interval' or 'recent_finalized'."))

def nonNegativeIntEnv (env : Environment) (name : String) (default : Int) : Except Exc Int :=
  let raw := strip ((env.getenv name).getD [])
  if raw = [] then .ok default
  else match intBase10 raw with
    | none => .error (.configError s!"{name} must be an integer.")
    | some value =>
      if value < 0 then .error (.configError s!"{name} must be greater than or equal to 0.")
      else .ok value

def positiveIntEnv (env : Environment) (name : String) (default : Int) : Except Exc Int := do
  let value ← nonNegativeIntEnv env name default
  if value ≤ 0 then .error (.configError s!"{name} must be positive.") else .ok value

structure RunInputs where
  settings : PipelineSettings
  now : Instant
  faults : DeltaWriter.StoreFaults
  process : DbtProcess

def RunInputs.interval (inputs : RunInputs) (vars : DbtVars) (start stop : Instant) :
    Interval Warehouse where
  settings := inputs.settings
  startUtc := .utc start
  endUtc := .utc stop
  now := inputs.now
  faults := inputs.faults
  dbtRunner := runDbtBuild vars inputs.process

structure DagRun extends RunInputs where
  context : DagContext
  env : Environment

variable {ρ : Type}

def runRecentFinalizedInterval (client : EthereumClient ρ) (vars : DbtVars) (run : RunInputs)
    (windowSeconds finalizedLagSeconds : Int) : Action (World ρ Warehouse) PipelineRunResult :=
  if windowSeconds ≤ 0 then throw (.valueError "window_seconds must be positive.")
  else if finalizedLagSeconds < 0 then
    throw (.valueError "finalized_lag_seconds must be greater than or equal to 0.")
  else do
    let chainId ← onRpc client.ethChainId
    if chainId ≠ run.settings.chainId then throw chainMismatch
    else
      let block ← onRpc client.ethGetFinalizedBlock
      let finalizedTs ← Eff.ofExcept (BlockRange.blockTimestampFromPayload block)
      let intervalEnd ← Eff.ofExcept (minusSeconds finalizedTs finalizedLagSeconds)
      let intervalStart ← Eff.ofExcept (minusSeconds intervalEnd windowSeconds)
      runInterval client (run.interval vars intervalStart intervalEnd)

inductive Selection where
  | window (mode : RunMode) (start stop : Instant)
  | recentFinalized (windowSeconds finalizedLagSeconds : Int)
deriving DecidableEq, Repr

def selectWindow (env : Environment) (mode : RunMode) (source : String) (startValue stopValue : PyVal) :
    Except Exc Selection := do
  let start ← contextDatetime env startValue
  let stop ← contextDatetime env stopValue
  validateHourlyInterval start stop source
  pure (.window mode start stop)

def selectManual (env : Environment) (context : DagContext) : Except Exc RunMode :=
  if isManualRun context then manualRunMode env else .ok .dataInterval

def selectWithoutConf (env : Environment) (context : DagContext) : Except Exc Selection := do
  match ← selectManual env context with
  | .recentFinalized =>
    let windowSeconds ← positiveIntEnv env "ETH_AIRFLOW_RECENT_WINDOW_SECONDS" 120
    let lagSeconds ← nonNegativeIntEnv env "ETH_AIRFLOW_RECENT_FINALIZED_LAG_SECONDS" 0
    pure (.recentFinalized windowSeconds lagSeconds)
  | _ =>
    selectWindow env .dataInterval "Airflow data interval" context.dataIntervalStart
      context.dataIntervalEnd

def select (env : Environment) (context : DagContext) : Except Exc Selection :=
  let conf := context.conf.getD []
  match conf.lookup "window_start", conf.lookup "window_end" with
  | some start, some stop => selectWindow env .confWindow "DAG run conf" start stop
  | none, none => selectWithoutConf env context
  | _, _ => .error (.configError "DAG run conf requires both window_start and window_end.")

def runSelection (client : EthereumClient ρ) (vars : DbtVars) (inputs : RunInputs) :
    Selection → Action (World ρ Warehouse) (RunMode × PipelineRunResult)
  | .window mode start stop => do
    let result ← runInterval client (inputs.interval vars start stop)
    pure (mode, result)
  | .recentFinalized windowSeconds lagSeconds => do
    let result ← runRecentFinalizedInterval client vars inputs windowSeconds lagSeconds
    pure (.recentFinalized, result)

def runFromContext (client : EthereumClient ρ) (vars : DbtVars) (run : DagRun) :
    Action (World ρ Warehouse) (RunMode × PipelineRunResult) := do
  let selection ← Eff.ofExcept (select run.env run.context)
  runSelection client vars run.toRunInputs selection

theorem validateHourlyInterval_ok {start stop : Instant} {source : String}
    (h : validateHourlyInterval start stop source = .ok ()) : stop = start + microsPerHour := by
  unfold validateHourlyInterval at h
  split_ifs at h with hempty hduration
  rw [not_not] at hduration
  exact (sub_eq_iff_eq_add'.mp hduration)

theorem selectWindow_ok {env : Environment} {mode : RunMode} {source : String}
    {startValue stopValue : PyVal} {selection : Selection}
    (h : selectWindow env mode source startValue stopValue = .ok selection) :
    ∃ start stop, selection = .window mode start stop ∧
      validateHourlyInterval start stop source = .ok () := by
  obtain ⟨start, -, h⟩ := except_bind_ok h
  obtain ⟨stop, -, h⟩ := except_bind_ok h
  obtain ⟨_, hvalid, h⟩ := except_bind_ok h
  cases h
  exact ⟨start, stop, rfl, hvalid⟩

theorem select_window {env : Environment} {context : DagContext} {mode : RunMode}
    {start stop : Instant} (h : select env context = .ok (.window mode start stop)) :
    ∃ source, validateHourlyInterval start stop source = .ok () := by
  unfold select at h
  dsimp only at h
  split at h
  · obtain ⟨_, _, hs, hvalid⟩ := selectWindow_ok h
    cases hs
    exact ⟨_, hvalid⟩
  · obtain ⟨chosen, -, h⟩ := except_bind_ok h
    cases chosen with
    | recentFinalized =>
      obtain ⟨_, -, h⟩ := except_bind_ok h
      obtain ⟨_, -, h⟩ := except_bind_ok h
      cases h
    | confWindow =>
      obtain ⟨_, _, hs, hvalid⟩ := selectWindow_ok h
      cases hs
      exact ⟨_, hvalid⟩
    | dataInterval =>
      obtain ⟨_, _, hs, hvalid⟩ := selectWindow_ok h
      cases hs
      exact ⟨_, hvalid⟩
  · cases h

end EthereumLogs.Dag
