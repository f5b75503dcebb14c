import EthereumLogs.Dag
import EthereumLogs.Pipeline.TransientRuns
import EthereumLogs.Pipeline.HourlyTotals

namespace EthereumLogs.Dag
open Python Effect Pipeline Dbt BlockRange EthereumJsonRpcClient LogCollector

-- str(exc) of the exceptions in TERMINAL_PIPELINE_ERRORS
def terminalMessage : Exc → Option String
  | .blockRangeError message => some message
  | .configError message => some message
  | .dbtBuildError message => some message
  | .deltaWriteError message => some message
  | .logCollectionError message _ => some message
  | .normalizationError message => some message
  | .rpc (.nonRetryable detail) => some detail.message
  | _ => none

inductive TaskExc where
  | airflowFail (message : String) (cause : Exc)
  | raised (exc : Exc)
deriving DecidableEq, Repr

def RunMode.value : RunMode → Text
  | .confWindow => "conf_window".toList
  | .recentFinalized => "recent_finalized".toList
  | .dataInterval => "data_interval".toList

def resultPayload (mode : RunMode) (result : PipelineRunResult) : JsonObject :=
  [("mode", .str mode.value),
   ("from_block", .int result.fromBlock),
   ("to_block", .int result.toBlock),
   ("raw_log_count", .int result.rawLogCount),
   ("normalized_log_count", .int result.normalizedLogCount),
   ("invalid_log_count", .int result.invalidLogCount),
   ("inserted_row_count", .int result.deltaWrite.insertedRowCount),
   ("duplicate_skipped_count", .int result.deltaWrite.duplicateSkippedCount),
   ("row_count_after", .int result.deltaWrite.rowCountAfter),
   ("dbt", .obj result.dbtResult)]

def taskOutcome : Except Exc (RunMode × PipelineRunResult) → Except TaskExc JsonObject
  | .ok (mode, result) => .ok (resultPayload mode result)
  | .error exc =>
    match terminalMessage exc with
    | some message => .error (.airflowFail message exc)
    | none => .error (.raised exc)

variable {ρ : Type}

def runIntervalTask (client : EthereumClient ρ) (vars : DbtVars) (run : DagRun) :
    Eff (World ρ Warehouse) TaskExc JsonObject := fun w =>
  (taskOutcome (runFromContext client vars run w).1, (runFromContext client vars run w).2)

-- Airflow retries what is raised and never an AirflowFailException
inductive StaysRetryable : Except TaskExc JsonObject → Prop
  | succeeded (payload : JsonObject) : StaysRetryable (.ok payload)
  | raised (exc : Exc) (h : terminalMessage exc = none) : StaysRetryable (.error (.raised exc))

theorem taskOutcome_retryable_iff (r : Except Exc (RunMode × PipelineRunResult)) :
    StaysRetryable (taskOutcome r) ↔ ∀ e, r = .error e → terminalMessage e = none := by
  rcases r with e | ⟨mode, result⟩
  · rcases hterminal : terminalMessage e with _ | message
    · have hout : taskOutcome (.error e) = .error (.raised e) := by
        rw [taskOutcome, hterminal]
      rw [hout]
      refine ⟨fun _ e' he' => ?_, fun _ => .raised e hterminal⟩
      cases he'
      exact hterminal
    · have hout : taskOutcome (.error e) = .error (.airflowFail message e) := by
        rw [taskOutcome, hterminal]
      rw [hout]
      refine ⟨fun h => (by cases h), fun h => ?_⟩
      rw [h e rfl] at hterminal
      cases hterminal
  · exact ⟨by simp, fun _ => .succeeded _⟩

theorem terminalMessage_foreign {e : Exc} (h : e.isPipelineError = false) :
    terminalMessage e = none := by
  cases e with
  | rpc error => cases h
  | _ => first | rfl | cases h

theorem terminalMessage_passing {e : Exc} (h : Passing e) : terminalMessage e = none := by
  rcases h with h | h | rfl
  · obtain ⟨kind, detail, rfl⟩ := retryable_cases h
    rfl
  · exact terminalMessage_foreign h
  · rfl

theorem nonNegativeIntEnv_ok {env : Environment} {name : String} {default value : Int}
    (hdefault : 0 ≤ default) (h : nonNegativeIntEnv env name default = .ok value) : 0 ≤ value := by
  unfold nonNegativeIntEnv at h
  dsimp only at h
  split_ifs at h with hraw
  · cases h
    exact hdefault
  · split at h
    · cases h
    · split_ifs at h with hnegative
      cases h
      exact not_lt.mp hnegative

theorem positiveIntEnv_ok {env : Environment} {name : String} {default value : Int}
    (h : positiveIntEnv env name default = .ok value) : 0 < value := by
  obtain ⟨n, -, h⟩ := except_bind_ok h
  split_ifs at h with hpositive
  cases h
  exact not_le.mp hpositive

theorem select_recentFinalized {env : Environment} {context : DagContext}
    {windowSeconds lagSeconds : Int}
    (h : select env context = .ok (.recentFinalized windowSeconds lagSeconds)) :
    0 < windowSeconds ∧ 0 ≤ lagSeconds := by
  unfold select at h
  dsimp only at h
  split at h
  · obtain ⟨_, _, hs, -⟩ := selectWindow_ok h
    cases hs
  · obtain ⟨chosen, -, h⟩ := except_bind_ok h
    cases chosen with
    | recentFinalized =>
      obtain ⟨_, hwindow, h⟩ := except_bind_ok h
      obtain ⟨_, hlag, h⟩ := except_bind_ok h
      cases h
      exact ⟨positiveIntEnv_ok hwindow, nonNegativeIntEnv_ok le_rfl hlag⟩
    | confWindow =>
      obtain ⟨_, _, hs, -⟩ := selectWindow_ok h
      cases hs
    | dataInterval =>
      obtain ⟨_, _, hs, -⟩ := selectWindow_ok h
      cases hs
  · cases h

inductive Processes (client : EthereumClient ρ) (settings : PipelineSettings) (w : World ρ Warehouse) :
    Selection → Instant → Instant → World ρ Warehouse → Prop
  | window (mode : RunMode) (start stop : Instant) :
      Processes client settings w (.window mode start stop) start stop w
  | recentFinalized (windowSeconds lagSeconds : Int) (s t : ρ) (block : JsonObject)
      (finalizedTs start stop : Instant) (hchain : client.ethChainId w.rpc = (.ok settings.chainId, s))
      (hblock : client.ethGetFinalizedBlock s = (.ok block, t))
      (hts : blockTimestampFromPayload block = .ok finalizedTs)
      (hstop : minusSeconds finalizedTs lagSeconds = .ok stop)
      (hstart : minusSeconds stop windowSeconds = .ok start) :
      Processes client settings w (.recentFinalized windowSeconds lagSeconds) start stop
        { w with rpc := t }

section Transient

variable {env : HttpEnvironment} {rpc : EthereumJsonRpcClient} {R head : ℕ} {chain : Chain}
  {vars : DbtVars} {inputs : RunInputs} {w : World RpcState Warehouse}

def RunsOver (client : EthereumClient RpcState) (chain : Chain) (vars : DbtVars) (inputs : RunInputs)
    (selection : Selection) (w : World RpcState Warehouse) : Prop :=
  ∀ start stop w', Processes client inputs.settings w selection start stop w' →
    (∃ n, start ≤ chain.time n ∧ chain.time n < stop) ∧
      StorageSucceeds client (inputs.interval vars start stop) w'

inductive Names (chain : Chain) (head : ℕ) : Selection → Instant → Instant → Prop
  | window (mode : RunMode) (start stop : Instant) :
      Names chain head (.window mode start stop) start stop
  | recentFinalized (windowSeconds lagSeconds : Int) (number : ℕ) (hnumber : number ≤ head)
      (start stop : Instant) (hstop : minusSeconds (chain.time number) lagSeconds = .ok stop)
      (hstart : minusSeconds stop windowSeconds = .ok start) :
      Names chain head (.recentFinalized windowSeconds lagSeconds) start stop

theorem runInterval_passes (h : ServedRun env rpc R chain head inputs.settings) {start stop : Instant}
    (hblocks : ∃ n, start ≤ chain.time n ∧ chain.time n < stop)
    (hstorage : StorageSucceeds (connect env rpc) (inputs.interval vars start stop) w)
    (hcollect : CollectableWindow env R chain inputs.settings start stop) :
    Eff.wp (runInterval (connect env rpc) (inputs.interval vars start stop)) w
      (Eff.Ends (fun _ => True) Passing) := by
  obtain ⟨n, hn⟩ := hblocks
  refine runInterval_ends h ⟨⟨n, ?_⟩, ?_⟩ ?_ hstorage
  · simpa only [RunInputs.interval, instant_utc] using hn
  · have hlt : ¬ start ≥ stop := not_le.mpr (hn.1.trans_lt hn.2)
    simp only [RunInputs.interval, normalizeIntervalBounds, astimezone_utc, instant_utc]
    exact if_neg hlt
  · simpa only [RunInputs.interval, instant_utc] using hcollect

theorem runRecentFinalized_passes (h : ServedRun env rpc R chain head inputs.settings)
    {windowSeconds lagSeconds : Int} (hwindow : 0 < windowSeconds) (hlag : 0 ≤ lagSeconds)
    (hruns : RunsOver (connect env rpc) chain vars inputs (.recentFinalized windowSeconds lagSeconds) w)
    (hcollect : ∀ start stop, Names chain head (.recentFinalized windowSeconds lagSeconds) start stop →
      CollectableWindow env R chain inputs.settings start stop) :
    Eff.wp (runRecentFinalizedInterval (connect env rpc) vars inputs windowSeconds lagSeconds) w
      (Eff.Ends (fun _ => True) Passing) := by
  rw [runRecentFinalizedInterval, if_neg (not_le.mpr hwindow), if_neg (not_lt.mpr hlag)]
  have hchain := ethChainId_ends h w.rpc
  rw [Eff.wp_iff] at hchain ⊢
  rcases hchainId : (connect env rpc).ethChainId w.rpc with ⟨e | chainId, s⟩
  · rw [hchainId] at hchain
    rw [Eff.bind_of_error (onRpc_eq hchainId)]
    exact hchain
  · rw [hchainId] at hchain
    cases hchain
    rw [Eff.bind_of_ok (onRpc_eq hchainId), if_neg (not_not.mpr rfl)]
    have hfinalized := finalized_ends h s
    rw [Eff.wp_iff] at hfinalized
    rcases hblock : (connect env rpc).ethGetFinalizedBlock s with ⟨e | block, t⟩
    · rw [hblock] at hfinalized
      rw [Eff.bind_of_error (onRpc_eq (w := { w with rpc := s }) hblock)]
      exact hfinalized
    · rw [hblock] at hfinalized
      obtain ⟨number, hnumber, hts⟩ := hfinalized
      rw [Eff.bind_of_ok (onRpc_eq (w := { w with rpc := s }) hblock), hts, Eff.ofExcept_ok_bind]
      cases hstop : minusSeconds (chain.time number) lagSeconds with
      | error e => exact .inr (.inl (minusSeconds_error hstop))
      | ok stop =>
        rw [Eff.ofExcept_ok_bind]
        cases hstart : minusSeconds stop windowSeconds with
        | error e => exact .inr (.inl (minusSeconds_error hstart))
        | ok start =>
          rw [Eff.ofExcept_ok_bind]
          obtain ⟨hblocks, hstorage⟩ := hruns _ _ _ (.recentFinalized windowSeconds lagSeconds s t block
            (chain.time number) start stop hchainId hblock hts hstop hstart)
          exact runInterval_passes h hblocks hstorage (hcollect start stop
            (.recentFinalized windowSeconds lagSeconds number hnumber start stop hstop hstart))

theorem runSelection_passes (h : ServedRun env rpc R chain head inputs.settings) {selection : Selection}
    (hvalid : ∀ windowSeconds lagSeconds, selection = .recentFinalized windowSeconds lagSeconds →
      0 < windowSeconds ∧ 0 ≤ lagSeconds)
    (hruns : RunsOver (connect env rpc) chain vars inputs selection w)
    (hcollect : ∀ start stop, Names chain head selection start stop →
      CollectableWindow env R chain inputs.settings start stop) :
    Eff.wp (runSelection (connect env rpc) vars inputs selection) w
      (Eff.Ends (fun _ => True) Passing) := by
  cases selection with
  | window mode start stop =>
    obtain ⟨hblocks, hstorage⟩ := hruns start stop w (.window mode start stop)
    rw [runSelection]
    apply Eff.wp_ends_bind (runInterval_passes h hblocks hstorage
      (hcollect start stop (.window mode start stop)))
    exact fun _ _ _ => trivial
  | recentFinalized windowSeconds lagSeconds =>
    obtain ⟨hwindow, hlag⟩ := hvalid windowSeconds lagSeconds rfl
    rw [runSelection]
    apply Eff.wp_ends_bind (runRecentFinalized_passes h hwindow hlag hruns hcollect)
    exact fun _ _ _ => trivial

end Transient

def everyHour (n : ℕ) : Instant := n * microsPerHour

theorem everyHour_strictMono : StrictMono everyHour := by
  intro a b hab
  simp only [everyHour, microsPerHour, microsPerSecond, Instant]
  omega

def hourBlock (n : ℕ) : JsonObject :=
  [("number", .str (hex n)), ("timestamp", .str (hex (3600 * n)))]

def quietHours : Chain where
  chainId := 1
  time := everyHour
  logs _ := []
  increasing := everyHour_strictMono
  wellFormed n l hl := by cases hl
  unique n n' l l' event event' hl := by cases hl

def hourlyReply (payload : RpcPayload) : Json :=
  if payload.method = "eth_chainId" then .str "0x1".toList
  else if payload.method = "eth_getLogs" then .arr []
  else match payload.params with
    | .str blockRef :: _ =>
      match int16 blockRef with
      | .ok n => .obj (hourBlock n.toNat)
      | .error _ => .obj (hourBlock 4)
    | _ => .null

def throttling (throttled : RpcPayload → Bool) : HttpEnvironment :=
  .ticking fun payload =>
    if throttled payload then .response 429 none
    else .response 200 (some (.obj [("result", hourlyReply payload)]))

theorem hourlyReply_truthful (call : RpcCall) (id : ℕ) :
    Truthful quietHours 4 call (hourlyReply (payloadAt call id)) := by
  constructor
  · rintro rfl
    have hone : hexToInt (.str "0x1".toList) = .ok 1 := by decide
    exact hone
  · rintro rfl
    exact ⟨hourBlock 4, 4, rfl, le_rfl, by decide, by decide⟩
  · rintro n hn rfl
    have hread : int16 (hex n) = .ok (n : Int) := by
      interval_cases n
      all_goals decide
    refine ⟨hourBlock n, ?_, ?_⟩
    · have hreply : hourlyReply (payloadAt (blockCall (hex n)) id) = match int16 (hex n) with
          | .ok n => .obj (hourBlock n.toNat)
          | .error _ => .obj (hourBlock 4) := rfl
      change hourlyReply (payloadAt (blockCall (hex n)) id) = _
      rw [hreply, hread]
      rfl
    · interval_cases n
      all_goals decide
  · rintro a b hab hb rfl
    have hnone : (Tiling.span a (b + 1)).flatMap quietHours.logsAt = [] :=
      List.flatMap_eq_nil_iff.mpr fun n _ => rfl
    exact ⟨[], rfl, by rw [hnone]⟩

theorem throttling_served (throttled : RpcPayload → Bool) :
    WellServed (throttling throttled) (Truthful quietHours 4) := by
  intro call id
  by_cases hthrottled : throttled (payloadAt call id) = true
  · left
    simp [throttling, HttpEnvironment.ticking, hthrottled, transient]
  · right
    refine ⟨hourlyReply (payloadAt call id), ?_, hourlyReply_truthful call id⟩
    rw [outcomeAt]
    simp only [throttling, HttpEnvironment.ticking, if_neg hthrottled]
    rfl

def scheduledHour : DagRun where
  toRunInputs := plainInputs
  context := ⟨none, "scheduled".toList, .datetime (.utc (minutes 60)), .datetime (.utc (minutes 120))⟩
  env := ⟨fun _ => none, fun _ => .error (.valueError "Invalid isoformat string"), fun _ => []⟩

def retrying (maxRetries : Int) : EthereumJsonRpcClient := ⟨maxRetries, 1, 1 / 4, 1 / 4⟩

theorem scheduledHour_served (throttled : RpcPayload → Bool) (R : ℕ) :
    ServedRun (throttling throttled) (retrying R) R quietHours 4 scheduledHour.settings :=
  ⟨throttling_served throttled, rfl, rfl, rfl, by decide⟩

theorem scheduledHour_select : select scheduledHour.env scheduledHour.context =
    .ok (.window .dataInterval (minutes 60) (minutes 120)) := by decide

def scheduledInterval : Interval Warehouse :=
  plainInputs.interval projectVars (minutes 60) (minutes 120)

theorem scheduledHour_runsOver {client : EthereumClient RpcState}
    (hrows : ∀ prepared s, prepareRows client scheduledInterval .initial = (.ok prepared, s) →
      prepared.rows = []) :
    RunsOver client quietHours projectVars plainInputs
      (.window .dataInterval (minutes 60) (minutes 120)) (fresh .initial) := by
  intro start stop w' h
  cases h
  refine ⟨⟨1, by decide, by decide⟩, ?_⟩
  intro prepared s hprepared
  obtain ⟨hstart, hstop, -⟩ := prepareRows_ok (congrArg Prod.fst hprepared)
  have hwrite : DeltaWriter.writeEthereumLogsInsertOnly plainInputs.faults [] none =
      (.ok ⟨0, 0, 0, 0⟩, some ⟨ethereumLogsSchema, []⟩) := by rfl
  have hbuild : (runDbtBuild projectVars plainInputs.process defaultSettings (minutes 60) (minutes 120)
      (some ⟨ethereumLogsSchema, []⟩) Warehouse.empty).1.isOk = true := by decide +kernel
  refine ⟨_, _, by rw [hrows prepared s hprepared]; exact hwrite, ?_⟩
  rw [hstart, hstop]
  change ∃ dbtResult warehouse, runDbtBuild projectVars plainInputs.process defaultSettings
    (minutes 60) (minutes 120) (some ⟨ethereumLogsSchema, []⟩) Warehouse.empty =
      (.ok dbtResult, warehouse)
  rcases hrun : runDbtBuild projectVars plainInputs.process defaultSettings (minutes 60) (minutes 120)
    (some ⟨ethereumLogsSchema, []⟩) Warehouse.empty with ⟨e | dbtResult, warehouse⟩
  · rw [hrun] at hbuild
    cases hbuild
  · exact ⟨dbtResult, warehouse, rfl⟩

def emptyRows : Except Exc Prepared → Bool
  | .ok prepared => prepared.rows.isEmpty
  | .error _ => true

theorem rows_of_emptyRows {client : EthereumClient RpcState}
    (h : emptyRows (prepareRows client scheduledInterval .initial).1 = true) (prepared : Prepared)
    (s : RpcState) (hprepared : prepareRows client scheduledInterval .initial = (.ok prepared, s)) :
    prepared.rows = [] := by
  rw [hprepared] at h
  exact List.isEmpty_iff.mp h

def everyOther (payload : RpcPayload) : Bool := payload.id % 2 = 1

theorem everyOther_dependable (scope : CollectionScope) (chunk : BlockChunk) :
    Dependable (throttling everyOther) 1 scope chunk := by
  intro id hstarved
  have hfirst := hstarved 0 (by decide)
  have hsecond := hstarved 1 le_rfl
  simp only [throttling, HttpEnvironment.ticking, everyOther, payloadAt, decide_eq_true_eq]
    at hfirst hsecond
  split_ifs at hfirst hsecond with hodd hnext
  · omega
  · cases hsecond
  · cases hfirst
  · cases hfirst

def logRequest (payload : RpcPayload) : Bool := payload.method = "eth_getLogs"

def singleBlockFailure : Exc :=
  .logCollectionError "eth_getLogs failed after splitting down to a single block." (some (1, 1))

def outcomeExc : Except TaskExc JsonObject → Option TaskExc
  | .ok _ => none
  | .error exc => some exc

end EthereumLogs.Dag
