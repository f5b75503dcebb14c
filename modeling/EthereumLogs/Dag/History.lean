import EthereumLogs.Dag.Task
import EthereumLogs.Pipeline.ResultCounts

namespace EthereumLogs.Dag
open Python Effect Keyed Pipeline Dbt DeltaWriter BlockRange

variable {ρ : Type} {client : EthereumClient ρ} {vars : DbtVars} {chain : Chain}
  {committed : List (Interval Warehouse)} {window : Window} {w : World ρ Warehouse}

def Selection.mode : Selection → RunMode
  | .window mode _ _ => mode
  | .recentFinalized _ _ => .recentFinalized

structure TaskExecution (ρ : Type) extends DagRun where
  rpc : ρ

namespace TaskExecution

def run (client : EthereumClient ρ) (vars : DbtVars) (task : TaskExecution ρ) :
    Eff (World ρ Warehouse) TaskExc JsonObject := fun w =>
  runIntervalTask client vars task.toDagRun { w with rpc := task.rpc }

def attempt (task : TaskExecution ρ) (window : Window) (s : ρ) : Attempt ρ :=
  ⟨task.toRunInputs, window.start, window.stop, s⟩

structure Processed (client : EthereumClient ρ) (task : TaskExecution ρ) (w : World ρ Warehouse)
    (selection : Selection) (window : Window) (s : ρ) : Prop where
  selected : select task.env task.context = .ok selection
  processes : Processes client task.settings { w with rpc := task.rpc } selection window.start
    window.stop { w with rpc := s }

end TaskExecution

def afterTasks (client : EthereumClient ρ) (vars : DbtVars) (tasks : List (TaskExecution ρ))
    (w : World ρ Warehouse) : World ρ Warehouse := history (tasks.map (TaskExecution.run client vars)) w

theorem Processes.window_unique {settings : PipelineSettings} {w1 w2 : World ρ Warehouse}
    {selection : Selection} {start stop start' stop' : Instant}
    (h : Processes client settings w selection start stop w1)
    (h' : Processes client settings w selection start' stop' w2) : start = start' ∧ stop = stop' := by
  cases h with
  | window mode start stop =>
    cases h'
    exact ⟨rfl, rfl⟩
  | recentFinalized windowSeconds lagSeconds s t block finalizedTs start stop hchain hblock hts hstop
      hstart =>
    cases h' with
    | recentFinalized _ _ s' t' block' finalizedTs' start' stop' hchain' hblock' hts' hstop' hstart' =>
      cases hchain.symm.trans hchain'
      cases hblock.symm.trans hblock'
      cases hts.symm.trans hts'
      cases hstop.symm.trans hstop'
      cases hstart.symm.trans hstart'
      exact ⟨rfl, rfl⟩

inductive TaskCases (client : EthereumClient ρ) (vars : DbtVars) (task : TaskExecution ρ)
    (w : World ρ Warehouse) : Except TaskExc JsonObject → World ρ Warehouse → Prop
  | stopped (e : Exc) (s : ρ) : TaskCases client vars task w (taskOutcome (.error e)) { w with rpc := s }
  | attempted (selection : Selection) (window : Window) (s : ρ)
      (hprocessed : task.Processed client w selection window s) :
      TaskCases client vars task w
        (taskOutcome (((task.attempt window s).run client vars w).1.map fun result =>
          (selection.mode, result))) ((task.attempt window s).run client vars w).2

theorem bind_pure_eq {σ α β : Type} (m : Action σ α) (f : α → β) (s : σ) :
    (m >>= fun a => pure (f a)) s = ((m s).1.map f, (m s).2) := by
  rcases hm : m s with ⟨e | a, t⟩
  · rw [Eff.bind_of_error hm]
    rfl
  · rw [Eff.bind_of_ok hm]
    rfl

theorem recentFinalized_cases (client : EthereumClient ρ) (vars : DbtVars) (inputs : RunInputs)
    (windowSeconds lagSeconds : Int) (w : World ρ Warehouse) :
    (∃ e s, runRecentFinalizedInterval client vars inputs windowSeconds lagSeconds w =
        (.error e, { w with rpc := s })) ∨
      ∃ window : Window, ∃ s, Processes client inputs.settings w
        (.recentFinalized windowSeconds lagSeconds) window.start window.stop { w with rpc := s } ∧
          runRecentFinalizedInterval client vars inputs windowSeconds lagSeconds w =
            runInterval client (inputs.interval vars window.start window.stop) { w with rpc := s } := by
  rw [runRecentFinalizedInterval]
  split_ifs with hwindow hlag
  · exact .inl ⟨_, w.rpc, rfl⟩
  · exact .inl ⟨_, w.rpc, rfl⟩
  · rcases hchain : client.ethChainId w.rpc with ⟨e | chainId, s⟩
    · rw [Eff.bind_of_error (onRpc_eq hchain)]
      exact .inl ⟨e, s, rfl⟩
    · rw [Eff.bind_of_ok (onRpc_eq hchain)]
      by_cases hmismatch : chainId ≠ inputs.settings.chainId
      · rw [if_pos hmismatch]
        exact .inl ⟨_, s, rfl⟩
      · rw [if_neg hmismatch]
        rw [not_not] at hmismatch
        subst hmismatch
        rcases hblock : client.ethGetFinalizedBlock s with ⟨e | block, t⟩
        · rw [Eff.bind_of_error (onRpc_eq (w := { w with rpc := s }) hblock)]
          exact .inl ⟨e, t, rfl⟩
        · rw [Eff.bind_of_ok (onRpc_eq (w := { w with rpc := s }) hblock)]
          cases hts : blockTimestampFromPayload block with
          | error e => exact .inl ⟨e, t, rfl⟩
          | ok finalizedTs =>
            rw [Eff.ofExcept_ok_bind]
            cases hstop : minusSeconds finalizedTs lagSeconds with
            | error e => exact .inl ⟨e, t, rfl⟩
            | ok stop =>
              rw [Eff.ofExcept_ok_bind]
              cases hstart : minusSeconds stop windowSeconds with
              | error e => exact .inl ⟨e, t, rfl⟩
              | ok start =>
                rw [Eff.ofExcept_ok_bind]
                exact .inr ⟨⟨start, stop⟩, t, .recentFinalized windowSeconds lagSeconds s t block
                  finalizedTs start stop hchain hblock hts hstop hstart, rfl⟩

theorem TaskExecution.run_cases (client : EthereumClient ρ) (vars : DbtVars) (task : TaskExecution ρ)
    (w : World ρ Warehouse) :
    TaskCases client vars task w (task.run client vars w).1 (task.run client vars w).2 := by
  rw [run, runIntervalTask, runFromContext]
  cases hselect : select task.env task.context with
  | error e => exact .stopped e task.rpc
  | ok selection =>
    rw [Eff.ofExcept_ok_bind]
    cases selection with
    | window mode start stop =>
      rw [runSelection, bind_pure_eq]
      exact .attempted (.window mode start stop) ⟨start, stop⟩ task.rpc
        ⟨hselect, .window mode start stop⟩
    | recentFinalized windowSeconds lagSeconds =>
      rw [runSelection, bind_pure_eq]
      rcases recentFinalized_cases client vars task.toRunInputs windowSeconds lagSeconds
        { w with rpc := task.rpc } with ⟨e, s, hrun⟩ | ⟨window, s, hprocesses, hrun⟩
      · rw [hrun]
        exact .stopped e s
      · rw [hrun]
        exact .attempted (.recentFinalized windowSeconds lagSeconds) window s ⟨hselect, hprocesses⟩

theorem taskOutcome_isOk (r : Except Exc (RunMode × PipelineRunResult)) :
    (taskOutcome r).isOk = r.isOk := by
  rcases r with e | ⟨mode, result⟩
  · rw [taskOutcome]
    cases terminalMessage e with
    | none => rfl
    | some message => rfl
  · rfl

structure TaskExecution.Completes (client : EthereumClient ρ) (vars : DbtVars) (task : TaskExecution ρ)
    (w : World ρ Warehouse) (window : Window) : Prop where
  processed : ∃ selection s, task.Processed client w selection window s
  returned : (task.run client vars w).1.isOk = true

theorem TaskExecution.effect (client : EthereumClient ρ) (vars : DbtVars) (task : TaskExecution ρ)
    (w : World ρ Warehouse) : ∃ attempt done,
      AttemptEffect client vars attempt w done (task.run client vars w).2 ∧
        ∀ window, task.Completes client vars w window → done = true ∧ attempt.window = window := by
  have hcases := task.run_cases client vars w
  rcases hout : task.run client vars w with ⟨r, w'⟩
  rw [hout] at hcases
  dsimp only at hcases
  cases hcases with
  | stopped e s =>
    refine ⟨task.attempt ⟨0, 0⟩ s, false, .stopped s, ?_⟩
    rintro window ⟨-, hreturned⟩
    rw [hout, taskOutcome_isOk] at hreturned
    cases hreturned
  | attempted selection window s hprocessed =>
    refine ⟨task.attempt window s, _, attempt_effect client vars _ w, ?_⟩
    rintro window' ⟨⟨selection', s', hprocessed'⟩, hreturned⟩
    rw [hout, taskOutcome_isOk, map_isOk] at hreturned
    cases hprocessed.selected.symm.trans hprocessed'.selected
    obtain ⟨hstart, hstop⟩ := hprocessed.processes.window_unique hprocessed'.processes
    refine ⟨hreturned, ?_⟩
    rw [Attempt.window, TaskExecution.attempt, hstart, hstop]

theorem TaskExecution.advances (hclient : Honest client chain) (task : TaskExecution ρ)
    (h : ChainInvariant chain vars committed w) : ∃ committed',
      Advances chain vars committed committed' w (task.run client vars w).2 ∧
        ∀ window, task.Completes client vars w window →
          Serves vars committed' window (task.run client vars w).2 := by
  obtain ⟨attempt, done, heffect, hcompletes⟩ := task.effect client vars w
  obtain ⟨committed', hadvance⟩ := heffect.advances hclient h
  refine ⟨committed', hadvance.toAdvances, fun window hwindow => ?_⟩
  obtain ⟨hdone, rfl⟩ := hcompletes window hwindow
  exact (hadvance.completed hdone).toServes

theorem afterTasks_advances (hclient : Honest client chain) (tasks : List (TaskExecution ρ))
    (h : ChainInvariant chain vars committed w) : ∃ committed',
      Advances chain vars committed committed' w (afterTasks client vars tasks w) := by
  induction tasks generalizing committed w with
  | nil => exact ⟨committed, .refl h⟩
  | cons task tasks ih =>
    obtain ⟨_, hadvance, -⟩ := task.advances hclient h
    obtain ⟨committed', hrest⟩ := ih hadvance.invariant
    exact ⟨committed', hadvance.trans hrest⟩

theorem afterTasks_split (before after : List (TaskExecution ρ)) (task : TaskExecution ρ)
    (w : World ρ Warehouse) : afterTasks client vars (before ++ task :: after) w =
      afterTasks client vars after (task.run client vars (afterTasks client vars before w)).2 := by
  simp [afterTasks, history]

def DoneBefore (client : EthereumClient ρ) (vars : DbtVars) (tasks : List (TaskExecution ρ))
    (w : World ρ Warehouse) (window : Window) : Prop :=
  ∃ before task after, tasks = before ++ task :: after ∧
    task.Completes client vars (afterTasks client vars before w) window

theorem DoneBefore.serves (hclient : Honest client chain) {tasks : List (TaskExecution ρ)}
    (h : ChainInvariant chain vars committed w) (hdone : DoneBefore client vars tasks w window) :
    ∃ committed', ChainInvariant chain vars committed' (afterTasks client vars tasks w) ∧
      Serves vars committed' window (afterTasks client vars tasks w) := by
  obtain ⟨before, task, after, rfl, hcompletes⟩ := hdone
  obtain ⟨_, hbefore⟩ := afterTasks_advances hclient before h
  obtain ⟨_, htask, hserves⟩ := task.advances hclient hbefore.invariant
  obtain ⟨committed', hafter⟩ := afterTasks_advances hclient after htask.invariant
  rw [afterTasks_split]
  exact ⟨committed', hafter.invariant, hafter.serves window (hserves window hcompletes)⟩

theorem TaskExecution.run_ok {task : TaskExecution ρ} {payload : JsonObject}
    (h : (task.run client vars w).1 = .ok payload) : ∃ selection window s result,
      task.Processed client w selection window s ∧ payload = resultPayload selection.mode result ∧
        (task.attempt window s).run client vars w = (.ok result, (task.run client vars w).2) := by
  have hcases := task.run_cases client vars w
  rcases hout : task.run client vars w with ⟨r, w'⟩
  rw [hout] at hcases h
  dsimp only at hcases h
  cases hcases with
  | stopped e s =>
    have hok := congrArg Except.isOk h
    rw [taskOutcome_isOk] at hok
    cases hok
  | attempted selection window s hprocessed =>
    rcases hrun : (task.attempt window s).run client vars w with ⟨e | result, w'⟩
    · rw [hrun] at h
      have hok := congrArg Except.isOk h
      rw [taskOutcome_isOk] at hok
      cases hok
    · rw [hrun] at h
      cases h
      exact ⟨selection, window, s, result, hprocessed, rfl, hrun⟩

theorem task_payload_tells_chain (chain : Chain) (client : EthereumClient ρ)
    (hclient : Honest client chain) (vars : DbtVars) (rpc : ρ) (before : List (TaskExecution ρ))
    (task : TaskExecution ρ) (payload : JsonObject)
    (hreturned : (task.run client vars (afterTasks client vars before (fresh rpc))).1 = .ok payload) :
    let w := afterTasks client vars before (fresh rpc)
    let w' := (task.run client vars w).2
    ∃ window selection s result, task.Processed client w selection window s ∧
      payload = resultPayload selection.mode result ∧
      TellsChain chain window w.delta w'.delta result ∧
      (DoneBefore client vars before (fresh rpc) window → result.deltaWrite.insertedRowCount = 0) ∧
      ((w'.warehouse.transfers.filter fun t => window.Contains t.blockTimestampUtc).map
        unstamped).Perm (chain.transfersIn vars window) := by
  intro w w'
  have hfresh := ChainInvariant.fresh chain vars rpc
  obtain ⟨committed, hbefore⟩ := afterTasks_advances hclient before hfresh
  obtain ⟨committed', hafter, hserves⟩ := task.advances hclient hbefore.invariant
  obtain ⟨selection, window, s, result, hprocessed, hpayload, hrun⟩ := TaskExecution.run_ok hreturned
  obtain ⟨prepared, stored, hreported⟩ := runInterval_result hrun
  have htells : TellsChain chain window w.delta w'.delta result :=
    hreported.tells hclient hbefore.invariant.ingested
  have hcompletes : task.Completes client vars w window := ⟨⟨selection, s, hprocessed⟩, by
    rw [hreturned]
    rfl⟩
  refine ⟨window, selection, s, result, hprocessed, hpayload, htells, ?_,
    (hserves window hcompletes).silver hafter.invariant⟩
  intro hdone
  obtain ⟨_, hinvariant, hserved⟩ := hdone.serves hclient hfresh
  rw [htells.inserted, hserved.nothing_fresh hinvariant]
  rfl

def depositTask : TaskExecution Unit where
  toDagRun := scheduledHour
  rpc := ()

theorem task_payload_tells_chain_rerun : ∃ payload result,
    (depositTask.run depositProvider projectVars (afterTasks depositProvider projectVars [depositTask]
        (fresh ()))).1 = .ok payload ∧ payload = resultPayload .dataInterval result ∧
      result.rawLogCount = 1 ∧ result.deltaWrite.insertedRowCount = 0 := by
  have hruns : (depositTask.run depositProvider projectVars (fresh ())).1.isOk = true ∧
      (depositTask.run depositProvider projectVars (afterTasks depositProvider projectVars [depositTask]
        (fresh ()))).1.isOk = true ∧ ((depositInBlockSeven.blocksIn ⟨minutes 60, minutes 120⟩).flatMap
          depositInBlockSeven.logs).length = 1 := by
    decide +kernel
  obtain ⟨hfirst, hagain, hlogs⟩ := hruns
  cases hpayload : (depositTask.run depositProvider projectVars (afterTasks depositProvider projectVars
    [depositTask] (fresh ()))).1 with
  | error e =>
    rw [hpayload] at hagain
    cases hagain
  | ok payload =>
    obtain ⟨window, selection, s, result, ⟨hselected, hprocesses⟩, hresult, htells, hrerun, -⟩ :=
      task_payload_tells_chain depositInBlockSeven depositProvider depositProvider_honest projectVars ()
        [depositTask] depositTask payload hpayload
    cases scheduledHour_select.symm.trans hselected
    obtain ⟨hstart, hstop⟩ := hprocesses.window_unique (.window .dataInterval _ _)
    have hwindow : window = ⟨minutes 60, minutes 120⟩ := by
      rw [Window.mk.injEq]
      exact ⟨hstart, hstop⟩
    subst hwindow
    refine ⟨payload, result, rfl, hresult, htells.rawLogCount.trans hlogs, hrerun ?_⟩
    exact ⟨[], depositTask, [], rfl, ⟨_, (), scheduledHour_select, .window .dataInterval _ _⟩, hfirst⟩

end EthereumLogs.Dag
