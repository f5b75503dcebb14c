import EthereumLogs.RpcTransport

namespace EthereumLogs.EthereumJsonRpcClient
open Python Effect Retry

variable {env : HttpEnvironment} {client : EthereumJsonRpcClient} {call : RpcCall}
  {s t u : RpcState} {i j n attempt : ℕ}

def isTraffic : RpcEvent → Bool
  | .posted _ => true
  | .backedOff _ => true
  | _ => false

def traffic (events : List RpcEvent) : List RpcEvent := events.filter isTraffic

def postedPayload : RpcEvent → Option RpcPayload
  | .posted payload => some payload
  | _ => none

def posts (events : List RpcEvent) : List RpcPayload := events.filterMap postedPayload

inductive Alternates : List RpcEvent → Prop
  | last (payload : RpcPayload) : Alternates [.posted payload]
  | backoff (payload : RpcPayload) (seconds : Rat) {rest : List RpcEvent} (h : Alternates rest) :
      Alternates (.posted payload :: .backedOff seconds :: rest)

def payloadAt (call : RpcCall) (id : ℕ) : RpcPayload := ⟨id, call.method, call.params⟩

def outcomeAt (env : HttpEnvironment) (call : RpcCall) (id : ℕ) : Except Exc Json :=
  readOutcome env call.method (env.post (payloadAt call id))

def retries : Except Exc Json → Bool
  | .ok _ => false
  | .error e => e.isRetryableRpcError && !mustSplitInsteadOfRetry e

def repliesFrom (env : HttpEnvironment) (call : RpcCall) (s : RpcState) (j : ℕ) : Except Exc Json :=
  outcomeAt env call (s.nextId + j)

def againFrom (env : HttpEnvironment) (call : RpcCall) (s : RpcState) (j : ℕ) : Bool :=
  retries (repliesFrom env call s j)

structure Exchange (call : RpcCall) (s t : RpcState) (last : ℕ) : Prop where
  nextId : t.nextId = s.nextId + (last + 1)
  sent : ∃ sent, traffic t.events = traffic s.events ++ sent ∧ Alternates sent ∧
    posts sent = (List.range (last + 1)).map fun j => payloadAt call (s.nextId + j)

structure Quiet (s t : RpcState) : Prop where
  nextId : t.nextId = s.nextId
  traffic : traffic t.events = traffic s.events

theorem Quiet.trans (h : Quiet s t) (h' : Quiet t u) : Quiet s u :=
  ⟨h'.nextId.trans h.nextId, h'.traffic.trans h.traffic⟩

theorem quiet_events (more : List RpcEvent) (hquiet : traffic more = []) (hid : t.nextId = s.nextId)
    (hevents : t.events = s.events ++ more) : Quiet s t := by
  refine ⟨hid, ?_⟩
  rw [traffic] at hquiet
  simp [traffic, hevents, List.filter_append, hquiet]

theorem stamp_run (now : Rat) (s : RpcState) :
    stamp now s = (.ok (), { s with lastRequestAt := some now }.emit (.stamped now)) := rfl

theorem readClock_run (env : HttpEnvironment) (s : RpcState) :
    readClock env s = (.ok (env.monotonic s.readings),
      { s with readings := s.readings + 1 }.emit (.clockRead (env.monotonic s.readings))) := rfl

theorem sleepFor_ok {event : Rat → RpcEvent} {seconds : Rat}
    (h : env.sleep.run s.readings seconds = .ok ()) :
    sleepFor env event seconds s = (.ok (), s.emit (event seconds)) := by
  rw [sleepFor, Eff.get_bind, h]
  rfl

theorem sleepFor_error {event : Rat → RpcEvent} {seconds : Rat} {e : Exc}
    (h : env.sleep.run s.readings seconds = .error e) :
    sleepFor env event seconds s = (.error e, s) := by
  rw [sleepFor, Eff.get_bind, h]
  rfl

abbrev Clock := ℕ × Option Rat

def clockOf (s : RpcState) : Clock := (s.readings, s.lastRequestAt)

def pacing (env : HttpEnvironment) (client : EthereumJsonRpcClient) : Clock → Rat
  | (_, none) => 0
  | (readings, some last) => client.minIntervalSeconds - (env.monotonic readings - last)

def paced (env : HttpEnvironment) (client : EthereumJsonRpcClient) (clock : Clock) :
    Except Exc Unit :=
  if pacing env client clock > 0 then env.sleep.run (clock.1 + 1) (pacing env client clock)
  else .ok ()

def nextClock (env : HttpEnvironment) (client : EthereumJsonRpcClient) (clock : Clock) : Clock :=
  if pacing env client clock > 0 then (clock.1 + 2, some (env.monotonic (clock.1 + 1)))
  else (clock.1 + 1, some (env.monotonic clock.1))

structure Paces (env : HttpEnvironment) (client : EthereumJsonRpcClient) (s t : RpcState) : Prop where
  quiet : Quiet s t
  draws : t.draws = s.draws
  clock : paced env client (clockOf s) = .ok () → clockOf t = nextClock env client (clockOf s)

theorem rateLimit_run (env : HttpEnvironment) (client : EthereumJsonRpcClient) (s : RpcState) :
    ∃ t, rateLimit env client s = (paced env client (clockOf s), t) ∧ Paces env client s t := by
  rw [rateLimit, Eff.bind_of_ok (readClock_run env s), Eff.get_bind]
  cases hlast : s.lastRequestAt with
  | none =>
    have hnone : ¬ pacing env client (clockOf s) > 0 := by simp [pacing, clockOf, hlast]
    simp only [RpcState.emit]
    rw [paced, if_neg hnone, stamp_run]
    refine ⟨_, rfl, quiet_events [.clockRead _, .stamped _] rfl rfl (List.append_assoc _ _ _), rfl, ?_⟩
    intro _
    rw [nextClock, if_neg hnone]
    rfl
  | some last =>
    have hpacing : client.minIntervalSeconds - (env.monotonic s.readings - last) =
        pacing env client (clockOf s) := by simp [pacing, clockOf, hlast]
    simp only [RpcState.emit, hpacing]
    rw [paced]
    split_ifs with hpace
    · cases hsleep : env.sleep.run ((clockOf s).1 + 1) (pacing env client (clockOf s)) with
      | error e =>
        rw [Eff.bind_of_error (sleepFor_error hsleep)]
        refine ⟨_, rfl, quiet_events [.clockRead _] rfl rfl rfl, rfl, ?_⟩
        intro hok
        rw [paced, if_pos hpace, hsleep] at hok
        cases hok
      | ok _ =>
        rw [Eff.bind_of_ok (sleepFor_ok hsleep), Eff.bind_of_ok (readClock_run env _), stamp_run]
        refine ⟨_, rfl, ?_, rfl, ?_⟩
        · refine quiet_events [.clockRead (env.monotonic s.readings), .paced (pacing env client (clockOf s)),
            .clockRead (env.monotonic (s.readings + 1)), .stamped (env.monotonic (s.readings + 1))]
            rfl rfl ?_
          simp [RpcState.emit]
        · intro _
          rw [nextClock, if_pos hpace]
          rfl
    · rw [stamp_run]
      refine ⟨_, rfl, quiet_events [.clockRead _, .stamped _] rfl rfl (List.append_assoc _ _ _), rfl, ?_⟩
      intro _
      rw [nextClock, if_neg hpace]
      rfl

structure Posted (env : HttpEnvironment) (client : EthereumJsonRpcClient) (call : RpcCall)
    (s t : RpcState) : Prop where
  nextId : t.nextId = s.nextId + 1
  traffic : traffic t.events = traffic s.events ++ [.posted (payloadAt call s.nextId)]
  draws : t.draws = s.draws
  clock : clockOf t = nextClock env client (clockOf s)

theorem attempt_paced (call : RpcCall) (h : paced env client (clockOf s) = .ok ()) :
    ∃ t, (do rateLimit env client; requestOnce env call) s = (repliesFrom env call s 0, t) ∧
      Posted env client call s t := by
  obtain ⟨u, hrun, hquiet, hdraws, hclock⟩ := rateLimit_run env client s
  rw [h] at hrun
  refine ⟨{ u with nextId := u.nextId + 1 }.emit (.posted (payloadAt call u.nextId)), ?_, ?_, ?_,
    hdraws, hclock h⟩
  · rw [Eff.bind_of_ok hrun, repliesFrom, Nat.add_zero, ← hquiet.nextId]
    rfl
  · change u.nextId + 1 = _
    rw [hquiet.nextId]
  · rw [← hquiet.traffic, ← hquiet.nextId]
    simp [EthereumJsonRpcClient.traffic, RpcState.emit, List.filter_append, isTraffic]

theorem attempt_unpaced {e : Exc} (call : RpcCall) (h : paced env client (clockOf s) = .error e) :
    ∃ t, (do rateLimit env client; requestOnce env call) s = (.error e, t) ∧ Quiet s t := by
  obtain ⟨u, hrun, hquiet, -⟩ := rateLimit_run env client s
  rw [h] at hrun
  exact ⟨u, Eff.bind_of_error hrun _, hquiet⟩

def backoffSeconds (env : HttpEnvironment) (client : EthereumJsonRpcClient) (draws attempt : ℕ) :
    Except Exc Rat :=
  (timesFloat client.retryBackoffSeconds (2 ^ attempt)).map
    (· + env.uniform draws client.retryJitterSeconds)

def rested (env : HttpEnvironment) (client : EthereumJsonRpcClient) (readings draws attempt : ℕ) :
    Except Exc Unit :=
  backoffSeconds env client draws attempt >>= env.sleep.run readings

structure Rests (s t : RpcState) : Prop where
  nextId : t.nextId = s.nextId
  clock : clockOf t = clockOf s
  draws : t.draws = s.draws + 1
  traffic : ∃ seconds, traffic t.events = traffic s.events ++ [.backedOff seconds]

theorem rested_error {e : Exc} {readings draws : ℕ}
    (h : rested env client readings draws attempt = .error e) : e.isPipelineError = false := by
  rw [rested, backoffSeconds, timesFloat] at h
  split_ifs at h
  · exact env.sleep.foreign _ _ _ h
  · cases h
    rfl

theorem paced_error {e : Exc} {clock : Clock} (h : paced env client clock = .error e) :
    e.isPipelineError = false := by
  rw [paced] at h
  split_ifs at h
  · exact env.sleep.foreign _ _ _ h

theorem backoffDelay_run (env : HttpEnvironment) (client : EthereumJsonRpcClient) (attempt : ℕ)
    (s : RpcState) :
    ∃ t, backoffDelay env client attempt s = (backoffSeconds env client s.draws attempt, t) ∧
      t.events = s.events ∧ t.nextId = s.nextId ∧ clockOf t = clockOf s ∧
      ∀ delay, backoffSeconds env client s.draws attempt = .ok delay → t.draws = s.draws + 1 := by
  rw [backoffDelay, backoffSeconds]
  cases timesFloat client.retryBackoffSeconds (2 ^ attempt) with
  | error e => exact ⟨s, rfl, rfl, rfl, rfl, fun _ h => by cases h⟩
  | ok base => exact ⟨_, rfl, rfl, rfl, rfl, fun _ _ => rfl⟩

theorem rests_then {attempt : ℕ} (next : Action RpcState Json)
    (h : rested env client s.readings s.draws attempt = .ok ()) :
    ∃ t, (do
        let delay ← backoffDelay env client attempt
        sleepFor env .backedOff delay
        next : Action RpcState Json) s = next t ∧ Rests s t := by
  obtain ⟨t, hrun, hevents, hid, hclock, hdraws⟩ := backoffDelay_run env client attempt s
  obtain ⟨delay, hdelay, hsleep⟩ := except_bind_ok h
  have hreadings : s.readings = t.readings := (congrArg Prod.fst hclock).symm
  rw [hdelay] at hrun
  rw [hreadings] at hsleep
  rw [Eff.bind_of_ok hrun, Eff.bind_of_ok (sleepFor_ok hsleep)]
  refine ⟨_, rfl, hid, hclock, hdraws delay hdelay, delay, ?_⟩
  rw [← hevents]
  simp [traffic, RpcState.emit, List.filter_append, isTraffic]

theorem rests_stop {attempt : ℕ} {e : Exc} (next : Action RpcState Json)
    (h : rested env client s.readings s.draws attempt = .error e) :
    ∃ t, (do
        let delay ← backoffDelay env client attempt
        sleepFor env .backedOff delay
        next : Action RpcState Json) s = (.error e, t) ∧ Quiet s t := by
  obtain ⟨t, hrun, hevents, hid, hclock, -⟩ := backoffDelay_run env client attempt s
  have hquiet : Quiet s t := ⟨hid, congrArg traffic hevents⟩
  rw [rested] at h
  cases hdelay : backoffSeconds env client s.draws attempt with
  | error e' =>
    rw [hdelay] at hrun h
    cases h
    exact ⟨t, Eff.bind_of_error hrun _, hquiet⟩
  | ok delay =>
    have hreadings : s.readings = t.readings := (congrArg Prod.fst hclock).symm
    rw [hdelay] at hrun h
    rw [hreadings] at h
    rw [Eff.bind_of_ok hrun, Eff.bind_of_error (sleepFor_error h)]
    exact ⟨t, rfl, hquiet⟩

theorem retries_error {r : Except Exc Json} (h : retries r = true) :
    ∃ e, r = .error e ∧ e.isRetryableRpcError = true ∧ mustSplitInsteadOfRetry e = false := by
  cases r with
  | ok result => cases h
  | error e => exact ⟨e, rfl, by simpa [retries] using h⟩

theorem requestLoop_stops {r : Except Exc Json} {remaining : ℕ}
    (hrun : (do rateLimit env client; requestOnce env call) s = (r, t))
    (h : retries r = false ∨ client.maxRetries ≤ attempt) :
    requestLoop env client call (remaining + 1) attempt s = (r, t) := by
  rw [requestLoop]
  cases r with
  | ok result => exact Eff.tryCatch_of_ok hrun _
  | error e =>
    rw [Eff.tryCatch_of_error hrun]
    by_cases hretryable : e.isRetryableRpcError = true
    · rw [if_pos hretryable, if_pos]
      · rfl
      · rcases h with h | h
        · simp [retries, hretryable] at h
          simp [h]
        · simp [h]
    · rw [if_neg hretryable]
      rfl

theorem requestLoop_again {e : Exc} {remaining : ℕ}
    (hrun : (do rateLimit env client; requestOnce env call) s = (.error e, t))
    (h : retries (.error e) = true) (hmax : (attempt : Int) < client.maxRetries) :
    requestLoop env client call (remaining + 1) attempt s =
      (do
        let delay ← backoffDelay env client attempt
        sleepFor env .backedOff delay
        requestLoop env client call remaining (attempt + 1) : Action RpcState Json) t := by
  obtain ⟨_, he, hretryable, hsplit⟩ := retries_error h
  cases he
  rw [requestLoop, Eff.tryCatch_of_error hrun, if_pos hretryable, if_neg]
  simp [hsplit, hmax]

theorem Exchange.single (hid : t.nextId = s.nextId + 1)
    (htraffic : traffic t.events = traffic s.events ++ [.posted (payloadAt call s.nextId)]) :
    Exchange call s t 0 :=
  ⟨hid, _, htraffic, .last _, rfl⟩

theorem Exchange.backoff {last : ℕ} {seconds : Rat} (hid : t.nextId = s.nextId + 1)
    (htraffic : traffic t.events = traffic s.events ++
      [.posted (payloadAt call s.nextId), .backedOff seconds])
    (h : Exchange call t u last) : Exchange call s u (last + 1) := by
  obtain ⟨hnext, sent, hsent, halternates, hposts⟩ := h
  refine ⟨by omega, _, ?_, .backoff (payloadAt call s.nextId) seconds halternates, ?_⟩
  · rw [hsent, htraffic, List.append_assoc]
    rfl
  · have hstep : posts (.posted (payloadAt call s.nextId) :: .backedOff seconds :: sent) =
        payloadAt call s.nextId :: posts sent := rfl
    rw [hstep, hposts, List.range_succ_eq_map (n := last + 1), List.map_cons, List.map_map,
      Nat.add_zero]
    refine congrArg (_ :: ·) (List.map_congr_left fun j _ => ?_)
    rw [Function.comp_apply, hid, Nat.succ_eq_add_one, Nat.add_assoc, Nat.add_comm 1]

theorem repliesFrom_succ (hid : t.nextId = s.nextId + 1) :
    repliesFrom env call s (j + 1) = repliesFrom env call t j := by
  rw [repliesFrom, repliesFrom, hid, Nat.add_assoc, Nat.add_comm 1]

theorem againFrom_succ (hid : t.nextId = s.nextId + 1) :
    (fun j => againFrom env call s (j + 1)) = againFrom env call t := by
  funext j
  rw [againFrom, againFrom, repliesFrom_succ hid]

def clockAt (env : HttpEnvironment) (client : EthereumJsonRpcClient) (s : RpcState) (j : ℕ) : Clock :=
  (nextClock env client)^[j] (clockOf s)

-- the sleeps before post j of a call that starts with the given attempt: the backoff after
-- post j - 1, then the pacing
def waits (env : HttpEnvironment) (client : EthereumJsonRpcClient) (s : RpcState) (attempt : ℕ) :
    ℕ → Except Exc Unit
  | 0 => paced env client (clockOf s)
  | j + 1 => do
    rested env client (clockAt env client s (j + 1)).1 (s.draws + j) (attempt + j)
    paced env client (clockAt env client s (j + 1))

theorem clockAt_succ (h : clockOf t = nextClock env client (clockOf s)) (j : ℕ) :
    clockAt env client s (j + 1) = clockAt env client t j := by
  rw [clockAt, clockAt, h, Function.iterate_succ_apply]

theorem waits_succ (hclock : clockOf t = nextClock env client (clockOf s))
    (hdraws : t.draws = s.draws + 1)
    (hrested : rested env client t.readings s.draws attempt = .ok ()) (j : ℕ) :
    waits env client s attempt (j + 1) = waits env client t (attempt + 1) j := by
  have hnext : ∀ j, clockAt env client s (j + 1) = clockAt env client t j := clockAt_succ hclock
  cases j with
  | zero =>
    rw [waits, waits, hnext 0, Nat.add_zero, Nat.add_zero]
    change (rested env client t.readings s.draws attempt >>= _) = _
    rw [hrested]
    rfl
  | succ j =>
    rw [waits, waits, hnext (j + 1), hdraws, Nat.add_assoc, Nat.add_comm 1, Nat.add_assoc attempt,
      Nat.add_comm 1]

theorem waits_error {e : Exc} (h : waits env client s attempt j = .error e) :
    e.isPipelineError = false := by
  cases j with
  | zero => exact paced_error h
  | succ j =>
    rw [waits] at h
    cases hrest : rested env client (clockAt env client s (j + 1)).1 (s.draws + j) (attempt + j) with
    | error e' =>
      rw [hrest] at h
      cases h
      exact rested_error hrest
    | ok _ =>
      rw [hrest] at h
      exact paced_error h

structure SentTimes (call : RpcCall) (s t : RpcState) (count : ℕ) : Prop where
  nextId : t.nextId = s.nextId + count
  posts : posts t.events = posts s.events ++
    (List.range count).map fun j => payloadAt call (s.nextId + j)

theorem posts_traffic (events : List RpcEvent) : posts (traffic events) = posts events := by
  induction events with
  | nil => rfl
  | cons event events ih =>
    cases event with
    | posted payload => exact congrArg (payload :: ·) ih
    | backedOff seconds => exact ih
    | clockRead now => exact ih
    | stamped now => exact ih
    | paced seconds => exact ih

theorem Exchange.posts {last : ℕ} (h : Exchange call s t last) :
    posts t.events = posts s.events ++
      (List.range (last + 1)).map fun j => payloadAt call (s.nextId + j) := by
  obtain ⟨-, sent, hsent, -, hposts⟩ := h
  rw [← posts_traffic, hsent, EthereumJsonRpcClient.posts, List.filterMap_append,
    ← EthereumJsonRpcClient.posts, posts_traffic, ← hposts]
  rfl

theorem sent_zero (h : Quiet s t) : SentTimes call s t 0 := by
  refine ⟨h.nextId, ?_⟩
  rw [← posts_traffic, h.traffic, posts_traffic]
  simp

theorem sent_step {count : ℕ} (h : SentTimes call t u count) (hid : t.nextId = s.nextId + 1)
    (hposts : posts t.events = posts s.events ++ [payloadAt call s.nextId]) :
    SentTimes call s u (count + 1) := by
  have hnext := h.nextId
  refine ⟨by omega, ?_⟩
  rw [h.posts, hposts, List.append_assoc, List.range_succ_eq_map, List.map_cons, List.map_map]
  refine congrArg (posts s.events ++ payloadAt call s.nextId :: ·) (List.map_congr_left fun j _ => ?_)
  rw [Function.comp_apply, hid, Nat.succ_eq_add_one, Nat.add_assoc, Nat.add_comm 1]

theorem Exchange.sentTimes {last : ℕ} (h : Exchange call s t last) : SentTimes call s t (last + 1) :=
  ⟨h.nextId, h.posts⟩

theorem retries_foreign {e : Exc} (h : e.isPipelineError = false) : retries (.error e) = false := by
  cases e with
  | rpc error => cases h
  | _ => rfl

inductive LoopRun (env : HttpEnvironment) (client : EthereumJsonRpcClient) (call : RpcCall)
    (s : RpcState) (attempt last : ℕ) : Except Exc Json → RpcState → Prop
  | finished (t : RpcState) (hwaits : ∀ j ≤ last, waits env client s attempt j = .ok ())
      (hexchange : Exchange call s t last) :
      LoopRun env client call s attempt last (repliesFrom env call s last) t
  | interrupted (j : ℕ) (e : Exc) (t : RpcState) (hle : j ≤ last)
      (hbefore : ∀ i < j, waits env client s attempt i = .ok ())
      (hwait : waits env client s attempt j = .error e) (hsent : SentTimes call s t j) :
      LoopRun env client call s attempt last (.error e) t

theorem requestLoop_unpaced {e : Exc} {last : ℕ} (remaining : ℕ)
    (h : paced env client (clockOf s) = .error e) :
    Eff.wp (requestLoop env client call (remaining + 1) attempt) s
      (LoopRun env client call s attempt last) := by
  obtain ⟨t, hrun, hquiet⟩ := attempt_unpaced call h
  rw [Eff.wp_iff, requestLoop_stops hrun (.inl (retries_foreign (paced_error h)))]
  exact .interrupted 0 e t (Nat.zero_le _) (by simp) h (sent_zero hquiet)

theorem Posted.stops (h : Posted env client call s t) (hpace : paced env client (clockOf s) = .ok ()) :
    LoopRun env client call s attempt 0 (repliesFrom env call s 0) t := by
  refine .finished t ?_ (.single h.nextId h.traffic)
  intro j hj
  rw [Nat.le_zero.mp hj]
  exact hpace

theorem Posted.posts (h : Posted env client call s t) :
    posts t.events = posts s.events ++ [payloadAt call s.nextId] := by
  rw [← posts_traffic, h.traffic, EthereumJsonRpcClient.posts, List.filterMap_append,
    ← EthereumJsonRpcClient.posts, posts_traffic]
  rfl

theorem Posted.waits_one (h : Posted env client call s t) :
    waits env client s attempt 1 = (do
      rested env client t.readings t.draws attempt
      paced env client (clockOf t)) := by
  rw [waits, clockAt_succ h.clock, Nat.add_zero, Nat.add_zero, h.draws]
  rfl

theorem LoopRun.again {last : ℕ} {seconds : Rat} {r : Except Exc Json}
    (h : LoopRun env client call t (attempt + 1) last r u)
    (hpace : waits env client s attempt 0 = .ok ())
    (hwaits : ∀ j, waits env client s attempt (j + 1) = waits env client t (attempt + 1) j)
    (hid : t.nextId = s.nextId + 1) (htraffic : traffic t.events = traffic s.events ++
      [.posted (payloadAt call s.nextId), .backedOff seconds]) :
    LoopRun env client call s attempt (last + 1) r u := by
  cases h with
  | finished _ hreached hexchange =>
    rw [← repliesFrom_succ hid]
    refine .finished u ?_ (hexchange.backoff hid htraffic)
    rintro (_ | j) hj
    · exact hpace
    · rw [hwaits]
      exact hreached j (by omega)
  | interrupted j e _ hle hbefore hwait hsent =>
    have hposts : posts t.events = posts s.events ++ [payloadAt call s.nextId] := by
      rw [← posts_traffic, htraffic, posts, List.filterMap_append, ← posts, posts_traffic]
      rfl
    refine .interrupted (j + 1) e u (by omega) ?_ ((hwaits j).trans hwait) (sent_step hsent hid hposts)
    rintro (_ | i) hi
    · exact hpace
    · rw [hwaits]
      exact hbefore i (by omega)

theorem requestLoop_run (s : RpcState) (hmax : client.maxRetries = (attempt + n : ℕ)) :
    Eff.wp (requestLoop env client call (n + 1) attempt) s
      (LoopRun env client call s attempt (stopIndex (againFrom env call s) n)) := by
  induction n generalizing attempt s with
  | zero =>
    cases hpace : paced env client (clockOf s) with
    | error e => exact requestLoop_unpaced 0 hpace
    | ok _ =>
      obtain ⟨t, hrun, hposted⟩ := attempt_paced call hpace
      rw [Eff.wp_iff, requestLoop_stops hrun (.inr (by omega)), stopIndex]
      exact hposted.stops hpace
  | succ n ih =>
    cases hpace : paced env client (clockOf s) with
    | error e => exact requestLoop_unpaced (n + 1) hpace
    | ok _ =>
      obtain ⟨t, hrun, hposted⟩ := attempt_paced call hpace
      by_cases hagain : againFrom env call s 0 = true
      · obtain ⟨e, he, -⟩ := retries_error hagain
        rw [he] at hrun
        rw [Eff.wp_iff, requestLoop_again hrun (he ▸ hagain) (by omega), stopIndex, if_pos hagain]
        cases hrest : rested env client t.readings t.draws attempt with
        | error e' =>
          obtain ⟨u, hstop, hquiet⟩ := rests_stop (requestLoop env client call (n + 1) (attempt + 1)) hrest
          rw [hstop]
          refine .interrupted 1 e' u (by omega) ?_ ?_ (sent_step (sent_zero hquiet) hposted.nextId hposted.posts)
          · intro i hi
            rw [Nat.lt_one_iff.mp hi]
            exact hpace
          · rw [hposted.waits_one, hrest]
            rfl
        | ok _ =>
          obtain ⟨v, hgo, hrests⟩ := rests_then (requestLoop env client call (n + 1) (attempt + 1)) hrest
          obtain ⟨seconds, htraffic⟩ := hrests.traffic
          have hid : v.nextId = s.nextId + 1 := hrests.nextId.trans hposted.nextId
          have hclock := hrests.clock.trans hposted.clock
          have hdraws : v.draws = s.draws + 1 := by rw [hrests.draws, hposted.draws]
          have hrested : rested env client v.readings s.draws attempt = .ok () := by
            have hreadings : v.readings = t.readings := congrArg Prod.fst hrests.clock
            rw [hreadings, ← hposted.draws]
            exact hrest
          rw [hgo]
          rw [againFrom_succ hid]
          have hsent : traffic v.events = traffic s.events ++
              [.posted (payloadAt call s.nextId), .backedOff seconds] := by
            rw [htraffic, hposted.traffic, List.append_assoc]
            rfl
          exact (ih v (by omega)).again hpace (waits_succ hclock hdraws hrested) hid hsent
      · rw [Eff.wp_iff, requestLoop_stops hrun (.inl (by simpa [againFrom] using hagain)), stopIndex,
          if_neg hagain]
        exact hposted.stops hpace

theorem request_run {R : ℕ} (hR : client.maxRetries = R) (s : RpcState) :
    Eff.wp (request env client call) s
      (LoopRun env client call s 0 (stopIndex (againFrom env call s) R)) := by
  have hcount : (client.maxRetries + 1).toNat = R + 1 := by omega
  rw [request, hcount]
  exact requestLoop_run s (by rw [hR, Nat.zero_add])

def postCount (s : RpcState) : ℕ := (posts s.events).length

theorem readBody_error {method : String} {body : Option Json} {e : Exc}
    (h : readBody env method body = .error e) : e.isRpcError = true := by
  unfold readBody at h
  split at h
  · split at h
    · cases h
      rfl
    · split at h
      · cases h
      · cases h
        rfl
  · cases h
    rfl
  · cases h
    rfl

theorem readOutcome_error {method : String} {outcome : HttpOutcome} {e : Exc}
    (h : readOutcome env method outcome = .error e) : e.isRpcError = true := by
  cases outcome with
  | timeout =>
    cases h
    rfl
  | transportError className =>
    cases h
    rfl
  | response statusCode body =>
    rw [readOutcome] at h
    split_ifs at h
    · cases h
      rfl
    · cases h
      rfl
    · cases h
      rfl
    · exact readBody_error h

structure BoundedRetry (env : HttpEnvironment) (R : ℕ) (call : RpcCall)
    (s t : RpcState) (r : Except Exc Json) : Prop where
  firstDecisive : ∀ i, (∀ j < i, againFrom env call s j = true) → againFrom env call s i = false →
    postCount t = postCount s + min (i + 1) (R + 1)
  noneDecisive : (∀ j, againFrom env call s j = true) → postCount t = postCount s + (R + 1)
  outcome : ∃ last, postCount t = postCount s + (last + 1) ∧ r = repliesFrom env call s last
  backoffs : ∃ sent, traffic t.events = traffic s.events ++ sent ∧ Alternates sent
  reachable : r ≠ .error (.runtimeError "unreachable RPC retry state")

theorem repliesFrom_reachable {message : String} :
    repliesFrom env call s j ≠ .error (.runtimeError message) := by
  intro h
  cases readOutcome_error h

-- sleep_fn takes every wait that the replies lead to, and every delay fits a float
def SleepsReturn (env : HttpEnvironment) (client : EthereumJsonRpcClient) (R : ℕ) (call : RpcCall)
    (s : RpcState) : Prop :=
  ∀ j ≤ stopIndex (againFrom env call s) R, waits env client s 0 j = .ok ()

theorem SentTimes.postCount {count : ℕ} (h : SentTimes call s t count) :
    postCount t = postCount s + count := by
  rw [EthereumJsonRpcClient.postCount, h.posts, List.length_append, List.length_map,
    List.length_range]
  rfl

theorem request_finished {R : ℕ} (hR : client.maxRetries = R) {call : RpcCall} {s : RpcState}
    (hsleeps : SleepsReturn env client R call s) :
    ∃ t, request env client call s =
        (repliesFrom env call s (stopIndex (againFrom env call s) R), t) ∧
      Exchange call s t (stopIndex (againFrom env call s) R) := by
  have hloop : LoopRun env client call s 0 _ (request env client call s).1
    (request env client call s).2 := request_run hR s
  rcases hrun : request env client call s with ⟨r, t⟩
  rw [hrun] at hloop
  cases hloop with
  | finished _ _ hexchange => exact ⟨t, rfl, hexchange⟩
  | interrupted j e _ hle _ hwait _ =>
    rw [hsleeps j hle] at hwait
    cases hwait

theorem request_interrupted {R : ℕ} (hR : client.maxRetries = R) {call : RpcCall} {s : RpcState}
    (hsleeps : ¬ SleepsReturn env client R call s) :
    ∃ j e t, request env client call s = (.error e, t) ∧ e.isPipelineError = false ∧
      j ≤ stopIndex (againFrom env call s) R ∧ (∀ i < j, waits env client s 0 i = .ok ()) ∧
      waits env client s 0 j = .error e ∧ SentTimes call s t j := by
  have hloop : LoopRun env client call s 0 _ (request env client call s).1
    (request env client call s).2 := request_run hR s
  rcases hrun : request env client call s with ⟨r, t⟩
  rw [hrun] at hloop
  generalize hlast : stopIndex (againFrom env call s) R = last at hloop
  cases hloop with
  | finished _ hwaits _ =>
    rw [SleepsReturn, hlast] at hsleeps
    exact absurd hwaits hsleeps
  | interrupted j e _ hle hbefore hwait hsent =>
    exact ⟨j, e, t, rfl, waits_error hwait, hlast ▸ hle, hbefore, hwait, hsent⟩

theorem request_interrupted_at {R : ℕ} (hR : client.maxRetries = R) {call : RpcCall} {s : RpcState}
    {e : Exc} (hle : j ≤ stopIndex (againFrom env call s) R)
    (hbefore : ∀ i < j, waits env client s 0 i = .ok ()) (hwait : waits env client s 0 j = .error e) :
    ∃ t, request env client call s = (.error e, t) ∧ SentTimes call s t j := by
  have hsleeps : ¬ SleepsReturn env client R call s := by
    intro hsleeps
    rw [hsleeps j hle] at hwait
    cases hwait
  obtain ⟨i, e', t, hrun, -, -, hbefore', hwait', hsent⟩ := request_interrupted hR hsleeps
  obtain rfl : i = j := by
    rcases Nat.lt_trichotomy i j with hlt | heq | hgt
    · rw [hbefore i hlt] at hwait'
      cases hwait'
    · exact heq
    · rw [hbefore' j hgt] at hwait
      cases hwait
  rw [hwait] at hwait'
  cases hwait'
  exact ⟨t, hrun, hsent⟩

theorem request_bounded_iff {R : ℕ} (hR : client.maxRetries = R) (call : RpcCall) (s : RpcState) :
    BoundedRetry env R call s (request env client call s).2 (request env client call s).1 ↔
      SleepsReturn env client R call s := by
  constructor
  · rintro ⟨-, -, ⟨last, -, hr⟩, -, -⟩
    by_contra hsleeps
    obtain ⟨j, e, t, hrun, hforeign, -⟩ := request_interrupted hR hsleeps
    rw [hrun] at hr
    have hrpc := readOutcome_error hr.symm
    rw [Exc.not_rpc_of_foreign hforeign] at hrpc
    cases hrpc
  · intro hsleeps
    obtain ⟨t, hrun, hexchange⟩ := request_finished hR hsleeps
    rw [hrun]
    obtain ⟨sent, hsent, halternates, -⟩ := hexchange.sent
    refine ⟨?_, ?_, ⟨_, hexchange.sentTimes.postCount, rfl⟩, ⟨sent, hsent, halternates⟩, ?_⟩
    · intro i hbefore hstop
      rw [hexchange.sentTimes.postCount, stopIndex_first hbefore hstop]
      omega
    · intro hall
      rw [hexchange.sentTimes.postCount, stopIndex_all fun j _ => hall j]
    · exact repliesFrom_reachable

theorem ethGetLogs_state {σ : Type} (request : JsonRpc σ) (fromBlock toBlock : Int)
    (address : Option Text) (topics : List Text) (s : σ) :
    (ethGetLogs request fromBlock toBlock address topics s).2 = s ∨
      ∃ call, (ethGetLogs request fromBlock toBlock address topics s).2 = (request call s).2 := by
  rw [ethGetLogs]
  split_ifs
  · exact .inl rfl
  · exact .inl rfl
  · right
    refine ⟨⟨"eth_getLogs", [.obj (logParams fromBlock toBlock address topics)]⟩, ?_⟩
    rcases hrun : request ⟨"eth_getLogs", [.obj (logParams fromBlock toBlock address topics)]⟩ s
      with ⟨e | result, t⟩
    · rw [Eff.bind_of_error hrun]
    · rw [Eff.bind_of_ok hrun]
      cases result with
      | arr rows => rfl
      | _ => rfl

theorem request_sent {R : ℕ} (hR : client.maxRetries = R) (call : RpcCall) (s : RpcState) :
    ∃ count ≤ R + 1, SentTimes call s (request env client call s).2 count := by
  have hle := stopIndex_le (againFrom env call s) R
  by_cases hsleeps : SleepsReturn env client R call s
  · obtain ⟨t, hrun, hexchange⟩ := request_finished hR hsleeps
    rw [hrun]
    exact ⟨_, by omega, hexchange.sentTimes⟩
  · obtain ⟨j, e, t, hrun, -, hj, -, -, hsent⟩ := request_interrupted hR hsleeps
    rw [hrun]
    exact ⟨j, by omega, hsent⟩

theorem request_postCount_le {R : ℕ} (hR : client.maxRetries = R) (call : RpcCall) (s : RpcState) :
    postCount (request env client call s).2 ≤ postCount s + (R + 1) := by
  obtain ⟨count, hle, hsent⟩ : ∃ count ≤ R + 1, SentTimes call s (request env client call s).2 count :=
    request_sent hR call s
  rw [hsent.postCount]
  omega

end EthereumLogs.EthereumJsonRpcClient
