import EthereumLogs.Library.Metering
import EthereumLogs.RpcTransport.Pacing

namespace EthereumLogs.EthereumJsonRpcClient
open Python Effect Metering

variable {env : HttpEnvironment} {client : EthereumJsonRpcClient} {call : RpcCall} {s t : RpcState}
  {attempt n R : ℕ}

def pause : RpcEvent → Rat
  | .paced seconds => seconds
  | .backedOff seconds => seconds
  | _ => 0

def slept (s : RpcState) : Rat := (s.events.map pause).sum

@[simp] theorem slept_emit (event : RpcEvent) (s : RpcState) :
    slept (s.emit event) = slept s + pause event := by simp [slept, RpcState.emit]

-- the clock never goes back and random.uniform(0, b) is at most b
structure Timely (env : HttpEnvironment) : Prop where
  clock : Monotone env.monotonic
  draw : ∀ k jitter, 0 ≤ jitter → env.uniform k jitter ≤ jitter

structure Nonnegative (client : EthereumJsonRpcClient) : Prop where
  backoff : 0 ≤ client.retryBackoffSeconds
  jitter : 0 ≤ client.retryJitterSeconds
  interval : 0 ≤ client.minIntervalSeconds

def Clocked (env : HttpEnvironment) (s : RpcState) : Prop :=
  ∀ last, s.lastRequestAt = some last → ∀ i, s.readings ≤ i → last ≤ env.monotonic i

theorem clocked_initial (env : HttpEnvironment) : Clocked env .initial := by
  intro last hlast
  cases hlast

structure Waited (env : HttpEnvironment) (seconds : Rat) (s t : RpcState) : Prop where
  clocked : Clocked env t
  slept : slept t ≤ slept s + seconds

theorem Waited.trans {seconds more : Rat} {u : RpcState} (h : Waited env seconds s t)
    (h' : Waited env more t u) : Waited env (seconds + more) s u := by
  have hfirst := h.slept
  have hsecond := h'.slept
  exact ⟨h'.clocked, by linarith⟩

theorem Waited.widen {seconds more : Rat} (h : Waited env seconds s t) (hle : seconds ≤ more) :
    Waited env more s t := by
  have hslept := h.slept
  exact ⟨h.clocked, by linarith⟩

theorem clocked_stamped (hclock : Timely env) {i : ℕ} (hlast : t.lastRequestAt = some (env.monotonic i))
    (hpast : i ≤ t.readings) : Clocked env t := by
  intro last hlast' k hk
  rw [hlast] at hlast'
  cases hlast'
  exact hclock.clock (hpast.trans hk)

theorem rateLimit_waited (hclock : Timely env) (hclient : Nonnegative client) (h : Clocked env s) :
    Eff.wp (rateLimit env client) s fun _ t => Waited env client.minIntervalSeconds s t := by
  have hnonneg := hclient.interval
  rw [Eff.wp_iff, rateLimit, Eff.bind_of_ok (readClock_run env s), Eff.get_bind]
  cases hlast : s.lastRequestAt with
  | none =>
    simp only [RpcState.emit]
    refine ⟨clocked_stamped hclock (i := s.readings) rfl (Nat.le_succ _), ?_⟩
    simp [slept, RpcState.emit, stamp, Eff.modify, pause, hnonneg]
  | some last =>
    have hpast := h last hlast s.readings le_rfl
    simp only [RpcState.emit]
    split_ifs with hremaining
    · cases hsleep : env.sleep.run (s.readings + 1)
          (client.minIntervalSeconds - (env.monotonic s.readings - last)) with
      | error e =>
        rw [Eff.bind_of_error (sleepFor_error hsleep)]
        refine ⟨?_, by simp [slept, pause, hnonneg]⟩
        rintro last' hlast' i hi
        cases hlast'
        exact h last hlast i (Nat.le_of_succ_le hi)
      | ok _ =>
        rw [Eff.bind_of_ok (sleepFor_ok hsleep)]
        refine ⟨clocked_stamped hclock (i := s.readings + 1) rfl (Nat.le_succ _), ?_⟩
        change ((s.events ++ [RpcEvent.clockRead _] ++
          [RpcEvent.paced (client.minIntervalSeconds - (env.monotonic s.readings - last))] ++
          [RpcEvent.clockRead _] ++ [RpcEvent.stamped _]).map pause).sum ≤ _
        simp only [List.map_append, List.sum_append, List.map_singleton, List.sum_singleton, pause,
          slept]
        linarith
    · refine ⟨clocked_stamped hclock (i := s.readings) rfl (Nat.le_succ _), ?_⟩
      simp [slept, RpcState.emit, stamp, Eff.modify, pause, hnonneg]

theorem attempt_waited (hclock : Timely env) (hclient : Nonnegative client) (call : RpcCall)
    (h : Clocked env s) :
    Eff.wp (do rateLimit env client; requestOnce env call) s
      fun _ t => Waited env client.minIntervalSeconds s t := by
  refine Eff.wp_seq (rateLimit_waited hclock hclient h) ?_ ?_
  · intro _ t ht
    have hpost : slept ({ t with nextId := t.nextId + 1 }.emit
        (.posted ⟨t.nextId, call.method, call.params⟩)) = slept t := by
      rw [slept_emit]
      exact add_zero _
    exact ⟨ht.clocked, hpost.trans_le ht.slept⟩
  · exact fun _ _ ht => ht

theorem timesFloat_ok {x y : Rat} {k : ℕ} (h : timesFloat x k = .ok y) : y = x * k := by
  unfold timesFloat at h
  split at h
  · cases h
    rfl
  · cases h

theorem backoffDelay_waited (hclock : Timely env) (hclient : Nonnegative client) (attempt : ℕ)
    (h : Clocked env s) :
    Eff.wp (backoffDelay env client attempt) s fun r t => Waited env 0 s t ∧ ∀ delay, r = .ok delay →
      Waited env (client.retryBackoffSeconds * 2 ^ attempt + client.retryJitterSeconds) s
        (t.emit (.backedOff delay)) := by
  rw [backoffDelay, Eff.wp_bind, Eff.wp_ofExcept]
  cases hbase : timesFloat client.retryBackoffSeconds (2 ^ attempt) with
  | error e => exact ⟨⟨h, (add_zero _).ge⟩, fun _ he => by cases he⟩
  | ok base =>
    refine ⟨⟨h, (add_zero _).ge⟩, ?_⟩
    intro delay hdelay
    cases hdelay
    have hdraw := hclock.draw s.draws client.retryJitterSeconds hclient.jitter
    refine ⟨h, ?_⟩
    rw [slept_emit, timesFloat_ok hbase]
    change slept s + _ ≤ _
    simp only [pause]
    push_cast
    linarith

def longestWait (client : EthereumJsonRpcClient) (attempt n : ℕ) : Rat :=
  (n + 1) * client.minIntervalSeconds +
    ((2 ^ n - 1) * (client.retryBackoffSeconds * 2 ^ attempt) + n * client.retryJitterSeconds)

theorem longestWait_succ (client : EthereumJsonRpcClient) (attempt n : ℕ) :
    longestWait client attempt (n + 1) = client.minIntervalSeconds +
      (client.retryBackoffSeconds * 2 ^ attempt + client.retryJitterSeconds) +
      longestWait client (attempt + 1) n := by
  simp only [longestWait]
  push_cast
  ring

theorem longestWait_ge (hclient : Nonnegative client) (attempt n : ℕ) :
    client.minIntervalSeconds ≤ longestWait client attempt n := by
  have hinterval := hclient.interval
  have hpow : (1 : Rat) ≤ 2 ^ n := one_le_pow₀ (by norm_num)
  have hbackoff : 0 ≤ client.retryBackoffSeconds * 2 ^ attempt :=
    mul_nonneg hclient.backoff (by positivity)
  have hretries : 0 ≤ (2 ^ n - 1) * (client.retryBackoffSeconds * 2 ^ attempt) :=
    mul_nonneg (sub_nonneg.mpr hpow) hbackoff
  have hjitter : 0 ≤ (n : Rat) * client.retryJitterSeconds := mul_nonneg (by positivity) hclient.jitter
  have hmore : 0 ≤ (n : Rat) * client.minIntervalSeconds := mul_nonneg (by positivity) hinterval
  rw [longestWait]
  linarith

theorem requestLoop_waited (hclock : Timely env) (hclient : Nonnegative client) (call : RpcCall)
    (hmax : client.maxRetries = (attempt + n : ℕ)) (h : Clocked env s) :
    Eff.wp (requestLoop env client call (n + 1) attempt) s
      fun _ t => Waited env (longestWait client attempt n) s t := by
  induction n generalizing attempt s with
  | zero =>
    rw [requestLoop]
    refine Eff.wp_catch (attempt_waited hclock hclient call h) ?_ ?_
    · intro _ t ht
      exact ht.widen (longestWait_ge hclient attempt 0)
    · intro exc t ht
      have hlast : decide (client.maxRetries ≤ attempt) = true := by
        rw [hmax]
        simp
      rw [hlast, Bool.or_true, if_pos rfl]
      split_ifs
      · exact ht.widen (longestWait_ge hclient attempt 0)
      · exact ht.widen (longestWait_ge hclient attempt 0)
  | succ n ih =>
    rw [requestLoop]
    refine Eff.wp_catch (attempt_waited hclock hclient call h) ?_ ?_
    · intro _ t ht
      exact ht.widen (longestWait_ge hclient attempt (n + 1))
    · intro exc t ht
      have hstop := ht.widen (longestWait_ge hclient attempt (n + 1))
      split_ifs
      · exact hstop
      · refine Eff.wp_seq (backoffDelay_waited hclock hclient attempt ht.clocked) ?_ ?_
        · rintro delay u ⟨hdrawn, hpaused⟩
          have hpaused := hpaused delay rfl
          have hnext : client.maxRetries = (attempt + 1 + n : ℕ) := by
            rw [hmax]
            push_cast
            ring
          cases hsleep : env.sleep.run u.readings delay with
          | error e =>
            rw [Eff.wp_iff, Eff.bind_of_error (sleepFor_error hsleep)]
            exact (hstop.trans hdrawn).widen (add_zero _).le
          | ok _ =>
            rw [Eff.wp_iff, Eff.bind_of_ok (sleepFor_ok hsleep), longestWait_succ]
            exact (ht.trans hpaused).trans (ih hnext hpaused.clocked)
        · rintro e u ⟨hfailed, -⟩
          exact (hstop.trans hfailed).widen (add_zero _).le
      · exact hstop

def longestRequest (client : EthereumJsonRpcClient) (R : ℕ) : Rat := longestWait client 0 R

theorem longestRequest_nonneg (hclient : Nonnegative client) (R : ℕ) :
    0 ≤ longestRequest client R := hclient.interval.trans (longestWait_ge hclient 0 R)

theorem request_waits (hclock : Timely env) (hclient : Nonnegative client)
    (hR : client.maxRetries = R) (call : RpcCall) :
    Bills (Clocked env) slept (longestRequest client R) 1 (request env client call) := by
  intro s hs
  have hcount : (client.maxRetries + 1).toNat = R + 1 := by omega
  have hloop : Eff.wp (requestLoop env client call (R + 1) 0) s
      fun _ t => Waited env (longestWait client 0 R) s t :=
    requestLoop_waited hclock hclient call (by rw [hR, Nat.zero_add]) hs
  rw [request, hcount]
  exact ⟨hloop.clocked, by simpa [longestRequest] using hloop.slept⟩

end EthereumLogs.EthereumJsonRpcClient
