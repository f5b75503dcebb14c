import EthereumLogs.Library.Spacing
import EthereumLogs.RpcTransport.Retry
import Mathlib.Data.Rat.Floor

namespace EthereumLogs.EthereumJsonRpcClient
open Python Effect Spacing

def SleepAdvances (events : List RpcEvent) : Prop :=
  ∀ now seconds later, [.clockRead now, .paced seconds, .clockRead later] <:+: events →
    now + seconds ≤ later

def firstSleepAdvances : List RpcEvent → Bool
  | .clockRead now :: .paced seconds :: .clockRead later :: _ => now + seconds ≤ later
  | _ => true

def sleepsAdvance : List RpcEvent → Bool
  | [] => true
  | event :: events => firstSleepAdvances (event :: events) && sleepsAdvance events

theorem sleepsAdvance_sound {events : List RpcEvent} (h : sleepsAdvance events = true) :
    SleepAdvances events := by
  intro now seconds later hin
  induction events with
  | nil => simp at hin
  | cons event events ih =>
    obtain ⟨hfirst, hrest⟩ := Bool.and_eq_true_iff.mp h
    rcases List.infix_cons_iff.mp hin with ⟨rest, hstarts⟩ | hlater
    · rw [← hstarts] at hfirst
      simpa [firstSleepAdvances] using hfirst
    · exact ih hrest hlater

def attemptStamps : Option Rat → List RpcEvent → List (Option Rat)
  | _, [] => []
  | _, .stamped now :: events => attemptStamps (some now) events
  | last, .posted _ :: events => last :: attemptStamps last events
  | last, _ :: events => attemptStamps last events

def lastStamp : Option Rat → List RpcEvent → Option Rat
  | last, [] => last
  | _, .stamped now :: events => lastStamp (some now) events
  | last, _ :: events => lastStamp last events

theorem attemptStamps_append (last : Option Rat) (events more : List RpcEvent) :
    attemptStamps last (events ++ more) =
      attemptStamps last events ++ attemptStamps (lastStamp last events) more := by
  induction events generalizing last with
  | nil => rfl
  | cons event events ih =>
    cases event with
    | posted payload => exact congrArg (last :: ·) (ih last)
    | _ => exact ih _

structure Pacing (interval : Rat) (s : RpcState) (stamps : List Rat) : Prop where
  attempts : attemptStamps none s.events = stamps.map some
  spaced : Spaced interval stamps
  last : s.lastRequestAt = stamps.getLast?

def Paced (interval : Rat) (s : RpcState) : Prop :=
  SleepAdvances s.events → ∃ stamps, Pacing interval s stamps

variable {env : HttpEnvironment} {client : EthereumJsonRpcClient} {s t : RpcState}
  {interval : Rat} {call : RpcCall} {events more : List RpcEvent}

theorem SleepAdvances.mono (h : SleepAdvances (events ++ more)) : SleepAdvances events :=
  fun now seconds later hin => h now seconds later (hin.trans (List.infix_append_left))

theorem paced_initial (interval : Rat) : Paced interval .initial :=
  fun _ => ⟨[], rfl, spaced_nil interval, rfl⟩

theorem Paced.quiet (h : Paced interval s) (more : List RpcEvent) (hevents : t.events = s.events ++ more)
    (hnone : ∀ last, attemptStamps last more = []) (hlast : t.lastRequestAt = s.lastRequestAt) :
    Paced interval t := by
  intro hsleep
  rw [hevents] at hsleep
  obtain ⟨stamps, hattempts, hspaced, hlasts⟩ := h hsleep.mono
  refine ⟨stamps, ?_, hspaced, hlast.trans hlasts⟩
  rw [hevents, attemptStamps_append, hnone, List.append_nil, hattempts]

structure RateLimited (interval : Rat) (s t : RpcState) (lead : List RpcEvent) (now : Rat) : Prop where
  nextId : t.nextId = s.nextId
  events : t.events = s.events ++ lead ++ [.stamped now]
  silent : ∀ last rest, attemptStamps last (lead ++ rest) = attemptStamps last rest
  lastRequestAt : t.lastRequestAt = some now
  after : SleepAdvances t.events → ∀ last, s.lastRequestAt = some last → last + interval ≤ now

theorem rateLimited_now {now : Rat} (hid : t.nextId = s.nextId)
    (hevents : t.events = s.events ++ [.clockRead now] ++ [.stamped now])
    (hlast : t.lastRequestAt = some now)
    (hafter : ∀ last, s.lastRequestAt = some last → last + interval ≤ now) :
    RateLimited interval s t [.clockRead now] now :=
  ⟨hid, hevents, fun _ _ => rfl, hlast, fun _ => hafter⟩

theorem rateLimited_slept (now later : Rat) {last : Rat} (hid : t.nextId = s.nextId)
    (hstamp : s.lastRequestAt = some last)
    (hevents : t.events = s.events ++
      [.clockRead now, .paced (interval - (now - last)), .clockRead later] ++ [.stamped later])
    (hlast : t.lastRequestAt = some later) :
    RateLimited interval s t
      [.clockRead now, .paced (interval - (now - last)), .clockRead later] later := by
  refine ⟨hid, hevents, fun _ _ => rfl, hlast, ?_⟩
  intro hsleep last' hlast'
  rw [hstamp, Option.some.injEq] at hlast'
  subst hlast'
  have hin : [.clockRead now, .paced (interval - (now - last)), .clockRead later] <:+: t.events := by
    rw [hevents]
    exact ⟨s.events, [.stamped later], rfl⟩
  have hadvance := hsleep _ _ _ hin
  linarith

theorem rateLimit_limited (env : HttpEnvironment) (client : EthereumJsonRpcClient) (s : RpcState) :
    (∃ t lead now, rateLimit env client s = (.ok (), t) ∧
        RateLimited client.minIntervalSeconds s t lead now) ∨
      ∃ e t now, rateLimit env client s = (.error e, t) ∧ t.events = s.events ++ [.clockRead now] ∧
        t.lastRequestAt = s.lastRequestAt := by
  rw [rateLimit, Eff.bind_of_ok (readClock_run env s), Eff.get_bind]
  cases hlast : s.lastRequestAt with
  | none =>
    simp only [RpcState.emit]
    exact .inl ⟨_, _, _, rfl, rateLimited_now rfl rfl rfl (by simp [hlast])⟩
  | some last =>
    simp only [RpcState.emit]
    split_ifs with hremaining
    · cases hsleep : env.sleep.run (s.readings + 1)
          (client.minIntervalSeconds - (env.monotonic s.readings - last)) with
      | error e =>
        rw [Eff.bind_of_error (sleepFor_error hsleep)]
        exact .inr ⟨e, _, _, rfl, rfl, rfl⟩
      | ok _ =>
        rw [Eff.bind_of_ok (sleepFor_ok hsleep)]
        exact .inl ⟨_, _, _, rfl, rateLimited_slept (env.monotonic s.readings)
          (env.monotonic (s.readings + 1)) rfl hlast (by simp [RpcState.emit]) rfl⟩
    · refine .inl ⟨_, _, _, rfl, rateLimited_now rfl rfl rfl ?_⟩
      intro last' hlast'
      rw [hlast, Option.some.injEq] at hlast'
      subst hlast'
      linarith

theorem Paced.attempt (h : Paced client.minIntervalSeconds s) :
    Eff.wp (do rateLimit env client; requestOnce env call) s
      fun _ t => Paced client.minIntervalSeconds t := by
  rcases rateLimit_limited env client s with
    ⟨u, lead, now, hrun, hlimited⟩ | ⟨e, u, now, hrun, hevents, hlast⟩
  · rw [Eff.wp_iff, Eff.bind_of_ok hrun]
    change Paced client.minIntervalSeconds
      ({ u with nextId := u.nextId + 1 }.emit (.posted ⟨u.nextId, call.method, call.params⟩))
    intro hsleep
    have hsleepNow : SleepAdvances u.events := hsleep.mono
    have hsleepBefore : SleepAdvances s.events := by
      have hevents := hsleepNow
      rw [hlimited.events, List.append_assoc] at hevents
      exact hevents.mono
    obtain ⟨stamps, hattempts, hspaced, hlast⟩ := h hsleepBefore
    refine ⟨stamps ++ [now], ?_, hspaced.append ?_, ?_⟩
    · rw [RpcState.emit, hlimited.events, List.append_assoc, List.append_assoc, attemptStamps_append,
        List.append_assoc, hlimited.silent, hattempts, List.map_append]
      rfl
    · intro x hx
      exact hlimited.after hsleepNow x (hlast.trans hx)
    · rw [List.getLast?_concat]
      exact hlimited.lastRequestAt
  · rw [Eff.wp_iff, Eff.bind_of_error hrun]
    exact h.quiet [.clockRead now] hevents (fun _ => rfl) hlast

theorem backoffDelay_events (env : HttpEnvironment) (client : EthereumJsonRpcClient) (n : ℕ)
    (s : RpcState) : Eff.wp (backoffDelay env client n) s
      fun _ t => t.events = s.events ∧ t.lastRequestAt = s.lastRequestAt := by
  rw [backoffDelay, Eff.wp_bind, Eff.wp_ofExcept]
  cases timesFloat client.retryBackoffSeconds (2 ^ n) with
  | error e => exact ⟨rfl, rfl⟩
  | ok base => exact ⟨rfl, rfl⟩

theorem sleepFor_events (env : HttpEnvironment) (event : Rat → RpcEvent) (seconds : Rat)
    (s : RpcState) : Eff.wp (sleepFor env event seconds) s fun r t =>
      t.lastRequestAt = s.lastRequestAt ∧
        t.events = s.events ++ (if r.isOk then [event seconds] else []) := by
  rw [Eff.wp_iff]
  cases hsleep : env.sleep.run s.readings seconds with
  | error e =>
    rw [sleepFor_error hsleep]
    simp [Except.isOk, Except.toBool]
  | ok _ =>
    rw [sleepFor_ok hsleep]
    simp [RpcState.emit, Except.isOk, Except.toBool]

theorem Paced.requestLoop (remaining attempt : ℕ) (h : Paced client.minIntervalSeconds s) :
    Eff.wp (requestLoop env client call remaining attempt) s
      fun _ t => Paced client.minIntervalSeconds t := by
  induction remaining generalizing attempt s with
  | zero => exact h
  | succ remaining ih =>
    rw [EthereumJsonRpcClient.requestLoop]
    refine Eff.wp_catch h.attempt ?_ ?_
    · exact fun _ _ ht => ht
    · intro exc t ht
      split_ifs
      · exact ht
      · refine Eff.wp_seq (backoffDelay_events env client attempt t) ?_ ?_
        · rintro delay u ⟨hevents, hlast⟩
          have hu : Paced client.minIntervalSeconds u :=
            ht.quiet [] (by simp [hevents]) (fun _ => rfl) hlast
          refine Eff.wp_seq (sleepFor_events env .backedOff delay u) ?_ ?_
          · rintro _ v ⟨hlast', hevents'⟩
            exact ih (attempt + 1) (hu.quiet [.backedOff delay] hevents' (fun _ => rfl) hlast')
          · rintro e v ⟨hlast', hevents'⟩
            exact hu.quiet [] hevents' (fun _ => rfl) hlast'
        · rintro e u ⟨hevents, hlast⟩
          exact ht.quiet [] (by simp [hevents]) (fun _ => rfl) hlast
      · exact ht

-- eth_get_block_by_number and eth_get_finalized_block are ethGetBlock on a number and on a tag
inductive ClientCall where
  | ethChainId
  | ethGetBlock (blockRef : Text) (fullTransactions : Bool)
  | ethGetLogs (fromBlock toBlock : Int) (address : Option Text) (topics : List Text)

def ClientCall.perform {σ : Type} (request : JsonRpc σ) : ClientCall → Action σ Unit
  | .ethChainId => do
    let _ ← EthereumJsonRpcClient.ethChainId request
    pure ()
  | .ethGetBlock blockRef fullTransactions => do
    let _ ← EthereumJsonRpcClient.ethGetBlock request blockRef fullTransactions
    pure ()
  | .ethGetLogs fromBlock toBlock address topics => do
    let _ ← EthereumJsonRpcClient.ethGetLogs request fromBlock toBlock address topics
    pure ()

theorem ClientCall.perform_keeps {σ : Type} {request : JsonRpc σ} {Inv : σ → Prop}
    (hrequest : ∀ call s, Inv s → Inv (request call s).2) (c : ClientCall) {s : σ} (h : Inv s) :
    Eff.wp (c.perform request) s fun _ t => Inv t := by
  cases c with
  | ethChainId =>
    apply Eff.wp_map_state
    refine Eff.wp_seq (R := fun _ t => Inv t) (hrequest _ s h) ?_ ?_
    · exact fun _ _ ht => ht
    · exact fun _ _ ht => ht
  | ethGetBlock blockRef fullTransactions =>
    apply Eff.wp_map_state
    refine Eff.wp_seq (R := fun _ t => Inv t) (hrequest _ s h) ?_ ?_
    · intro result t ht
      cases asObject result with
      | none => exact ht
      | some block => exact ht
    · exact fun _ _ ht => ht
  | ethGetLogs fromBlock toBlock address topics =>
    apply Eff.wp_map_state
    rw [Eff.wp_iff]
    rcases ethGetLogs_state request fromBlock toBlock address topics s with hsame | ⟨call, hcall⟩
    · rw [hsame]
      exact h
    · rw [hcall]
      exact hrequest call s h

def runCalls (env : HttpEnvironment) (client : EthereumJsonRpcClient) (calls : List ClientCall) :
    RpcState :=
  history (calls.map fun c => c.perform (request env client)) .initial

theorem runCalls_paced (env : HttpEnvironment) (client : EthereumJsonRpcClient)
    (calls : List ClientCall) : Paced client.minIntervalSeconds (runCalls env client calls) := by
  apply history_invariant (paced_initial _)
  intro m hm t ht
  obtain ⟨c, -, rfl⟩ := List.mem_map.mp hm
  exact c.perform_keeps (fun call s hs => hs.requestLoop _ 0) ht

structure PacedStamps (r : Rat) (stamps : List Rat) : Prop where
  apart : ∀ (i j : ℕ) (hi : i < stamps.length) (hj : j < stamps.length), i < j →
    stamps[i] + ((j : Rat) - i) / r ≤ stamps[j]
  window : ∀ start length, (within start length stamps).length ≤ ⌊length * r⌋₊ + 1

theorem spaced_stamps {r : Rat} (hr : 0 < r) {stamps : List Rat} (h : Spaced (1 / r) stamps) :
    PacedStamps r stamps := by
  constructor
  · intro i j _ hj hij
    have hle := h.getElem_le hij.le hj
    rwa [mul_one_div] at hle
  · intro start length
    have hlength := h.within_length (one_div_pos.mpr hr) start length
    rwa [div_div_eq_mul_div, div_one] at hlength

theorem init_interval {maxRetries : Int} {r backoff jitter : Rat}
    (h : init maxRetries r backoff jitter = .ok client) :
    0 < r ∧ r ≤ 4 ∧ client.minIntervalSeconds = 1 / r := by
  rw [init] at h
  split_ifs at h with hrate
  obtain ⟨hpos, hle⟩ := not_or.mp hrate
  cases h
  exact ⟨not_le.mp hpos, not_lt.mp hle, rfl⟩

theorem rateLimit_pacing (env : HttpEnvironment) (maxRetries : Int) (r backoff jitter : Rat)
    (client : EthereumJsonRpcClient) (hinit : init maxRetries r backoff jitter = .ok client)
    (calls : List ClientCall) (hclock : SleepAdvances (runCalls env client calls).events) :
    ∃ stamps, attemptStamps none (runCalls env client calls).events = stamps.map some ∧
      PacedStamps r stamps := by
  obtain ⟨hpos, -, hinterval⟩ := init_interval hinit
  obtain ⟨stamps, hattempts, hspaced, -⟩ := runCalls_paced env client calls hclock
  rw [hinterval] at hspaced
  exact ⟨stamps, hattempts, spaced_stamps hpos hspaced⟩

def tickingEnv : HttpEnvironment :=
  .ticking fun _ => .response 200 (some (.obj [("result", .str "0x1".toList)]))

def slowClient : EthereumJsonRpcClient := ⟨3, 1, 1 / 4, 1 / (1 / 2)⟩

theorem slowClient_init : init 3 (1 / 2) 1 (1 / 4) = .ok slowClient := by
  rw [init, if_neg (by norm_num)]
  rfl

theorem slowClient_sleeps :
    SleepAdvances (runCalls tickingEnv slowClient [.ethChainId, .ethChainId]).events :=
  sleepsAdvance_sound (by decide +kernel)

theorem rateLimit_pacing_slowClient :
    ∃ stamps, attemptStamps none
        (runCalls tickingEnv slowClient [.ethChainId, .ethChainId]).events = stamps.map some ∧
      PacedStamps (1 / 2) stamps :=
  rateLimit_pacing tickingEnv 3 (1 / 2) 1 (1 / 4) slowClient slowClient_init
    [.ethChainId, .ethChainId] slowClient_sleeps

end EthereumLogs.EthereumJsonRpcClient
