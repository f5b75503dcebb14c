import EthereumLogs.RpcTransport.RateLimit
import EthereumLogs.Python.Digits

namespace EthereumLogs.EthereumJsonRpcClient
open Python Effect Retry

variable {env : HttpEnvironment} {client : EthereumJsonRpcClient} {R : ℕ} {call : RpcCall}
  {s t : RpcState} {j id : ℕ} {Promise : RpcCall → Json → Prop}

def transient : HttpOutcome → Bool
  | .timeout => true
  | .transportError _ => true
  | .response statusCode _ => statusCode = 429 || (500 ≤ statusCode && statusCode ≤ 599)

def WellServed (env : HttpEnvironment) (Promise : RpcCall → Json → Prop) : Prop :=
  ∀ call id, transient (env.post (payloadAt call id)) = true ∨
    ∃ result, outcomeAt env call id = .ok result ∧ Promise call result

def Starved (env : HttpEnvironment) (R : ℕ) (payload : RpcPayload) : Prop :=
  ∀ i ≤ R, transient (env.post { payload with id := payload.id + i }) = true

theorem readOutcome_transient {method : String} {outcome : HttpOutcome}
    (h : transient outcome = true) : retries (readOutcome env method outcome) = true := by
  cases outcome with
  | timeout => rfl
  | transportError className => rfl
  | response statusCode body =>
    simp only [transient, Bool.or_eq_true, decide_eq_true_eq, Bool.and_eq_true] at h
    rw [readOutcome]
    split_ifs with hlimit hserver hclient
    · rfl
    · rfl
    · exact absurd h (not_or.mpr ⟨hlimit, hserver⟩)
    · exact absurd h (not_or.mpr ⟨hlimit, hserver⟩)

theorem WellServed.transient_iff (h : WellServed env Promise) :
    transient (env.post (payloadAt call id)) = true ↔ retries (outcomeAt env call id) = true := by
  refine ⟨readOutcome_transient, ?_⟩
  intro hretries
  rcases h call id with htransient | ⟨result, hresult, -⟩
  · exact htransient
  · rw [hresult] at hretries
    cases hretries

theorem WellServed.starved_iff (h : WellServed env Promise) :
    Starved env R (payloadAt call (s.nextId + j)) ↔ ∀ i ≤ R, againFrom env call s (j + i) = true := by
  refine forall₂_congr fun i _ => ?_
  rw [againFrom, repliesFrom, ← h.transient_iff, ← Nat.add_assoc]
  rfl

theorem WellServed.reply (h : WellServed env Promise) (call : RpcCall) (s : RpcState) (j : ℕ) :
    (againFrom env call s j = true ∧ ∃ e, repliesFrom env call s j = .error e ∧
        e.isRetryableRpcError = true) ∨
      (againFrom env call s j = false ∧ ∃ result, repliesFrom env call s j = .ok result ∧
        Promise call result) := by
  rcases h call (s.nextId + j) with htransient | ⟨result, hresult, hpromise⟩
  · have hagain := h.transient_iff.mp htransient
    obtain ⟨e, he, hretryable, -⟩ := retries_error hagain
    exact .inl ⟨hagain, e, he, hretryable⟩
  · refine .inr ⟨?_, result, hresult, hpromise⟩
    rw [againFrom, repliesFrom, hresult]
    rfl

inductive Asked (env : HttpEnvironment) (Promise : RpcCall → Json → Prop) (R : ℕ) (call : RpcCall)
    (id : ℕ) : Except Exc Json → Prop
  | promised (result : Json) (h : Promise call result) : Asked env Promise R call id (.ok result)
  | starved (e : Exc) (he : e.isRetryableRpcError = true) (h : Starved env R (payloadAt call id)) :
      Asked env Promise R call id (.error e)
  | interrupted (e : Exc) (he : e.isPipelineError = false) : Asked env Promise R call id (.error e)

theorem WellServed.starved_of_again (h : WellServed env Promise)
    (hagain : againFrom env call s (stopIndex (againFrom env call s) R) = true) :
    Starved env R (payloadAt call s.nextId) := by
  have hend : stopIndex (againFrom env call s) R = R := by
    rcases stopped_or_exhausted (againFrom env call s) R with hend | hend
    · rw [hagain] at hend
      cases hend
    · exact hend
  refine (h.starved_iff (j := 0)).mpr fun i hi => ?_
  rw [Nat.zero_add]
  rcases Nat.lt_or_ge i R with hlt | hge
  · exact again_before (by rwa [hend])
  · rw [hend] at hagain
    rwa [Nat.le_antisymm hi hge]

theorem request_asked (h : WellServed env Promise) (hR : client.maxRetries = R) (call : RpcCall)
    (s : RpcState) :
    Eff.wp (request env client call) s fun r _ => Asked env Promise R call s.nextId r := by
  rw [Eff.wp_iff]
  by_cases hsleeps : SleepsReturn env client R call s
  · obtain ⟨t, hrun, -⟩ := request_finished hR hsleeps
    rw [hrun]
    rcases h.reply call s (stopIndex (againFrom env call s) R)
      with ⟨hagain, e, he, hretryable⟩ | ⟨-, result, hresult, hpromise⟩
    · rw [he]
      exact .starved e hretryable (h.starved_of_again hagain)
    · rw [hresult]
      exact .promised result hpromise
  · obtain ⟨j, e, t, hrun, hforeign, -⟩ := request_interrupted hR hsleeps
    rw [hrun]
    exact .interrupted e hforeign

end EthereumLogs.EthereumJsonRpcClient
