import EthereumLogs.RpcTransport.Retry

namespace EthereumLogs.LogCollector
open Python Effect Tiling Retry EthereumJsonRpcClient

variable {σ : Type} {client : LogRpcClient σ} {scope : CollectionScope} {measure : σ → ℕ} {cost : ℕ}
  {budget more : Int} {s t u : σ × Calls}

def Costs (client : LogRpcClient σ) (measure : σ → ℕ) (cost : ℕ) : Prop :=
  ∀ fromBlock toBlock address topics s,
    measure (client.ethGetLogs fromBlock toBlock address topics s).2 ≤ measure s + cost

def Spent (measure : σ → ℕ) (cost : ℕ) (budget : Int) (s t : σ × Calls) : Prop :=
  ∃ n : ℕ, t.2.length = s.2.length + n ∧ (n : Int) ≤ budget ∧ measure t.1 ≤ measure s.1 + n * cost

theorem Spent.zero (h : 0 ≤ budget) : Spent measure cost budget s s := ⟨0, rfl, h, by simp⟩

theorem Spent.trans (h : Spent measure cost budget s t) (h' : Spent measure cost more t u) :
    Spent measure cost (budget + more) s u := by
  obtain ⟨n, hlength, hle, hmeasure⟩ := h
  obtain ⟨m, hlength', hle', hmeasure'⟩ := h'
  refine ⟨n + m, by omega, by push_cast; omega, ?_⟩
  rw [Nat.add_mul]
  omega

theorem Spent.widen (h : Spent measure cost budget s t) (hle : budget ≤ more) :
    Spent measure cost more s t := by
  obtain ⟨n, hlength, hn, hmeasure⟩ := h
  exact ⟨n, hlength, hn.trans hle, hmeasure⟩

theorem ethGetLogs_spent (h : Costs client measure cost) (chunk : BlockChunk) (s : σ × Calls) :
    Eff.wp ((recorded client).ethGetLogs chunk.fromBlock chunk.toBlock scope.addressFilter scope.topics)
      s (fun _ t => Spent measure cost 1 s t) := by
  rw [recorded, wp_record, Eff.wp_iff]
  exact ⟨1, by simp, le_rfl, by simpa using h _ _ _ _ _⟩

theorem halves_blockCount {chunk : BlockChunk} (h : chunk.fromBlock ≠ chunk.toBlock) :
    (chunk.left h).blockCount + (chunk.right h).blockCount = chunk.blockCount := by
  simp only [BlockChunk.blockCount, BlockChunk.left, BlockChunk.right]
  omega

theorem blockCount_pos (chunk : BlockChunk) : 1 ≤ chunk.blockCount := by
  have := chunk.ordered
  simp only [BlockChunk.blockCount]
  omega

theorem collectChunk_spent (h : Costs client measure cost) (chunk : BlockChunk) (s : σ × Calls) :
    Eff.wp (collectChunk (recorded client) chunk scope) s
      (fun _ t => Spent measure cost (2 * chunk.blockCount - 1) s t) := by
  induction chunk using BlockChunk.halving generalizing s with
  | step chunk ih =>
    have hpos := blockCount_pos chunk
    rw [collectChunk]
    refine Eff.wp_catch (ethGetLogs_spent h chunk s) ?_ ?_
    · intro logs t ht
      exact ht.widen (by omega)
    · intro err t ht
      split_ifs with hretry hone
      · exact ht.widen (by omega)
      · obtain ⟨ihl, ihr⟩ := ih hone
        have hhalves := halves_blockCount hone
        have hleft := blockCount_pos (chunk.left hone)
        have hright := blockCount_pos (chunk.right hone)
        refine Eff.wp_seq (ihl t) ?_ ?_
        · intro left t' hl
          apply Eff.wp_map_state
          refine Eff.wp_mono (ihr t') fun _ t'' hr => ?_
          exact ((ht.trans hl).trans hr).widen (by omega)
        · intro e t' hl
          exact (ht.trans hl).widen (by omega)
      · exact ht.widen (by omega)

theorem collectChunks_spent (h : Costs client measure cost) {chunks : List BlockChunk} {start stop : Int}
    (htiles : Tiles BlockChunk.fromBlock BlockChunk.toBlock start stop chunks) (s : σ × Calls) :
    Eff.wp (collectChunks (recorded client) scope chunks) s
      (fun _ t => Spent measure cost (2 * (stop - start) - chunks.length) s t) := by
  induction htiles generalizing s with
  | nil a => exact .zero (by simp)
  | cons chunk chunks hle rest ih =>
    have hstop := rest.le
    have hcount : chunk.blockCount = chunk.toBlock - chunk.fromBlock + 1 := rfl
    rw [collectChunks, List.length_cons]
    refine Eff.wp_seq (collectChunk_spent h chunk s) ?_ ?_
    · intro logs t ht
      apply Eff.wp_map_state
      refine Eff.wp_mono (ih t) fun _ t' hmore => ?_
      exact (ht.trans hmore).widen (by push_cast; omega)
    · intro e t ht
      have hrest := rest.length_le
      exact ht.widen (by push_cast; omega)

def callBudget (blocks maxBlocks : Int) : Int := 2 * blocks - (blocks + maxBlocks - 1) / maxBlocks

theorem callBudget_nonneg {blocks maxBlocks : Int} (hblocks : 1 ≤ blocks) (hmax : 1 ≤ maxBlocks) :
    0 ≤ callBudget blocks maxBlocks := by
  have hstep : blocks + maxBlocks - 1 = blocks - 1 + maxBlocks * 1 := by omega
  have hle := Int.ediv_le_self maxBlocks (by omega : 0 ≤ blocks - 1)
  rw [callBudget, hstep, Int.add_mul_ediv_left _ _ (by omega)]
  omega

theorem collectRawLogs_spent (h : Costs client measure cost) {fromBlock toBlock maxBlocks : Int}
    (hle : fromBlock ≤ toBlock) (hmax : 1 ≤ maxBlocks) (hcap : maxBlocks ≤ maxBlocksPerLogRequest)
    (s : σ × Calls) :
    Eff.wp (collectRawLogs (recorded client) fromBlock toBlock scope maxBlocks) s
      (fun _ t => Spent measure cost (callBudget (toBlock + 1 - fromBlock) maxBlocks) s t) := by
  have hnonneg := callBudget_nonneg (by omega : 1 ≤ toBlock + 1 - fromBlock) hmax
  rw [collectRawLogs]
  cases scope.validate with
  | error e => exact .zero hnonneg
  | ok _ =>
    rw [Eff.ofExcept_ok_bind]
    cases hchunks : iterBlockChunks fromBlock toBlock maxBlocks with
    | error e => exact .zero hnonneg
    | ok chunks =>
      obtain ⟨h0, -⟩ := iterBlockChunks_ok hchunks
      obtain ⟨_, hok, htiles, -⟩ := iterBlockChunks_tiles h0 hle hmax hcap
      rw [hchunks] at hok
      cases hok
      rw [callBudget, ← iterBlockChunks_length hchunks]
      exact collectChunks_spent h htiles s

section Transport

variable {env : HttpEnvironment} {rpc : EthereumJsonRpcClient} {R : ℕ}

theorem connect_costs (hR : rpc.maxRetries = R) :
    Costs (connect env rpc).toLogRpcClient postCount (R + 1) := by
  intro fromBlock toBlock address topics s
  rcases ethGetLogs_state (request env rpc) fromBlock toBlock address topics s with hstate | ⟨call, hstate⟩
  · exact (congrArg postCount hstate).trans_le (Nat.le_add_right _ _)
  · exact (congrArg postCount hstate).trans_le (request_postCount_le hR call s)

structure Budgeted (R : ℕ) (blocks maxBlocks : Int) (s : RpcState) (t : RpcState × Calls) : Prop where
  calls : (t.2.length : Int) ≤ 2 * blocks - (blocks + maxBlocks - 1) / maxBlocks
  posts : (postCount t.1 : Int) ≤ postCount s +
    (2 * blocks - (blocks + maxBlocks - 1) / maxBlocks) * (R + 1)

theorem collection_budgeted (hR : rpc.maxRetries = R) {fromBlock toBlock maxBlocks : Int}
    (hle : fromBlock ≤ toBlock) (hmax : 1 ≤ maxBlocks) (hcap : maxBlocks ≤ maxBlocksPerLogRequest)
    (s : RpcState) :
    Budgeted R (toBlock + 1 - fromBlock) maxBlocks s
      (collectRawLogs (recorded (connect env rpc).toLogRpcClient) fromBlock toBlock scope maxBlocks
        (s, [])).2 := by
  have hspent : Spent postCount (R + 1) (callBudget (toBlock + 1 - fromBlock) maxBlocks) (s, [])
      (collectRawLogs (recorded (connect env rpc).toLogRpcClient) fromBlock toBlock scope maxBlocks
        (s, [])).2 := collectRawLogs_spent (connect_costs hR) hle hmax hcap (s, [])
  obtain ⟨n, hlength, hn, hposts⟩ := hspent
  have hcalls : (n : Int) * (R + 1) ≤ callBudget (toBlock + 1 - fromBlock) maxBlocks * (R + 1) :=
    mul_le_mul_of_nonneg_right hn (by omega)
  constructor
  · rw [hlength, List.length_nil, Nat.zero_add]
    exact hn
  · have hcast := Int.ofNat_le.mpr hposts
    push_cast at hcast
    exact hcast.trans (Int.add_le_add_left hcalls _)

end Transport

theorem bounded_retry_exact (env : HttpEnvironment) (R : ℕ) (backoff jitter interval : Rat) :
    (∀ call s, BoundedRetry env R call s (request env ⟨R, backoff, jitter, interval⟩ call s).2
        (request env ⟨R, backoff, jitter, interval⟩ call s).1 ↔
      ∀ j ≤ stopIndex (againFrom env call s) R,
        waits env ⟨R, backoff, jitter, interval⟩ s 0 j = .ok ()) ∧
    ∀ scope fromBlock toBlock maxBlocks s, fromBlock ≤ toBlock → 1 ≤ maxBlocks → maxBlocks ≤ 10 →
      Budgeted R (toBlock + 1 - fromBlock) maxBlocks s
        (collectRawLogs (recorded (connect env ⟨R, backoff, jitter, interval⟩).toLogRpcClient) fromBlock
          toBlock scope maxBlocks (s, [])).2 :=
  ⟨fun call s => request_bounded_iff rfl call s,
    fun _ _ _ _ s hle hmax hcap => collection_budgeted rfl hle hmax hcap s⟩

def timingOut : HttpEnvironment := .ticking fun _ => .timeout

def manyRetries : EthereumJsonRpcClient := ⟨40, 1, 1 / 4, 1 / 4⟩

theorem bounded_retry_overflows :
    (request timingOut manyRetries ⟨"eth_chainId", []⟩ .initial).1 =
        .error (.overflowError "timestamp out of range for platform time_t") ∧
      postCount (request timingOut manyRetries ⟨"eth_chainId", []⟩ .initial).2 = 35 ∧
      ¬ BoundedRetry timingOut 40 ⟨"eth_chainId", []⟩ .initial
        (request timingOut manyRetries ⟨"eth_chainId", []⟩ .initial).2
        (request timingOut manyRetries ⟨"eth_chainId", []⟩ .initial).1 := by
  have hstop : stopIndex (againFrom timingOut ⟨"eth_chainId", []⟩ .initial) 40 = 40 :=
    stopIndex_all fun _ _ => rfl
  have hbefore : ∀ j < 35, waits timingOut manyRetries .initial 0 j = .ok () := by decide +kernel
  have hwait : waits timingOut manyRetries .initial 0 35 =
      .error (.overflowError "timestamp out of range for platform time_t") := by decide +kernel
  obtain ⟨t, hrun, hsent⟩ := request_interrupted_at (R := 40) rfl (by rw [hstop]; decide) hbefore hwait
  refine ⟨by rw [hrun], by rw [hrun, hsent.postCount]; rfl, ?_⟩
  rw [request_bounded_iff rfl]
  intro hsleeps
  rw [hsleeps 35 (by rw [hstop]; decide)] at hwait
  cases hwait

end EthereumLogs.LogCollector
