import EthereumLogs.RpcTransport.Transient

namespace EthereumLogs.LogCollector
open Python Effect Tiling EthereumJsonRpcClient

variable {env : HttpEnvironment} {rpc : EthereumJsonRpcClient} {R : ℕ} {scope : CollectionScope}
  {Promise : RpcCall → Json → Prop} {logsAt : Int → List RawLog} {lo hi : Int} {chunk : BlockChunk}
  {s t : RpcState}

def Passing (e : Exc) : Prop :=
  e.isRetryableRpcError = true ∨ e.isPipelineError = false ∨ e = BlockRange.intervalNotFinalized

def Dependable (env : HttpEnvironment) (R : ℕ) (scope : CollectionScope) (chunk : BlockChunk) : Prop :=
  ∀ id, ¬ Starved env R (payloadAt (logsCall chunk scope) id)

inductive Collectable (env : HttpEnvironment) (R : ℕ) (scope : CollectionScope) : BlockChunk → Prop
  | served (chunk : BlockChunk) (h : Dependable env R scope chunk) : Collectable env R scope chunk
  | halves (chunk : BlockChunk) (hone : chunk.fromBlock ≠ chunk.toBlock)
      (hleft : Collectable env R scope (chunk.left hone))
      (hright : Collectable env R scope (chunk.right hone)) : Collectable env R scope chunk

def LogsPromised (Promise : RpcCall → Json → Prop) (scope : CollectionScope)
    (logsAt : Int → List RawLog) (lo hi : Int) : Prop :=
  ∀ (chunk : BlockChunk) result, lo ≤ chunk.fromBlock → chunk.toBlock ≤ hi →
    Promise (logsCall chunk scope) result → ∃ rows : List JsonObject, result = .arr (rows.map .obj) ∧
      rows.Perm ((span chunk.fromBlock (chunk.toBlock + 1)).flatMap logsAt)

inductive GotLogs (env : HttpEnvironment) (R : ℕ) (scope : CollectionScope)
    (logsAt : Int → List RawLog) (chunk : BlockChunk) (id : ℕ) : Except Exc (List RawLog) → Prop
  | answered (rows : List RawLog)
      (hrows : rows.Perm ((span chunk.fromBlock (chunk.toBlock + 1)).flatMap logsAt)) :
      GotLogs env R scope logsAt chunk id (.ok rows)
  | starved (e : Exc) (he : e.isRetryableRpcError = true)
      (h : Starved env R (payloadAt (logsCall chunk scope) id)) :
      GotLogs env R scope logsAt chunk id (.error e)
  | interrupted (e : Exc) (he : e.isPipelineError = false) :
      GotLogs env R scope logsAt chunk id (.error e)

theorem filterMap_asObject (rows : List JsonObject) : (rows.map Json.obj).filterMap asObject = rows := by
  rw [List.filterMap_map]
  exact List.filterMap_some

theorem ethGetLogs_got (h : WellServed env Promise) (hR : rpc.maxRetries = R)
    (hpromise : LogsPromised Promise scope logsAt lo hi) (hscope : scope.validate = .ok ())
    (hlo : lo ≤ chunk.fromBlock) (hhi : chunk.toBlock ≤ hi)
    (hcount : chunk.blockCount ≤ maxBlocksPerLogRequest) (s : RpcState) :
    Eff.wp ((connect env rpc).ethGetLogs chunk.fromBlock chunk.toBlock scope.addressFilter scope.topics)
      s fun r _ => GotLogs env R scope logsAt chunk s.nextId r := by
  have hasked := request_asked h hR (logsCall chunk scope) s
  change Eff.wp (ethGetLogs (request env rpc) _ _ _ _) s _
  rw [ethGetLogs_eq chunk (request env rpc) hcount hscope]
  apply Eff.wp_seq hasked
  · intro result t ht
    cases ht with
    | promised _ hresult =>
      obtain ⟨rows, rfl, hrows⟩ := hpromise chunk result hlo hhi hresult
      dsimp only
      rw [Eff.wp_pure, filterMap_asObject]
      exact .answered rows hrows
  · intro e t ht
    cases ht with
    | starved _ he hstarved => exact .starved e he hstarved
    | interrupted _ he => exact .interrupted e he

theorem halves_perm {rows rows' : List RawLog} (hone : chunk.fromBlock ≠ chunk.toBlock)
    (hl : rows.Perm ((span (chunk.left hone).fromBlock ((chunk.left hone).toBlock + 1)).flatMap logsAt))
    (hr : rows'.Perm
      ((span (chunk.right hone).fromBlock ((chunk.right hone).toBlock + 1)).flatMap logsAt)) :
    (rows ++ rows').Perm ((span chunk.fromBlock (chunk.toBlock + 1)).flatMap logsAt) := by
  have hmid := chunk.mid_lt hone
  have hjoin : (chunk.right hone).fromBlock = (chunk.left hone).toBlock + 1 := rfl
  have hspan := span_append (a := (chunk.left hone).fromBlock) (b := (chunk.left hone).toBlock + 1)
    (c := (chunk.right hone).toBlock + 1) (by simp only [BlockChunk.left]; omega)
    (by simp only [BlockChunk.left, BlockChunk.right]; omega)
  change List.Perm (rows ++ rows')
    ((span (chunk.left hone).fromBlock ((chunk.right hone).toBlock + 1)).flatMap logsAt)
  rw [← hspan, List.flatMap_append, ← hjoin]
  exact hl.append hr

theorem foreign_not_retryable {e : Exc} (h : e.isPipelineError = false) :
    e.isRetryableRpcError = false := by
  cases e with
  | rpc error => cases h
  | _ => rfl

theorem Collectable.halves_of_starved {id : ℕ} (h : Collectable env R scope chunk)
    (hstarved : Starved env R (payloadAt (logsCall chunk scope) id)) :
    ∃ hone : chunk.fromBlock ≠ chunk.toBlock,
      Collectable env R scope (chunk.left hone) ∧ Collectable env R scope (chunk.right hone) := by
  cases h with
  | served _ hdependable => exact absurd hstarved (hdependable id)
  | halves _ hone hleft hright => exact ⟨hone, hleft, hright⟩

theorem collectChunk_passes (h : WellServed env Promise) (hR : rpc.maxRetries = R)
    (hpromise : LogsPromised Promise scope logsAt lo hi) (hscope : scope.validate = .ok ())
    (chunk : BlockChunk) (hlo : lo ≤ chunk.fromBlock) (hhi : chunk.toBlock ≤ hi)
    (hcount : chunk.blockCount ≤ maxBlocksPerLogRequest) (hcollect : Collectable env R scope chunk)
    (s : RpcState) :
    Eff.wp (collectChunk (connect env rpc).toLogRpcClient chunk scope) s (Eff.Ends
      (fun rows => rows.Perm ((span chunk.fromBlock (chunk.toBlock + 1)).flatMap logsAt)) Passing) := by
  induction chunk using BlockChunk.halving generalizing s with
  | step chunk ih =>
    rw [collectChunk]
    refine Eff.wp_catch (ethGetLogs_got h hR hpromise hscope hlo hhi hcount s) ?_ ?_
    · intro rows t ht
      cases ht with
      | answered _ hrows => exact hrows
    · intro e t ht
      cases ht with
      | interrupted _ he =>
        rw [if_neg (by rw [foreign_not_retryable he]; decide)]
        exact .inr (.inl he)
      | starved _ he hstarved =>
        obtain ⟨hone, hleft, hright⟩ := hcollect.halves_of_starved hstarved
        rw [if_pos he, dif_neg hone]
        obtain ⟨ihl, ihr⟩ := ih hone
        obtain ⟨hcl, hcr⟩ := halves_count hone hcount
        have hmid := chunk.mid_lt hone
        have hlefthi : (chunk.left hone).toBlock ≤ hi := by
          simp only [BlockChunk.left]
          omega
        have hrightlo : lo ≤ (chunk.right hone).fromBlock := by
          simp only [BlockChunk.right]
          omega
        apply Eff.wp_ends_bind (ihl hlo hlefthi hcl hleft t)
        intro rows u hrows
        apply Eff.wp_ends_bind (ihr hrightlo hhi hcr hright u)
        intro rows' v hrows'
        exact halves_perm hone hrows hrows'

theorem collectChunks_passes (h : WellServed env Promise) (hR : rpc.maxRetries = R)
    (hpromise : LogsPromised Promise scope logsAt lo hi) (hscope : scope.validate = .ok ())
    {chunks : List BlockChunk} {start stop : Int}
    (htiles : Tiles BlockChunk.fromBlock BlockChunk.toBlock start stop chunks) (hlo : lo ≤ start)
    (hhi : stop ≤ hi + 1) (hcount : ∀ chunk ∈ chunks, chunk.blockCount ≤ maxBlocksPerLogRequest)
    (hcollect : ∀ chunk ∈ chunks, Collectable env R scope chunk) (s : RpcState) :
    Eff.wp (collectChunks (connect env rpc).toLogRpcClient scope chunks) s
      (Eff.Ends (fun rows => rows.Perm ((span start stop).flatMap logsAt)) Passing) := by
  induction htiles generalizing s with
  | nil a =>
    rw [collectChunks, Eff.wp_pure, span_self]
    exact List.Perm.refl _
  | cons chunk chunks hle rest ih =>
    have hrest := rest.le
    rw [collectChunks]
    apply Eff.wp_ends_bind (collectChunk_passes h hR hpromise hscope chunk hlo (by omega)
      (hcount chunk (by simp)) (hcollect chunk (by simp)) s)
    intro rows t hrows
    apply Eff.wp_ends_bind (ih (by omega) hhi (fun c hc => hcount c (by simp [hc]))
      (fun c hc => hcollect c (by simp [hc])) t)
    intro rows' u hrows'
    rw [Eff.wp_pure, ← span_append (by omega : chunk.fromBlock ≤ chunk.toBlock + 1) hrest,
      List.flatMap_append]
    exact hrows.append hrows'

theorem collectRawLogs_passes (h : WellServed env Promise) (hR : rpc.maxRetries = R)
    {fromBlock toBlock maxBlocks : Int} (hpromise : LogsPromised Promise scope logsAt fromBlock toBlock)
    (hscope : scope.validate = .ok ()) (h0 : 0 ≤ fromBlock) (hle : fromBlock ≤ toBlock)
    (hmax : 1 ≤ maxBlocks) (hcap : maxBlocks ≤ maxBlocksPerLogRequest)
    (hcollect : ∀ chunks, iterBlockChunks fromBlock toBlock maxBlocks = .ok chunks →
      ∀ chunk ∈ chunks, Collectable env R scope chunk) (s : RpcState) :
    Eff.wp (collectRawLogs (connect env rpc).toLogRpcClient fromBlock toBlock scope maxBlocks) s
      (Eff.Ends (fun rows => rows.Perm ((span fromBlock (toBlock + 1)).flatMap logsAt)) Passing) := by
  obtain ⟨chunks, hok, htiles, hcount⟩ := iterBlockChunks_tiles h0 hle hmax hcap
  rw [collectRawLogs, hscope, hok]
  exact collectChunks_passes h hR hpromise hscope htiles le_rfl le_rfl
    (fun chunk hc => (hcount chunk hc).trans hcap) (hcollect chunks hok) s

end EthereumLogs.LogCollector
