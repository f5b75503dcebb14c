import EthereumLogs.BlockRange.Simulation
import EthereumLogs.Pipeline

namespace EthereumLogs.Pipeline
open Python Effect DeltaWriter EthereumJsonRpcClient

variable {σ τ ω : Type} {R : σ → τ → Prop}

section Client

variable {client : EthereumClient σ} {client' : EthereumClient τ} {request : JsonRpc σ}
  {request' : JsonRpc τ}

structure ClientSimulates (R : σ → τ → Prop) (client : EthereumClient σ)
    (client' : EthereumClient τ) : Prop where
  chainId : Simulates R client.ethChainId client'.ethChainId
  lookups : BlockRange.LookupsSimulate R client.toBlockLookupClient client'.toBlockLookupClient
  logs : LogCollector.LogsSimulate R client.toLogRpcClient client'.toLogRpcClient

theorem ethGetBlock_simulates {blockRef : Text} {full : Bool}
    (h : Simulates R (request ⟨"eth_getBlockByNumber", [.str blockRef, .bool full]⟩)
      (request' ⟨"eth_getBlockByNumber", [.str blockRef, .bool full]⟩)) :
    Simulates R (ethGetBlock request blockRef full) (ethGetBlock request' blockRef full) := by
  apply h.bind
  intro result
  cases asObject result with
  | none => exact simulates_throw _
  | some block => exact simulates_pure _

theorem ofRequest_lookups (h : ∀ call, call.method ≠ "eth_getLogs" →
    Simulates R (request call) (request' call)) :
    BlockRange.LookupsSimulate R (ofRequest request).toBlockLookupClient
      (ofRequest request').toBlockLookupClient := by
  constructor
  · intro n
    exact ethGetBlock_simulates (h _ (by simp))
  · exact ethGetBlock_simulates (h _ (by simp))

theorem ofRequest_chainId (h : ∀ call, call.method ≠ "eth_getLogs" →
    Simulates R (request call) (request' call)) :
    Simulates R (ofRequest request).ethChainId (ofRequest request').ethChainId := by
  apply (h _ (by simp)).bind
  intro result
  exact simulates_ofExcept _

theorem ofRequest_simulates (h : ∀ call, Simulates R (request call) (request' call)) :
    ClientSimulates R (ofRequest request) (ofRequest request') := by
  refine ⟨ofRequest_chainId fun call _ => h call, ofRequest_lookups fun call _ => h call, ?_⟩
  intro fromBlock toBlock address topics
  change Simulates R (ethGetLogs request fromBlock toBlock address topics)
    (ethGetLogs request' fromBlock toBlock address topics)
  unfold ethGetLogs
  split_ifs
  · exact simulates_throw _
  · exact simulates_throw _
  · apply (h _).bind
    intro result
    cases result with
    | arr rows => exact simulates_pure _
    | _ => exact simulates_throw _

theorem lookupTimestamps_simulates
    (h : BlockRange.LookupsSimulate R client.toBlockLookupClient client'.toBlockLookupClient)
    (numbers : List Int) :
    Simulates R (lookupTimestamps client numbers) (lookupTimestamps client' numbers) := by
  induction numbers with
  | nil => exact simulates_pure _
  | cons n numbers ih =>
    apply (h.number n).bind
    intro block
    apply (simulates_ofExcept _).bind
    intro timestamp
    apply ih.bind
    intro timestamps
    exact simulates_pure _

theorem loadBlockTimestamps_simulates
    (h : BlockRange.LookupsSimulate R client.toBlockLookupClient client'.toBlockLookupClient)
    (rawLogs : List RawLog) :
    Simulates R (loadBlockTimestamps client rawLogs) (loadBlockTimestamps client' rawLogs) := by
  apply (simulates_ofExcept _).bind
  intro numbers
  exact lookupTimestamps_simulates h _

theorem fetchLogs_simulates (h : ClientSimulates R client client') (settings : PipelineSettings)
    (start stop : Instant) :
    Simulates R (fetchLogs client settings start stop) (fetchLogs client' settings start stop) := by
  apply h.chainId.bind
  intro chainId
  split_ifs
  · exact simulates_throw _
  · apply (BlockRange.resolve_simulates h.lookups _ _).bind
    intro range
    apply (LogCollector.collectRawLogs_simulates h.logs _ _ _ _).bind
    intro rawLogs
    apply (loadBlockTimestamps_simulates h.lookups _).bind
    intro timestamps
    exact simulates_pure _

theorem prepareRows_simulates (h : ClientSimulates R client client') (interval : Interval ω) :
    Simulates R (prepareRows client interval) (prepareRows client' interval) := by
  apply (simulates_ofExcept _).bind
  intro bounds
  apply (fetchLogs_simulates h _ _ _).bind
  intro fetched
  apply (simulates_ofExcept _).bind
  intro normalized
  exact simulates_pure _

variable {up : σ → Prop}

structure StaysIn (client : EthereumClient σ) (up : σ → Prop) : Prop where
  chainId : ∀ s, up s → up (client.ethChainId s).2
  number : ∀ n s, up s → up (client.ethGetBlockByNumber n s).2
  finalized : ∀ s, up s → up (client.ethGetFinalizedBlock s).2
  logs : ∀ fromBlock toBlock address topics s, up s →
    up (client.ethGetLogs fromBlock toBlock address topics s).2

def StaysIn.restricted (h : StaysIn client up) : EthereumClient {s // up s} where
  ethGetBlockByNumber n := within up (client.ethGetBlockByNumber n) (h.number n)
  ethGetFinalizedBlock := within up client.ethGetFinalizedBlock h.finalized
  ethGetLogs fromBlock toBlock address topics :=
    within up (client.ethGetLogs fromBlock toBlock address topics) (h.logs fromBlock toBlock address topics)
  ethChainId := within up client.ethChainId h.chainId

theorem StaysIn.simulates (h : StaysIn client up) :
    ClientSimulates (fun (s : {s // up s}) t => s.1 = t) h.restricted client where
  chainId := simulates_within h.chainId
  lookups := ⟨fun n => simulates_within (h.number n), simulates_within h.finalized⟩
  logs fromBlock toBlock address topics := simulates_within (h.logs fromBlock toBlock address topics)

end Client

section Run

variable {client : EthereumClient σ} {client' : EthereumClient τ}

structure OnRpc (R : σ → τ → Prop) (w : World σ ω) (w' : World τ ω) : Prop where
  rpc : R w.rpc w'.rpc
  delta : w.delta = w'.delta
  warehouse : w.warehouse = w'.warehouse

theorem onDelta_simulates {α : Type} (m : Action (Option DeltaTable) α) :
    Simulates (OnRpc R) (onDelta m : Action (World σ ω) α) (onDelta m : Action (World τ ω) α) :=
  (simulates_refl m).zoom (fun _ _ h => h.delta) (fun _ _ _ _ h hm => ⟨h.rpc, hm, h.warehouse⟩)

theorem onWarehouse_simulates {α : Type} (m : Option DeltaTable → Action ω α) :
    Simulates (OnRpc R) (onWarehouse m : Action (World σ ω) α)
      (onWarehouse m : Action (World τ ω) α) := by
  apply Simulates.get_bind
  intro w w' h
  have hzoom : Simulates (OnRpc R)
      (Eff.zoom World.warehouse (fun w s => { w with warehouse := s }) (m w'.delta) :
        Action (World σ ω) α)
      (Eff.zoom World.warehouse (fun w s => { w with warehouse := s }) (m w'.delta) :
        Action (World τ ω) α) :=
    (simulates_refl _).zoom (fun _ _ h => h.warehouse) (fun _ _ _ _ h hm => ⟨h.rpc, h.delta, hm⟩)
  rw [h.delta]
  exact hzoom w w' h

theorem runInterval_simulates (h : ClientSimulates R client client') (interval : Interval ω) :
    Simulates (OnRpc R) (runInterval client interval) (runInterval client' interval) := by
  apply ((prepareRows_simulates h interval).zoom (fun _ _ h => h.rpc)
    (fun _ _ _ _ h hR => ⟨hR, h.delta, h.warehouse⟩)).bind
  intro prepared
  apply (onDelta_simulates _).bind
  intro deltaResult
  apply (onWarehouse_simulates _).bind
  intro dbtResult
  exact simulates_pure _

end Run

end EthereumLogs.Pipeline
