import EthereumLogs.LogCollector.Budget
import EthereumLogs.Pipeline.NothingLost
import EthereumLogs.Python.Digits
import EthereumLogs.RpcTransport.RateLimit

namespace EthereumLogs.EthereumJsonRpcClient
open Python Effect Retry

variable {env : HttpEnvironment} {rpc : EthereumJsonRpcClient} {call : RpcCall} {s t u : RpcState}
  {sent more : List RpcPayload} {P Q : RpcPayload → Prop}

structure Sent (s t : RpcState) (sent : List RpcPayload) : Prop where
  posts : posts t.events = posts s.events ++ sent
  ids : sent.map RpcPayload.id = List.range' s.nextId sent.length
  nextId : t.nextId = s.nextId + sent.length

theorem sent_nil (s : RpcState) : Sent s s [] := ⟨by simp, rfl, rfl⟩

theorem Sent.append (h : Sent s t sent) (h' : Sent t u more) : Sent s u (sent ++ more) := by
  refine ⟨?_, ?_, ?_⟩
  · rw [h'.posts, h.posts, List.append_assoc]
  · rw [List.map_append, h.ids, h'.ids, h.nextId, List.range'_append_1, List.length_append]
  · rw [h'.nextId, h.nextId, List.length_append, Nat.add_assoc]

theorem SentTimes.sends {count : ℕ} (h : SentTimes call s t count) :
    Sent s t ((List.range count).map fun j => payloadAt call (s.nextId + j)) := by
  refine ⟨h.posts, ?_, ?_⟩
  · rw [List.map_map, List.length_map, List.length_range, List.range'_eq_map_range]
    rfl
  · rw [h.nextId, List.length_map, List.length_range]

def SendsOnly (P : RpcPayload → Prop) (s t : RpcState) : Prop :=
  ∃ sent, Sent s t sent ∧ ∀ p ∈ sent, P p

theorem sendsOnly_refl (P : RpcPayload → Prop) (s : RpcState) : SendsOnly P s s :=
  ⟨[], sent_nil s, by simp⟩

theorem SendsOnly.trans (h : SendsOnly P s t) (h' : SendsOnly P t u) : SendsOnly P s u := by
  obtain ⟨sent, hsent, hall⟩ := h
  obtain ⟨more, hmore, hall'⟩ := h'
  exact ⟨sent ++ more, hsent.append hmore, List.forall_mem_append.mpr ⟨hall, hall'⟩⟩

def Answered (env : HttpEnvironment) (p : RpcPayload) (answer : Json) : Prop :=
  readOutcome env p.method (env.post p) = .ok answer

structure Requested (env : HttpEnvironment) (call : RpcCall) (s : RpcState) (r : Except Exc Json)
    (t : RpcState) (sent : List RpcPayload) : Prop where
  posted : Sent s t sent
  made : ∀ p ∈ sent, ∃ id, p = payloadAt call id
  answered : ∀ answer, r = .ok answer → ∃ p ∈ sent, Answered env p answer

theorem request_unattempted (h : rpc.maxRetries < 0) (s : RpcState) :
    request env rpc call s = (.error (.runtimeError "unreachable RPC retry state"), s) := by
  have hcount : (rpc.maxRetries + 1).toNat = 0 := by omega
  rw [request, hcount]
  rfl

theorem request_requested (env : HttpEnvironment) (rpc : EthereumJsonRpcClient) (call : RpcCall)
    (s : RpcState) :
    Eff.wp (request env rpc call) s fun r t => ∃ sent, Requested env call s r t sent := by
  rw [Eff.wp_iff]
  rcases lt_or_ge rpc.maxRetries 0 with hneg | hnonneg
  · rw [request_unattempted hneg]
    exact ⟨[], sent_nil s, by simp, by simp⟩
  · obtain ⟨R, hR⟩ := Int.eq_ofNat_of_zero_le hnonneg
    have hmade (count : ℕ) : ∀ p ∈ (List.range count).map fun j => payloadAt call (s.nextId + j),
        ∃ id, p = payloadAt call id := by
      intro p hp
      obtain ⟨j, -, rfl⟩ := List.mem_map.mp hp
      exact ⟨_, rfl⟩
    by_cases hsleeps : SleepsReturn env rpc R call s
    · obtain ⟨t, hrun, hexchange⟩ := request_finished hR hsleeps
      rw [hrun]
      refine ⟨_, hexchange.sentTimes.sends, hmade _, ?_⟩
      intro answer hanswer
      exact ⟨payloadAt call (s.nextId + stopIndex (againFrom env call s) R),
        List.mem_map.mpr ⟨_, List.mem_range.mpr (Nat.lt_succ_self _), rfl⟩, hanswer⟩
    · obtain ⟨j, e, t, hrun, -, -, -, -, hsent⟩ := request_interrupted hR hsleeps
      rw [hrun]
      exact ⟨_, hsent.sends, hmade _, by simp⟩

theorem request_sendsOnly (env : HttpEnvironment) (rpc : EthereumJsonRpcClient)
    (hP : ∀ id, P (payloadAt call id)) (s : RpcState) :
    Eff.wp (request env rpc call) s fun _ t => SendsOnly P s t := by
  refine Eff.wp_mono (request_requested env rpc call s) ?_
  rintro r t ⟨sent, hsent, hmade, -⟩
  refine ⟨sent, hsent, fun p hp => ?_⟩
  obtain ⟨id, rfl⟩ := hmade p hp
  exact hP id

end EthereumLogs.EthereumJsonRpcClient

namespace EthereumLogs.Pipeline
open Python Effect Tiling BlockRange LogCollector EthereumJsonRpcClient

variable {ω : Type} {env : HttpEnvironment} {rpc : EthereumJsonRpcClient} {s t u : RpcState}
  {settings : PipelineSettings} {scope : CollectionScope} {maxBlocks lo mid hi a b : Int}
  {p : RpcPayload} {chunk : BlockChunk}

def AsksChainId (p : RpcPayload) : Prop := p.method = "eth_chainId" ∧ p.params = []

def AsksBlock (blockRef : Text) (p : RpcPayload) : Prop :=
  p.method = "eth_getBlockByNumber" ∧ p.params = [.str blockRef, .bool false]

def AsksNumber (p : RpcPayload) : Prop := ∃ n : Int, AsksBlock (hex n) p

def AsksSomeBlock (p : RpcPayload) : Prop := AsksBlock "finalized".toList p ∨ AsksNumber p

structure AsksLogs (maxBlocks a b : Int) (p : RpcPayload) : Prop where
  method : p.method = "eth_getLogs"
  params : ∃ fromText toText, int16 fromText = .ok a ∧ int16 toText = .ok b ∧ p.params =
    [.obj [("fromBlock", .str fromText), ("toBlock", .str toText), ("topics", .arr [.str transferTopic0])]]
  nonneg : 0 ≤ a
  ordered : a ≤ b
  few : b - a + 1 ≤ maxBlocks
  capped : maxBlocks ≤ maxBlocksPerLogRequest

structure Queried (env : HttpEnvironment) (maxBlocks lo hi : Int) (s : RpcState)
    (r : Except Exc (List RawLog)) (t : RpcState) (sent : List RpcPayload) : Prop where
  posted : Sent s t sent
  asked : ∀ p ∈ sent, ∃ a b, lo ≤ a ∧ b ≤ hi ∧ AsksLogs maxBlocks a b p
  covered : ∀ logs, r = .ok logs → ∀ n, lo ≤ n → n ≤ hi → ∃ p ∈ sent, ∃ a b rows,
    AsksLogs maxBlocks a b p ∧ a ≤ n ∧ n ≤ b ∧ Answered env p (.arr rows)

theorem ethGetBlock_sends {P : RpcPayload → Prop} {blockRef : Text} (hP : ∀ p, AsksBlock blockRef p → P p)
    (s : RpcState) :
    Eff.wp (ethGetBlock (request env rpc) blockRef false) s fun _ t => SendsOnly P s t := by
  refine Eff.wp_seq (request_sendsOnly env rpc (fun id => hP _ ⟨rfl, rfl⟩) s) ?_ ?_
  · intro result t ht
    cases asObject result with
    | none => exact ht
    | some block => exact ht
  · exact fun _ _ ht => ht

theorem lookups_send (s0 : RpcState) :
    LookupsSimulate (fun s t => s = t ∧ SendsOnly AsksSomeBlock s0 s)
      (connect env rpc).toBlockLookupClient (connect env rpc).toBlockLookupClient := by
  constructor
  · rintro n s _ ⟨rfl, hs⟩
    exact ⟨rfl, rfl, hs.trans (ethGetBlock_sends (fun p hp => .inr ⟨n, hp⟩) s)⟩
  · rintro s _ ⟨rfl, hs⟩
    exact ⟨rfl, rfl, hs.trans (ethGetBlock_sends (fun p hp => .inl hp) s)⟩

theorem resolve_sends (start stop : Datetime) (s : RpcState) :
    Eff.wp (resolveIntervalBlockRange (connect env rpc).toBlockLookupClient start stop) s
      fun _ t => SendsOnly AsksSomeBlock s t :=
  (resolve_simulates (lookups_send s) start stop s s ⟨rfl, sendsOnly_refl _ s⟩).2.2

theorem lookupTimestamps_sends (numbers : List Int) (s : RpcState) :
    Eff.wp (lookupTimestamps (connect env rpc) numbers) s fun _ t => SendsOnly AsksNumber s t := by
  induction numbers generalizing s with
  | nil => exact sendsOnly_refl _ s
  | cons n numbers ih =>
    have hblock : Eff.wp ((connect env rpc).ethGetBlockByNumber n) s
        fun _ t => SendsOnly AsksNumber s t := ethGetBlock_sends (fun p hp => ⟨n, hp⟩) s
    rw [lookupTimestamps]
    refine Eff.wp_seq hblock ?_ ?_
    · intro block t ht
      cases blockTimestampFromPayload block with
      | error e => exact ht
      | ok timestamp =>
        rw [Eff.ofExcept_ok_bind]
        apply Eff.wp_map_state
        exact Eff.wp_mono (ih t) fun _ _ hrest => ht.trans hrest
    · exact fun _ _ ht => ht

theorem loadBlockTimestamps_sends (rawLogs : List RawLog) (s : RpcState) :
    Eff.wp (loadBlockTimestamps (connect env rpc) rawLogs) s fun _ t => SendsOnly AsksNumber s t := by
  rw [loadBlockTimestamps]
  cases blockNumbers rawLogs with
  | error e => exact sendsOnly_refl _ s
  | ok numbers => exact lookupTimestamps_sends _ s

theorem Queried.widen {r r' : Except Exc (List RawLog)} {sent : List RpcPayload} {e : Exc}
    (h : Queried env maxBlocks a b s r t sent) (hlo : lo ≤ a) (hhi : b ≤ hi) (he : r' = .error e) :
    Queried env maxBlocks lo hi s r' t sent := by
  refine ⟨h.posted, ?_, ?_⟩
  · intro p hp
    obtain ⟨a', b', ha, hb, hasks⟩ := h.asked p hp
    exact ⟨a', b', hlo.trans ha, hb.trans hhi, hasks⟩
  · intro logs hlogs
    cases he.symm.trans hlogs

theorem Queried.append {r' : Except Exc (List RawLog)} {logs : List RawLog}
    {sent more : List RpcPayload} (h : Queried env maxBlocks lo mid s (.ok logs) t sent)
    (h' : Queried env maxBlocks (mid + 1) hi t r' u more) (hlo : lo ≤ mid + 1) (hhi : mid ≤ hi) :
    Queried env maxBlocks lo hi s (r'.map (logs ++ ·)) u (sent ++ more) := by
  refine ⟨h.posted.append h'.posted, ?_, ?_⟩
  · intro p hp
    rcases List.mem_append.mp hp with hp | hp
    · obtain ⟨a, b, ha, hb, hasks⟩ := h.asked p hp
      exact ⟨a, b, ha, hb.trans hhi, hasks⟩
    · obtain ⟨a, b, ha, hb, hasks⟩ := h'.asked p hp
      exact ⟨a, b, hlo.trans ha, hb, hasks⟩
  · intro all hall n hn hn'
    cases r' with
    | error e => cases hall
    | ok rest =>
      rcases le_or_gt n mid with hle | hgt
      · obtain ⟨p, hp, hcovers⟩ := h.covered logs rfl n hn hle
        exact ⟨p, List.mem_append_left _ hp, hcovers⟩
      · obtain ⟨p, hp, hcovers⟩ := h'.covered rest rfl n hgt hn'
        exact ⟨p, List.mem_append_right _ hp, hcovers⟩

theorem Queried.after {r : Except Exc (List RawLog)} {sent more : List RpcPayload} {e : Exc}
    (h : Queried env maxBlocks lo hi s (.error e) t sent)
    (h' : Queried env maxBlocks lo hi t r u more) :
    Queried env maxBlocks lo hi s r u (sent ++ more) := by
  refine ⟨h.posted.append h'.posted, List.forall_mem_append.mpr ⟨h.asked, h'.asked⟩, ?_⟩
  intro logs hlogs n hn hn'
  obtain ⟨p, hp, hcovers⟩ := h'.covered logs hlogs n hn hn'
  exact ⟨p, List.mem_append_right _ hp, hcovers⟩

theorem logsCall_asks (hscope : scope.validate = .ok ()) (h0 : 0 ≤ chunk.fromBlock)
    (hcount : chunk.blockCount ≤ maxBlocks) (hcap : maxBlocks ≤ maxBlocksPerLogRequest) (id : ℕ) :
    AsksLogs maxBlocks chunk.fromBlock chunk.toBlock (payloadAt (logsCall chunk scope) id) := by
  have hordered := chunk.ordered
  obtain ⟨a, ha⟩ := Int.eq_ofNat_of_zero_le h0
  obtain ⟨b, hb⟩ := Int.eq_ofNat_of_zero_le (h0.trans hordered)
  refine ⟨rfl, ⟨hex chunk.fromBlock, hex chunk.toBlock, ?_, ?_, ?_⟩, h0, hordered, hcount, hcap⟩
  · rw [ha]
    exact int16_hex a
  · rw [hb]
    exact int16_hex b
  · rw [(scope.validate_ok_iff).mp hscope]
    rfl

theorem ethGetLogs_queried (hscope : scope.validate = .ok ()) (h0 : 0 ≤ chunk.fromBlock)
    (hcount : chunk.blockCount ≤ maxBlocks) (hcap : maxBlocks ≤ maxBlocksPerLogRequest) (s : RpcState) :
    Eff.wp ((connect env rpc).ethGetLogs chunk.fromBlock chunk.toBlock scope.addressFilter scope.topics)
      s fun r t => ∃ sent, Queried env maxBlocks chunk.fromBlock chunk.toBlock s r t sent := by
  have hasks := logsCall_asks hscope h0 hcount hcap
  change Eff.wp (ethGetLogs (request env rpc) _ _ _ _) s _
  rw [ethGetLogs_eq chunk (request env rpc) (hcount.trans hcap) hscope]
  refine Eff.wp_seq (request_requested env rpc (logsCall chunk scope) s) ?_ ?_
  · rintro result t ⟨sent, hsent, hmade, hanswered⟩
    have hasked : ∀ p ∈ sent, ∃ a b, chunk.fromBlock ≤ a ∧ b ≤ chunk.toBlock ∧
        AsksLogs maxBlocks a b p := by
      intro p hp
      obtain ⟨id, rfl⟩ := hmade p hp
      exact ⟨_, _, le_rfl, le_rfl, hasks id⟩
    cases result with
    | arr rows =>
      refine ⟨sent, hsent, hasked, ?_⟩
      intro _ _ n hn hn'
      obtain ⟨p, hp, hanswer⟩ := hanswered _ rfl
      obtain ⟨id, rfl⟩ := hmade p hp
      exact ⟨_, hp, _, _, rows, hasks id, hn, hn', hanswer⟩
    | _ => exact ⟨sent, hsent, hasked, fun _ h => by cases h⟩
  · rintro e t ⟨sent, hsent, hmade, -⟩
    refine ⟨sent, hsent, ?_, fun _ h => by cases h⟩
    intro p hp
    obtain ⟨id, rfl⟩ := hmade p hp
    exact ⟨_, _, le_rfl, le_rfl, hasks id⟩

theorem collectChunk_queried (hscope : scope.validate = .ok ())
    (hcap : maxBlocks ≤ maxBlocksPerLogRequest) (chunk : BlockChunk) (h0 : 0 ≤ chunk.fromBlock)
    (hcount : chunk.blockCount ≤ maxBlocks) (s : RpcState) :
    Eff.wp (collectChunk (connect env rpc).toLogRpcClient chunk scope) s
      fun r t => ∃ sent, Queried env maxBlocks chunk.fromBlock chunk.toBlock s r t sent := by
  induction chunk using BlockChunk.halving generalizing s with
  | step chunk ih =>
    rw [collectChunk]
    refine Eff.wp_catch (ethGetLogs_queried hscope h0 hcount hcap s) ?_ ?_
    · exact fun _ _ h => h
    · rintro e t ⟨sent, hfailed⟩
      split_ifs with hretry hone
      · exact ⟨sent, hfailed.widen le_rfl le_rfl rfl⟩
      · obtain ⟨ihl, ihr⟩ := ih hone
        have hmid := chunk.mid_lt hone
        have hleft : (chunk.left hone).fromBlock = chunk.fromBlock := rfl
        have hright : (chunk.right hone).fromBlock = (chunk.left hone).toBlock + 1 := rfl
        have hsum := halves_blockCount hone
        have hcl := blockCount_pos (chunk.left hone)
        have hcr := blockCount_pos (chunk.right hone)
        have hstart : 0 ≤ (chunk.right hone).fromBlock := by
          simp only [BlockChunk.right]
          omega
        have hin : (chunk.left hone).toBlock ≤ chunk.toBlock := by
          simp only [BlockChunk.left]
          omega
        have hin' : chunk.fromBlock ≤ (chunk.left hone).toBlock + 1 := by
          simp only [BlockChunk.left]
          omega
        refine Eff.wp_seq (ihl h0 (by omega) t) ?_ ?_
        · rintro left t' ⟨sentLeft, hl⟩
          refine Eff.wp_seq (ihr hstart (by omega) t') ?_ ?_
          · rintro right t'' ⟨sentRight, hr⟩
            exact ⟨_, hfailed.after (hl.append hr hin' hin)⟩
          · rintro e' t'' ⟨sentRight, hr⟩
            exact ⟨_, hfailed.after (hl.append hr hin' hin)⟩
        · rintro e' t' ⟨sentLeft, hl⟩
          exact ⟨_, hfailed.after (hl.widen le_rfl hin rfl)⟩
      · exact ⟨sent, hfailed.widen le_rfl le_rfl rfl⟩

theorem collectChunks_queried (hscope : scope.validate = .ok ())
    (hcap : maxBlocks ≤ maxBlocksPerLogRequest) {chunks : List BlockChunk} {start stop : Int}
    (htiles : Tiles BlockChunk.fromBlock BlockChunk.toBlock start stop chunks) (h0 : 0 ≤ start)
    (hcount : ∀ chunk ∈ chunks, chunk.blockCount ≤ maxBlocks) (s : RpcState) :
    Eff.wp (collectChunks (connect env rpc).toLogRpcClient scope chunks) s
      fun r t => ∃ sent, Queried env maxBlocks start (stop - 1) s r t sent := by
  induction htiles generalizing s with
  | nil a => exact ⟨[], sent_nil s, by simp, fun _ _ n hn hn' => by omega⟩
  | cons chunk chunks hle rest ih =>
    have hstop := rest.le
    rw [collectChunks]
    refine Eff.wp_seq (collectChunk_queried hscope hcap chunk h0 (hcount chunk (by simp)) s) ?_ ?_
    · rintro logs t ⟨sent, hchunk⟩
      refine Eff.wp_seq (ih (by omega) (fun c hc => hcount c (by simp [hc])) t) ?_ ?_
      · rintro more t' ⟨sent', hrest⟩
        exact ⟨_, hchunk.append hrest (by omega) (by omega)⟩
      · rintro e t' ⟨sent', hrest⟩
        exact ⟨_, hchunk.append hrest (by omega) (by omega)⟩
    · rintro e t ⟨sent, hchunk⟩
      exact ⟨sent, hchunk.widen le_rfl (by omega) rfl⟩

theorem collectRawLogs_queried (fromBlock toBlock : Int) (scope : CollectionScope) (maxBlocks : Int)
    (s : RpcState) :
    Eff.wp (collectRawLogs (connect env rpc).toLogRpcClient fromBlock toBlock scope maxBlocks) s
      fun r t => ∃ sent, Queried env maxBlocks fromBlock toBlock s r t sent := by
  have hnothing : ∀ e : Exc, ∃ sent, Queried env maxBlocks fromBlock toBlock s (.error e) s sent :=
    fun _ => ⟨[], sent_nil s, by simp, fun _ h => by cases h⟩
  rw [collectRawLogs]
  cases hscope : scope.validate with
  | error e => exact hnothing e
  | ok _ =>
    rw [Eff.ofExcept_ok_bind]
    cases hchunks : iterBlockChunks fromBlock toBlock maxBlocks with
    | error e => exact hnothing e
    | ok chunks =>
      obtain ⟨h0, hle, hmax, hcap⟩ := iterBlockChunks_ok hchunks
      obtain ⟨_, hok, htiles, hcount⟩ := iterBlockChunks_tiles h0 hle hmax hcap
      cases hok.symm.trans hchunks
      have hcollected : Eff.wp (collectChunks (connect env rpc).toLogRpcClient scope chunks) s _ :=
        collectChunks_queried hscope hcap htiles h0 hcount s
      rwa [Int.add_sub_cancel] at hcollected

structure Session (env : HttpEnvironment) (settings : PipelineSettings) (s t : RpcState)
    (ids lookups queries times : List RpcPayload) : Prop where
  posted : Sent s t (ids ++ (lookups ++ (queries ++ times)))
  chainIds : ∀ p ∈ ids, AsksChainId p
  range : ∀ p ∈ lookups, AsksSomeBlock p
  logs : ∀ p ∈ queries, ∃ a b, AsksLogs settings.maxBlocksPerLogRequest a b p
  timestamps : ∀ p ∈ times, AsksNumber p
  verified : lookups ++ (queries ++ times) ≠ [] → ∃ p ∈ ids, ∃ answer,
    Answered env p answer ∧ hexToInt answer = .ok settings.chainId

structure CoveredRange (env : HttpEnvironment) (maxBlocks lo hi : Int) (queries : List RpcPayload) :
    Prop where
  inside : ∀ p ∈ queries, ∃ a b, lo ≤ a ∧ b ≤ hi ∧ AsksLogs maxBlocks a b p
  covered : ∀ n, lo ≤ n → n ≤ hi → ∃ p ∈ queries, ∃ a b rows,
    AsksLogs maxBlocks a b p ∧ a ≤ n ∧ n ≤ b ∧ Answered env p (.arr rows)

theorem Queried.asksLogs {r : Except Exc (List RawLog)} {sent : List RpcPayload}
    (h : Queried env maxBlocks lo hi s r t sent) : ∀ p ∈ sent, ∃ a b, AsksLogs maxBlocks a b p := by
  intro p hp
  obtain ⟨a, b, -, -, hasks⟩ := h.asked p hp
  exact ⟨a, b, hasks⟩

theorem ethChainId_requested (env : HttpEnvironment) (rpc : EthereumJsonRpcClient) (s : RpcState) :
    Eff.wp (connect env rpc).ethChainId s fun r t => ∃ sent, Sent s t sent ∧
      (∀ p ∈ sent, AsksChainId p) ∧ ∀ chainId, r = .ok chainId → ∃ p ∈ sent, ∃ answer,
        Answered env p answer ∧ hexToInt answer = .ok chainId := by
  have hmade : ∀ {sent : List RpcPayload}, (∀ p ∈ sent, ∃ id, p = payloadAt ⟨"eth_chainId", []⟩ id) →
      ∀ p ∈ sent, AsksChainId p := by
    intro sent h p hp
    obtain ⟨id, rfl⟩ := h p hp
    exact ⟨rfl, rfl⟩
  change Eff.wp (ethChainId (request env rpc)) s _
  refine Eff.wp_seq (request_requested env rpc ⟨"eth_chainId", []⟩ s) ?_ ?_
  · rintro answer t ⟨sent, hrequested⟩
    refine ⟨sent, hrequested.posted, hmade hrequested.made, fun chainId hchain => ?_⟩
    obtain ⟨p, hp, hanswer⟩ := hrequested.answered answer rfl
    exact ⟨p, hp, answer, hanswer, hchain⟩
  · rintro e t ⟨sent, hrequested⟩
    exact ⟨sent, hrequested.posted, hmade hrequested.made, fun _ h => by cases h⟩

def FetchSession (env : HttpEnvironment) (settings : PipelineSettings) (s : RpcState)
    (r : Except Exc Fetched) (t : RpcState) : Prop :=
  ∃ ids lookups queries times, Session env settings s t ids lookups queries times ∧
    ∀ fetched, r = .ok fetched → CoveredRange env settings.maxBlocksPerLogRequest
      fetched.blockRange.fromBlock fetched.blockRange.toBlock queries

theorem Session.unresolved {ids : List RpcPayload} (hids : Sent s t ids)
    (hasked : ∀ p ∈ ids, AsksChainId p) : Session env settings s t ids [] [] [] :=
  ⟨by simpa using hids, hasked, by simp, by simp, by simp, by simp⟩

theorem fetchLogs_session (env : HttpEnvironment) (rpc : EthereumJsonRpcClient)
    (settings : PipelineSettings) (start stop : Instant) (s : RpcState) :
    Eff.wp (fetchLogs (connect env rpc) settings start stop) s (FetchSession env settings s) := by
  rw [fetchLogs]
  refine Eff.wp_seq (ethChainId_requested env rpc s) ?_ ?_
  · rintro chainId s1 ⟨ids, hids, hasked, hverified⟩
    split_ifs with hmismatch
    · exact ⟨ids, [], [], [], .unresolved hids hasked, fun _ h => by cases h⟩
    · obtain ⟨p, hp, answer, hanswer⟩ := hverified chainId rfl
      rw [not_not.mp hmismatch] at hanswer
      refine Eff.wp_seq (resolve_sends (.utc start) (.utc stop) s1) ?_ ?_
      · rintro range s2 ⟨lookups, hlookups, hblocks⟩
        refine Eff.wp_seq (collectRawLogs_queried range.fromBlock range.toBlock
          settings.collectionScope settings.maxBlocksPerLogRequest s2) ?_ ?_
        · rintro rawLogs s3 ⟨queries, hqueried⟩
          have hsession {s4 : RpcState} {times : List RpcPayload} (htimes : Sent s3 s4 times)
              (hnumbers : ∀ p ∈ times, AsksNumber p) :
              Session env settings s s4 ids lookups queries times :=
            ⟨hids.append (hlookups.append (hqueried.posted.append htimes)), hasked, hblocks,
              hqueried.asksLogs, hnumbers, fun _ => ⟨p, hp, answer, hanswer⟩⟩
          refine Eff.wp_seq (loadBlockTimestamps_sends rawLogs s3) ?_ ?_
          · rintro timestamps s4 ⟨times, htimes, hnumbers⟩
            refine ⟨_, _, _, _, hsession htimes hnumbers, fun fetched hfetched => ?_⟩
            cases hfetched
            exact ⟨hqueried.asked, hqueried.covered rawLogs rfl⟩
          · rintro e s4 ⟨times, htimes, hnumbers⟩
            exact ⟨_, _, _, _, hsession htimes hnumbers, fun _ h => by cases h⟩
        · rintro e s3 ⟨queries, hqueried⟩
          have hsession : Session env settings s s3 ids lookups queries [] := by
            refine ⟨?_, hasked, hblocks, hqueried.asksLogs, by simp, fun _ => ⟨p, hp, answer, hanswer⟩⟩
            rw [List.append_nil]
            exact hids.append (hlookups.append hqueried.posted)
          exact ⟨_, _, _, _, hsession, fun _ h => by cases h⟩
      · rintro e s2 ⟨lookups, hlookups, hblocks⟩
        have hsession : Session env settings s s2 ids lookups [] [] := by
          refine ⟨?_, hasked, hblocks, by simp, by simp, fun _ => ⟨p, hp, answer, hanswer⟩⟩
          rw [List.append_nil, List.append_nil]
          exact hids.append hlookups
        exact ⟨_, _, _, _, hsession, fun _ h => by cases h⟩
  · rintro e s1 ⟨ids, hids, hasked, -⟩
    exact ⟨ids, [], [], [], .unresolved hids hasked, fun _ h => by cases h⟩

theorem prepareRows_session (env : HttpEnvironment) (rpc : EthereumJsonRpcClient)
    (interval : Interval ω) (s : RpcState) :
    Eff.wp (prepareRows (connect env rpc) interval) s fun r t => ∃ ids lookups queries times,
      Session env interval.settings s t ids lookups queries times ∧
        ∀ prepared, r = .ok prepared → CoveredRange env interval.settings.maxBlocksPerLogRequest
          prepared.fetched.blockRange.fromBlock prepared.fetched.blockRange.toBlock queries := by
  rw [prepareRows]
  cases normalizeIntervalBounds interval.startUtc interval.endUtc with
  | error e =>
    exact ⟨[], [], [], [], .unresolved (sent_nil s) (by simp), fun _ h => by cases h⟩
  | ok bounds =>
    rw [Eff.ofExcept_ok_bind]
    refine Eff.wp_seq (fetchLogs_session env rpc interval.settings bounds.1 bounds.2 s) ?_ ?_
    · rintro fetched t ⟨ids, lookups, queries, times, hsession, hcovered⟩
      refine ⟨ids, lookups, queries, times, ?_⟩
      cases normalizeFetched interval.settings bounds.1 bounds.2 interval.now fetched with
      | error e => exact ⟨hsession, fun _ h => by cases h⟩
      | ok normalized =>
        refine ⟨hsession, fun prepared hprepared => ?_⟩
        cases hprepared
        exact hcovered fetched rfl
    · rintro e t ⟨ids, lookups, queries, times, hsession, -⟩
      exact ⟨ids, lookups, queries, times, hsession, fun _ h => by cases h⟩

theorem run_interval_session (env : HttpEnvironment) (rpc : EthereumJsonRpcClient)
    (interval : Interval ω) (w : World RpcState ω) :
    ∃ ids lookups queries times, Session env interval.settings w.rpc
        (runInterval (connect env rpc) interval w).2.rpc ids lookups queries times ∧
      ∀ result, (runInterval (connect env rpc) interval w).1 = .ok result →
        CoveredRange env interval.settings.maxBlocksPerLogRequest result.fromBlock result.toBlock
          queries := by
  rw [runInterval_rpc]
  obtain ⟨ids, lookups, queries, times, hsession, hcovered⟩ :
      ∃ ids lookups queries times, Session env interval.settings w.rpc
          (prepareRows (connect env rpc) interval w.rpc).2 ids lookups queries times ∧
        ∀ prepared, (prepareRows (connect env rpc) interval w.rpc).1 = .ok prepared →
          CoveredRange env interval.settings.maxBlocksPerLogRequest
            prepared.fetched.blockRange.fromBlock prepared.fetched.blockRange.toBlock queries :=
    prepareRows_session env rpc interval w.rpc
  refine ⟨ids, lookups, queries, times, hsession, fun result hresult => ?_⟩
  obtain ⟨prepared, w', hprepared, hresult⟩ := Eff.bind_ok hresult
  obtain ⟨deltaResult, w'', -, hresult⟩ := Eff.bind_ok hresult
  obtain ⟨dbtResult, w''', -, hresult⟩ := Eff.bind_ok hresult
  cases hresult
  exact hcovered prepared (congrArg Prod.fst hprepared)

end EthereumLogs.Pipeline
