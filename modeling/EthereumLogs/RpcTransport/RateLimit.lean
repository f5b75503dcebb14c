import EthereumLogs.RpcTransport.Retry

namespace EthereumLogs.EthereumJsonRpcClient
open Python Effect Retry

variable {str : Json → Text} {env : HttpEnvironment} {client : EthereumJsonRpcClient} {R : ℕ}
  {call : RpcCall} {payload : Json} {message : Text} {code : Option Int} {s t u : RpcState} {j : ℕ}

def mentionsRateLimit (message : Text) : Bool := rateLimitMarkers.any (hasMarker · (lower message))

def mentionsEarlier (message : Text) : Bool :=
  tooManyMarkers.any (hasMarker · (lower message)) ||
    (hasMarker "range".toList (lower message) && rangeMarkers.any (hasMarker · (lower message))) ||
    timeoutMarkers.any (hasMarker · (lower message))

theorem classifyMessage_rateLimit {method : String} (hlimit : mentionsRateLimit message = true)
    (hearlier : mentionsEarlier message = false) :
    classifyMessage method message code =
      .retryable .rateLimit ⟨method, String.ofList message, true, code, none⟩ := by
  simp only [mentionsEarlier, Bool.or_eq_false_iff] at hearlier
  obtain ⟨⟨htooMany, hrange⟩, htimeout⟩ := hearlier
  rw [mentionsRateLimit] at hlimit
  simp only [classifyMessage]
  rw [if_neg (by rw [htooMany]; decide), if_neg (by rw [hrange]; decide),
    if_neg (by rw [htimeout]; decide), if_pos hlimit]

theorem classifyMessage_earlier {method : String} (h : mentionsEarlier message = true)
    (detail : RpcErrorDetail) : classifyMessage method message code ≠ .retryable .rateLimit detail := by
  simp only [mentionsEarlier, Bool.or_eq_true] at h
  simp only [classifyMessage]
  by_cases htooMany : tooManyMarkers.any (hasMarker · (lower message)) = true
  · rw [if_pos htooMany]
    simp
  · rw [if_neg htooMany]
    by_cases hrange : (hasMarker "range".toList (lower message) &&
        rangeMarkers.any (hasMarker · (lower message))) = true
    · rw [if_pos hrange]
      simp
    · rw [if_neg hrange, if_pos ((h.resolve_left (not_or.mpr ⟨htooMany, hrange⟩)))]
      simp

def ReportsError (env : HttpEnvironment) (call : RpcCall) (s : RpcState) (payload : Json) (j : ℕ) :
    Prop :=
  ∃ statusCode fields, statusCode < 400 ∧ JsonObject.get fields "error" = some payload ∧
    env.post (payloadAt call (s.nextId + j)) = .response statusCode (some (.obj fields))

theorem ReportsError.reply (h : ReportsError env call s payload j) :
    repliesFrom env call s j = .error (.rpc (classifyRpcError env.str call.method payload)) := by
  obtain ⟨statusCode, fields, hstatus, herror, hpost⟩ := h
  rw [repliesFrom, outcomeAt, hpost, readOutcome, if_neg (by omega), if_neg (by omega),
    if_neg (by omega), readBody, herror]

def logsCall (chunk : BlockChunk) (scope : CollectionScope) : RpcCall :=
  ⟨"eth_getLogs", [.obj (logParams chunk.fromBlock chunk.toBlock scope.addressFilter scope.topics)]⟩

theorem ethGetLogs_eq (chunk : BlockChunk) {scope : CollectionScope} (request : JsonRpc RpcState)
    (hcount : chunk.blockCount ≤ maxBlocksPerLogRequest) (hscope : scope.validate = .ok ()) :
    ethGetLogs request chunk.fromBlock chunk.toBlock scope.addressFilter scope.topics = (do
      let result ← request (logsCall chunk scope)
      match result with
      | .arr rows => pure (rows.filterMap asObject)
      | _ => throw (badPayload "eth_getLogs" "Provider returned non-list logs payload.")) := by
  have hordered := chunk.ordered
  have hlength : chunk.toBlock - chunk.fromBlock + 1 ≤ maxBlocksPerLogRequest := hcount
  have htopics : scope.topics ≠ [] := by
    rw [(scope.validate_ok_iff).mp hscope]
    simp [CollectionScope.topics, CollectionScope.defaultTransferTopicAllAddresses]
  rw [ethGetLogs, if_neg (by omega), if_neg (by simp [htopics])]
  rfl

theorem ethGetLogs_posts (chunk : BlockChunk) {scope : CollectionScope} (request : JsonRpc RpcState)
    (hcount : chunk.blockCount ≤ maxBlocksPerLogRequest) (hscope : scope.validate = .ok ())
    (s : RpcState) :
    (ethGetLogs request chunk.fromBlock chunk.toBlock scope.addressFilter scope.topics s).2 =
        (request (logsCall chunk scope) s).2 ∧
      ∀ e, (request (logsCall chunk scope) s).1 = .error e →
        (ethGetLogs request chunk.fromBlock chunk.toBlock scope.addressFilter scope.topics s).1 =
          .error e := by
  rw [ethGetLogs_eq chunk request hcount hscope]
  rcases hrun : request (logsCall chunk scope) s with ⟨e | result, t⟩
  · rw [Eff.bind_of_error hrun]
    refine ⟨rfl, fun e he => ?_⟩
    cases he
    rfl
  · rw [Eff.bind_of_ok hrun]
    refine ⟨?_, fun e he => by cases he⟩
    cases result with
    | arr rows => rfl
    | _ => rfl

section Collector

variable {σ : Type} {logs : LogRpcClient σ} {scope : CollectionScope} {Rel : σ → σ → Prop}

theorem collectChunk_after (hrefl : ∀ s, Rel s s) (htrans : ∀ s t u, Rel s t → Rel t u → Rel s u)
    (hcall : ∀ fromBlock toBlock address topics s,
      Rel s (logs.ethGetLogs fromBlock toBlock address topics s).2)
    (chunk : BlockChunk) (s : σ) :
    Eff.wp (collectChunk logs chunk scope) s fun _ t =>
      Rel (logs.ethGetLogs chunk.fromBlock chunk.toBlock scope.addressFilter scope.topics s).2 t := by
  induction chunk using BlockChunk.halving generalizing s with
  | step chunk ih =>
    rw [collectChunk, Eff.wp_tryCatch, Eff.wp_iff]
    generalize logs.ethGetLogs chunk.fromBlock chunk.toBlock scope.addressFilter scope.topics s = out
    obtain ⟨err | rows, t⟩ := out
    · dsimp only
      split_ifs with hretry hone
      · exact hrefl t
      · obtain ⟨ihl, ihr⟩ := ih hone
        have hstep (c : BlockChunk) (v : σ) (w : σ)
            (hw : Rel (logs.ethGetLogs c.fromBlock c.toBlock scope.addressFilter scope.topics v).2 w) :
            Rel v w := htrans _ _ _ (hcall _ _ _ _ v) hw
        refine Eff.wp_seq (ihl t) ?_ ?_
        · intro left u hu
          apply Eff.wp_map_state
          refine Eff.wp_mono (ihr u) fun _ v hv => ?_
          exact htrans _ _ _ (hstep _ _ _ hu) (hstep _ _ _ hv)
        · intro e u hu
          exact hstep _ _ _ hu
      · exact hrefl t
    · exact hrefl t

theorem collectChunk_closed (hrefl : ∀ s, Rel s s) (htrans : ∀ s t u, Rel s t → Rel t u → Rel s u)
    (hcall : ∀ fromBlock toBlock address topics s,
      Rel s (logs.ethGetLogs fromBlock toBlock address topics s).2)
    (chunk : BlockChunk) (s : σ) : Rel s (collectChunk logs chunk scope s).2 :=
  htrans _ _ _ (hcall _ _ _ _ s) (collectChunk_after hrefl htrans hcall chunk s)

theorem collectChunk_split {chunk : BlockChunk} {s t : σ} {e : Exc}
    (hone : chunk.fromBlock ≠ chunk.toBlock)
    (hrun : logs.ethGetLogs chunk.fromBlock chunk.toBlock scope.addressFilter scope.topics s =
      (.error e, t)) (hretry : e.isRetryableRpcError = true) :
    collectChunk logs chunk scope s =
      (do
        let left ← collectChunk logs (chunk.left hone) scope
        let right ← collectChunk logs (chunk.right hone) scope
        pure (left ++ right) : Action σ (List RawLog)) t := by
  rw [collectChunk, Eff.tryCatch_of_error hrun, if_pos hretry, dif_neg hone]

theorem collectChunk_stops {chunk : BlockChunk} {s t : σ} {e : Exc}
    (hrun : logs.ethGetLogs chunk.fromBlock chunk.toBlock scope.addressFilter scope.topics s =
      (.error e, t)) (hstop : e.isRetryableRpcError = false) :
    collectChunk logs chunk scope s = (.error e, t) := by
  rw [collectChunk, Eff.tryCatch_of_error hrun, if_neg (by rw [hstop]; decide)]
  rfl

theorem collectChunk_left (hrefl : ∀ s, Rel s s) (htrans : ∀ s t u, Rel s t → Rel t u → Rel s u)
    (hcall : ∀ fromBlock toBlock address topics s,
      Rel s (logs.ethGetLogs fromBlock toBlock address topics s).2)
    {chunk : BlockChunk} {s t : σ} {e : Exc} (hone : chunk.fromBlock ≠ chunk.toBlock)
    (hrun : logs.ethGetLogs chunk.fromBlock chunk.toBlock scope.addressFilter scope.topics s =
      (.error e, t)) (hretry : e.isRetryableRpcError = true) :
    Rel (collectChunk logs (chunk.left hone) scope t).2 (collectChunk logs chunk scope s).2 := by
  rw [collectChunk_split hone hrun hretry]
  rcases hleft : collectChunk logs (chunk.left hone) scope t with ⟨e' | left, u⟩
  · rw [Eff.bind_of_error hleft]
    exact hrefl u
  · rw [Eff.bind_of_ok hleft]
    have hright : Rel u (collectChunk logs (chunk.right hone) scope u).2 :=
      collectChunk_closed hrefl htrans hcall (chunk.right hone) u
    rcases hrest : collectChunk logs (chunk.right hone) scope u with ⟨e' | right, v⟩
    · rw [hrest] at hright
      rw [Eff.bind_of_error hrest]
      exact hright
    · rw [hrest] at hright
      rw [Eff.bind_of_ok hrest]
      exact hright

end Collector

def PostsGrow (s t : RpcState) : Prop := posts s.events <+: posts t.events

theorem PostsGrow.refl (s : RpcState) : PostsGrow s s := List.prefix_rfl

theorem PostsGrow.trans (s t u : RpcState) (h : PostsGrow s t) (h' : PostsGrow t u) : PostsGrow s u :=
  List.IsPrefix.trans h h'

theorem request_grows (hR : client.maxRetries = R) (call : RpcCall) (s : RpcState) :
    PostsGrow s (request env client call s).2 := by
  obtain ⟨count, -, hsent⟩ : ∃ count ≤ R + 1, SentTimes call s (request env client call s).2 count :=
    request_sent hR call s
  exact ⟨_, hsent.posts.symm⟩

theorem ethGetLogs_grows (hR : client.maxRetries = R) (fromBlock toBlock : Int)
    (address : Option Text) (topics : List Text) (s : RpcState) :
    PostsGrow s ((connect env client).ethGetLogs fromBlock toBlock address topics s).2 := by
  change PostsGrow s (ethGetLogs (request env client) fromBlock toBlock address topics s).2
  rcases ethGetLogs_state (request env client) fromBlock toBlock address topics s
    with hstate | ⟨call, hstate⟩
  · rw [hstate]
    exact .refl s
  · rw [hstate]
    exact request_grows hR call s

theorem collectChunk_grows (hR : client.maxRetries = R) (chunk : BlockChunk) {scope : CollectionScope}
    (hcount : chunk.blockCount ≤ maxBlocksPerLogRequest) (hscope : scope.validate = .ok ())
    (s : RpcState) :
    PostsGrow (request env client (logsCall chunk scope) s).2
      (collectChunk (connect env client).toLogRpcClient chunk scope s).2 := by
  have hafter : PostsGrow ((connect env client).ethGetLogs chunk.fromBlock chunk.toBlock
      scope.addressFilter scope.topics s).2
      (collectChunk (connect env client).toLogRpcClient chunk scope s).2 :=
    collectChunk_after PostsGrow.refl PostsGrow.trans (ethGetLogs_grows hR) chunk s
  have hsame := (ethGetLogs_posts chunk (request env client) hcount hscope s).1
  exact hsame ▸ hafter

structure RetriedNotSplit (env : HttpEnvironment) (R : ℕ) (client : EthereumJsonRpcClient)
    (s : RpcState) (payload : Json) : Prop where
  classified : ∀ method, ∃ detail,
    classifyRpcError env.str method payload = .retryable .rateLimit detail
  repeated : ∀ post call, (∀ j ≤ R, ReportsError (env.answering post) call s payload j) →
    (request (env.answering post) client call s).1 =
        .error (.rpc (classifyRpcError env.str call.method payload)) ∧
      ∃ sent, traffic (request (env.answering post) client call s).2.events =
          traffic s.events ++ sent ∧ Alternates sent ∧
        posts sent = (List.range (R + 1)).map fun j => payloadAt call (s.nextId + j)
  notSplit : ∀ post chunk scope, chunk.blockCount ≤ maxBlocksPerLogRequest →
    scope.validate = .ok () → ReportsError (env.answering post) (logsCall chunk scope) s payload 0 →
    posts s.events ++ [payloadAt (logsCall chunk scope) s.nextId,
        payloadAt (logsCall chunk scope) (s.nextId + 1)] <+:
      posts (collectChunk (connect (env.answering post) client).toLogRpcClient chunk scope s).2.events

variable {post : RpcPayload → HttpOutcome}

theorem waits_answering (j : ℕ) :
    waits (env.answering post) client s 0 j = waits env client s 0 j := by
  cases j with
  | zero => rfl
  | succ j => rfl

theorem sleepsReturn_answering (post : RpcPayload → HttpOutcome) (call : RpcCall)
    (hwaits : ∀ j ≤ R, waits env client s 0 j = .ok ()) :
    SleepsReturn (env.answering post) client R call s := by
  intro j hj
  rw [waits_answering]
  exact hwaits j (hj.trans (stopIndex_le _ R))

theorem classified_again
    (hclass : ∀ method, ∃ detail, classifyRpcError env.str method payload = .retryable .rateLimit detail)
    (h : ReportsError (env.answering post) call s payload j) :
    repliesFrom (env.answering post) call s j =
        .error (.rpc (classifyRpcError env.str call.method payload)) ∧
      againFrom (env.answering post) call s j = true := by
  obtain ⟨detail, hdetail⟩ := hclass call.method
  have hreply := h.reply
  refine ⟨hreply, ?_⟩
  rw [againFrom, hreply]
  change retries (.error (.rpc (classifyRpcError env.str call.method payload))) = true
  rw [hdetail]
  rfl

theorem firstPosts_sent {last : ℕ} (f : ℕ → RpcPayload) (h : 1 ≤ last) :
    [f 0, f 1] <+: (List.range (last + 1)).map f := by
  obtain ⟨m, rfl⟩ := Nat.exists_eq_add_of_le h
  rw [show 1 + m + 1 = 2 + m by omega, List.range_add, List.map_append]
  exact List.prefix_append _ _

theorem retriedNotSplit (hR : client.maxRetries = R) (hone : 1 ≤ R)
    (hwaits : ∀ j ≤ R, waits env client s 0 j = .ok ())
    (hclass : ∀ method, ∃ detail,
      classifyRpcError env.str method payload = .retryable .rateLimit detail) :
    RetriedNotSplit env R client s payload := by
  refine ⟨hclass, ?_, ?_⟩
  · intro post call hreports
    obtain ⟨t, hrun, hexchange⟩ := request_finished hR
      (sleepsReturn_answering post call hwaits)
    have hstop : stopIndex (againFrom (env.answering post) call s) R = R :=
      stopIndex_all fun j hj => (classified_again hclass (hreports j hj.le)).2
    rw [hstop] at hexchange
    rw [hrun, hstop]
    exact ⟨(classified_again hclass (hreports R le_rfl)).1, hexchange.sent⟩
  · intro post chunk scope hcount hscope hreports
    obtain ⟨t, hrun, hexchange⟩ := request_finished hR
      (sleepsReturn_answering post (logsCall chunk scope) hwaits)
    have hagain := (classified_again hclass hreports).2
    have hlast : 0 < stopIndex (againFrom (env.answering post) (logsCall chunk scope) s) R :=
      lt_stopIndex_iff.mpr ⟨hone, fun i hi => by rwa [Nat.le_zero.mp hi]⟩
    have hgrow : PostsGrow (request (env.answering post) client (logsCall chunk scope) s).2 _ :=
      collectChunk_grows hR chunk hcount hscope s
    rw [hrun] at hgrow
    refine List.IsPrefix.trans ?_ hgrow
    rw [hexchange.posts]
    exact (List.prefix_append_right_inj _).mpr
      (firstPosts_sent (fun j => payloadAt (logsCall chunk scope) (s.nextId + j)) hlast)

def refuse (payload : Json) (_ : RpcPayload) : HttpOutcome :=
  .response 200 (some (.obj [("error", payload)]))

theorem refuse_reports (env : HttpEnvironment) (payload : Json) (call : RpcCall) (s : RpcState) (j : ℕ) :
    ReportsError (env.answering (refuse payload)) call s payload j :=
  ⟨200, [("error", payload)], by decide, rfl, rfl⟩

theorem waits_of_repeated (hR : client.maxRetries = R) (h : RetriedNotSplit env R client s payload) :
    ∀ j ≤ R, waits env client s 0 j = .ok () := by
  by_contra hfails
  have hcall : ¬ SleepsReturn (env.answering (refuse payload)) client R ⟨"eth_chainId", []⟩ s := by
    have hstop : stopIndex (againFrom (env.answering (refuse payload)) ⟨"eth_chainId", []⟩ s) R = R :=
      stopIndex_all fun j _ => (classified_again h.classified (refuse_reports env _ _ _ j)).2
    rw [SleepsReturn, hstop]
    simpa only [waits_answering] using hfails
  obtain ⟨j, e, t, hrun, hforeign, -⟩ := request_interrupted hR hcall
  obtain ⟨hresult, -⟩ := h.repeated (refuse payload) ⟨"eth_chainId", []⟩
    fun j _ => refuse_reports env _ _ _ j
  rw [hrun] at hresult
  cases hresult
  cases hforeign

def twoBlocks : BlockChunk := ⟨0, 1, by decide⟩

theorem twoBlocks_split : twoBlocks.fromBlock ≠ twoBlocks.toBlock := by decide

theorem ethGetLogs_refused (hR : client.maxRetries = (0 : ℕ))
    (hwait : paced env client (clockOf s) = .ok ())
    (hclass : ∀ method, ∃ detail,
      classifyRpcError env.str method payload = .retryable .rateLimit detail) (chunk : BlockChunk)
    (hcount : chunk.blockCount ≤ maxBlocksPerLogRequest) {scope : CollectionScope}
    (hscope : scope.validate = .ok ()) :
    ∃ t e, (connect (env.answering (refuse payload)) client).ethGetLogs chunk.fromBlock chunk.toBlock
        scope.addressFilter scope.topics s = (.error e, t) ∧ e.isRetryableRpcError = true ∧
      t.nextId = s.nextId + 1 ∧
      posts t.events = posts s.events ++ [payloadAt (logsCall chunk scope) s.nextId] := by
  have hwaits : ∀ j ≤ 0, waits env client s 0 j = .ok () := by
    intro j hj
    rw [Nat.le_zero.mp hj]
    exact hwait
  obtain ⟨t, hrun, hexchange⟩ := request_finished hR
    (sleepsReturn_answering (refuse payload) (logsCall chunk scope) hwaits)
  obtain ⟨detail, hdetail⟩ := hclass "eth_getLogs"
  obtain ⟨hstate, hfails⟩ := ethGetLogs_posts chunk (request (env.answering (refuse payload)) client)
    hcount hscope s
  have herror : (request (env.answering (refuse payload)) client (logsCall chunk scope) s).1 =
      .error (.rpc (.retryable .rateLimit detail)) := by
    rw [hrun]
    dsimp only
    rw [stopIndex, (refuse_reports env _ _ _ _).reply]
    exact congrArg (fun e => Except.error (Exc.rpc e)) hdetail
  rw [hrun] at hstate
  refine ⟨t, _, Prod.ext (hfails _ herror) hstate, rfl, hexchange.nextId, hexchange.posts⟩

theorem logsCall_left_params {scope : CollectionScope} :
    (logsCall (twoBlocks.left twoBlocks_split) scope).params ≠ (logsCall twoBlocks scope).params := by
  intro h
  simp only [logsCall, logParams, List.cons.injEq, Json.obj.injEq, and_true, List.cons_append,
    Prod.mk.injEq, Json.str.injEq, true_and] at h
  exact absurd h.2 (by decide)

theorem ethGetLogs_unpaced {e : Exc} (chunk : BlockChunk) (scope : CollectionScope)
    (hR : client.maxRetries = (0 : ℕ)) (hcount : chunk.blockCount ≤ maxBlocksPerLogRequest)
    (hscope : scope.validate = .ok ()) (hwait : paced env client (clockOf s) = .error e) :
    ∃ t, (connect env client).ethGetLogs chunk.fromBlock chunk.toBlock scope.addressFilter
        scope.topics s = (.error e, t) ∧ posts t.events = posts s.events := by
  have hsleeps : ¬ SleepsReturn env client 0 (logsCall chunk scope) s := by
    intro hsleeps
    have hfirst := hsleeps 0 (Nat.zero_le _)
    rw [waits, hwait] at hfirst
    cases hfirst
  obtain ⟨j, e', t, hrun, -, hj, -, hwait', hsent⟩ := request_interrupted hR hsleeps
  obtain rfl : j = 0 := Nat.le_zero.mp hj
  rw [waits, hwait] at hwait'
  cases hwait'
  obtain ⟨hstate, hfails⟩ := ethGetLogs_posts chunk (request env client) hcount hscope s
  rw [hrun] at hstate hfails
  refine ⟨t, Prod.ext (hfails e rfl) hstate, ?_⟩
  rw [hsent.posts]
  simp

theorem retriedNotSplit_retries (hR : client.maxRetries = R)
    (h : RetriedNotSplit env R client s payload) : 1 ≤ R := by
  by_contra hzero
  obtain rfl : R = 0 := by omega
  obtain ⟨scope, hscope⟩ : ∃ scope : CollectionScope, scope.validate = .ok () :=
    ⟨.defaultTransferTopicAllAddresses 1, by decide⟩
  have hsplit := h.notSplit (refuse payload) twoBlocks scope (by decide) hscope
    (refuse_reports env _ _ _ _)
  obtain ⟨t, e, hrun, hretry, hid, hposts⟩ := ethGetLogs_refused hR
    (waits_of_repeated hR h 0 le_rfl) h.classified twoBlocks (by decide) hscope
  cases hwait : paced env client (clockOf t) with
  | error e' =>
    have hwait : paced (env.answering (refuse payload)) client (clockOf t) = .error e' := hwait
    obtain ⟨u, hrun', hsame⟩ := ethGetLogs_unpaced (twoBlocks.left twoBlocks_split) scope hR
      (by decide) hscope hwait
    have hforeign : e'.isRetryableRpcError = false := by
      cases e' with
      | rpc error => cases paced_error hwait
      | _ => rfl
    rw [collectChunk_split twoBlocks_split hrun hretry,
      Eff.bind_of_error (collectChunk_stops hrun' hforeign), hsame, hposts] at hsplit
    simpa using hsplit.length_le
  | ok _ =>
    obtain ⟨u, e', hrun', -, -, hposts'⟩ := ethGetLogs_refused hR hwait h.classified
      (twoBlocks.left twoBlocks_split) (by decide) hscope
    have hleft := collectChunk_left PostsGrow.refl PostsGrow.trans (ethGetLogs_grows hR) twoBlocks_split
      hrun hretry
    have hfirst : PostsGrow ((connect (env.answering (refuse payload)) client).ethGetLogs
        (twoBlocks.left twoBlocks_split).fromBlock (twoBlocks.left twoBlocks_split).toBlock
        scope.addressFilter scope.topics t).2 (collectChunk
          (connect (env.answering (refuse payload)) client).toLogRpcClient
          (twoBlocks.left twoBlocks_split) scope t).2 :=
      collectChunk_after PostsGrow.refl PostsGrow.trans (ethGetLogs_grows hR) _ t
    rw [hrun'] at hfirst
    have hactual : posts u.events <+: _ := hfirst.trans _ _ _ hleft
    rw [hposts', hposts, hid, List.append_assoc] at hactual
    have hsame := List.prefix_of_prefix_length_le hactual hsplit (by simp)
    have hpayload : payloadAt (logsCall (twoBlocks.left twoBlocks_split) scope) (s.nextId + 1) =
        payloadAt (logsCall twoBlocks scope) (s.nextId + 1) := by
      simpa using hsame
    exact logsCall_left_params (congrArg RpcPayload.params hpayload)

theorem rate_limit_retried_iff (env : HttpEnvironment) (R : ℕ) (backoff jitter interval : Rat)
    (s : RpcState) (payload : Json) (h : mentionsRateLimit (errorMessage env.str payload) = true) :
    RetriedNotSplit env R ⟨R, backoff, jitter, interval⟩ s payload ↔
      mentionsEarlier (errorMessage env.str payload) = false ∧ 1 ≤ R ∧
        ∀ j ≤ R, waits env ⟨R, backoff, jitter, interval⟩ s 0 j = .ok () := by
  constructor
  · intro hretried
    refine ⟨?_, retriedNotSplit_retries rfl hretried, waits_of_repeated rfl hretried⟩
    by_contra hearlier
    rw [Bool.not_eq_false] at hearlier
    obtain ⟨detail, hdetail⟩ := hretried.classified "eth_getLogs"
    exact classifyMessage_earlier hearlier detail hdetail
  · rintro ⟨hearlier, hone, hwaits⟩
    exact retriedNotSplit rfl hone hwaits fun method => ⟨_, classifyMessage_rateLimit h hearlier⟩

def errorObject (message : String) : Json := .obj [("message", .str message.toList)]

theorem rate_limit_retried_throttle :
    RetriedNotSplit (.ticking fun _ => .timeout) 3 ⟨3, 1, 1 / 4, 1 / 4⟩ .initial
      (errorObject "Throttled by provider") :=
  (rate_limit_retried_iff _ 3 _ _ _ _ _ (by decide)).mpr
    ⟨by decide, by decide, by decide +kernel⟩

theorem rate_limit_split_at_once :
    mentionsRateLimit "Too many requests: rate limit exceeded".toList = true ∧
      classifyRpcError (fun _ => []) "eth_getLogs" (errorObject "Too many requests: rate limit exceeded") =
        .retryable .tooManyResults
          ⟨"eth_getLogs", "Too many requests: rate limit exceeded", true, none, none⟩ ∧
      ¬ RetriedNotSplit (.ticking fun _ => .timeout) 3 ⟨3, 1, 1 / 4, 1 / 4⟩ .initial
        (errorObject "Too many requests: rate limit exceeded") := by
  refine ⟨by decide, by decide, fun h => ?_⟩
  obtain ⟨detail, hdetail⟩ := h.classified "eth_getLogs"
  exact classifyMessage_earlier (by decide) detail hdetail

end EthereumLogs.EthereumJsonRpcClient
