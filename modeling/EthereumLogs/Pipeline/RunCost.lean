import EthereumLogs.BlockRange.LookupCost
import EthereumLogs.Dag.Task
import EthereumLogs.Pipeline.ChainTables
import EthereumLogs.Pipeline.Session
import EthereumLogs.RpcTransport.Waiting

namespace EthereumLogs.Pipeline
open Python Effect Tiling Metering LogNormalizer BlockRange LogCollector EthereumJsonRpcClient Dag

section Metered

variable {ρ C : Type} [AddCommMonoid C] [PartialOrder C] [IsOrderedAddMonoid C] {Inv : ρ → Prop}
  {measure : ρ → C} {cost : C} {request : JsonRpc ρ}

theorem ethGetBlock_bills (hcost : 0 ≤ cost) (hrequest : ∀ call, Bills Inv measure cost 1 (request call))
    (blockRef : Text) (fullTransactions : Bool) :
    Bills Inv measure cost 1 (ethGetBlock request blockRef fullTransactions) := by
  refine (hrequest _).bind (m := 0) hcost ?_
  intro result
  cases asObject result with
  | none => exact bills_ofExcept (.error _)
  | some block => exact bills_ofExcept (.ok block)

theorem ethGetLogs_bills (hcost : 0 ≤ cost) (hrequest : ∀ call, Bills Inv measure cost 1 (request call))
    (fromBlock toBlock : Int) (address : Option Text) (topics : List Text) :
    Bills Inv measure cost 1 (ethGetLogs request fromBlock toBlock address topics) := by
  have hrefused (e : Exc) : Bills Inv measure cost 1 (throw e : Action ρ (List RawLog)) :=
    Bills.widen hcost (bills_ofExcept (.error e)) (Nat.zero_le 1)
  rw [ethGetLogs]
  split_ifs
  · exact hrefused _
  · exact hrefused _
  · refine (hrequest _).bind (m := 0) hcost ?_
    intro result
    cases result with
    | arr rows => exact bills_ofExcept (.ok _)
    | _ => exact bills_ofExcept (.error _)

theorem collectRawLogs_metered {client : LogRpcClient ρ} (scope : CollectionScope)
    {fromBlock toBlock maxBlocks : Int} (hcost : 0 ≤ cost)
    (hclient : ∀ a b address topics, Bills Inv measure cost 1 (client.ethGetLogs a b address topics))
    (hle : fromBlock ≤ toBlock) (hmax : 1 ≤ maxBlocks) (hcap : maxBlocks ≤ maxBlocksPerLogRequest)
    {s : ρ} (hs : Inv s) :
    Eff.wp (collectRawLogs client fromBlock toBlock scope maxBlocks) s fun _ t =>
      Metered Inv measure cost (callBudget (toBlock + 1 - fromBlock) maxBlocks).toNat s t := by
  have hrecorded : LogsSimulate (fun u (t : ρ × Calls) => u = t.1 ∧
      Metered Inv measure cost t.2.length s u) client (recorded client) :=
    fun a b address topics => (hclient a b address topics).recorded (a, b) s
  obtain ⟨-, -, hmetered⟩ := collectRawLogs_simulates hrecorded fromBlock toBlock scope maxBlocks s
    (s, []) ⟨rfl, metered_refl hs⟩
  have hfree : Costs client (fun _ => 0) 0 := fun _ _ _ _ _ => le_rfl
  have hspent : Spent (fun _ => 0) 0 (callBudget (toBlock + 1 - fromBlock) maxBlocks) (s, [])
      (collectRawLogs (recorded client) fromBlock toBlock scope maxBlocks (s, [])).2 :=
    collectRawLogs_spent hfree hle hmax hcap (s, [])
  obtain ⟨n, hlength, hn, -⟩ := hspent
  refine hmetered.widen hcost ?_
  rw [hlength, List.length_nil]
  omega

theorem lookupTimestamps_bills {client : EthereumClient ρ} (hcost : 0 ≤ cost)
    (hclient : ∀ n, Bills Inv measure cost 1 (client.ethGetBlockByNumber n)) (numbers : List Int) :
    Bills Inv measure cost numbers.length (lookupTimestamps client numbers) := by
  induction numbers with
  | nil => exact bills_ofExcept (.ok _)
  | cons n numbers ih =>
    rw [lookupTimestamps, List.length_cons, Nat.add_comm]
    refine (hclient n).bind hcost fun block => ?_
    cases blockTimestampFromPayload block with
    | error e => exact Bills.widen hcost (bills_ofExcept (.error e)) (Nat.zero_le _)
    | ok timestamp =>
      rw [Eff.ofExcept_ok_bind]
      exact ih.bind (m := 0) hcost fun timestamps => bills_ofExcept (.ok _)

end Metered

section Chain

variable {ρ : Type} {client : EthereumClient ρ} {chain : Chain} {head b : ℕ} {start stop : Instant}

structure TrueUpTo (client : EthereumClient ρ) (chain : Chain) (head : ℕ) : Prop where
  finalized : ∀ s block, (client.ethGetFinalizedBlock s).1 = .ok block → ∃ number : ℕ, number ≤ head ∧
    blockNumberFromPayload block = .ok number ∧
    blockTimestampFromPayload block = .ok (chain.time number)
  lookup : ∀ n : ℕ, n ≤ head → ∀ s block, (client.ethGetBlockByNumber n s).1 = .ok block →
    blockTimestampFromPayload block = .ok (chain.time n)
  logs : ∀ (a b : ℕ) s answer, a ≤ b → b ≤ head →
    (client.ethGetLogs a b none [transferTopic0] s).1 = .ok answer →
    answer.Perm ((span a (b + 1)).flatMap chain.logsAt)

theorem TrueUpTo.finalized_le (h : TrueUpTo client chain head) (s t : ρ) (number : ℤ) (ts : Instant)
    (hfinalized : Finalized client.toBlockLookupClient s t number ts) :
    ∃ k : ℕ, number = k ∧ k ≤ head ∧ ts = chain.time k := by
  obtain ⟨block, hblock, hnumber, hts⟩ := hfinalized.answered
  obtain ⟨k, hk, hnumber', hts'⟩ := h.finalized s block (by rw [hblock])
  rw [hnumber] at hnumber'
  rw [hts] at hts'
  cases hnumber'
  cases hts'
  exact ⟨k, rfl, hk, rfl⟩

theorem TrueUpTo.found (h : TrueUpTo client chain head) {s : ρ} {range : IntervalBlockRange}
    (hok : (resolveIntervalBlockRange client.toBlockLookupClient (.utc start) (.utc stop) s).1 =
      .ok range) :
    ∃ k : ℕ, k ≤ head ∧ Found chain.time k start stop range := by
  obtain ⟨t, number, ts, hfin, hfound⟩ := resolve_found chain.increasing (fun t number ts hfin => by
    obtain ⟨k, rfl, hk, rfl⟩ := h.finalized_le s t number ts hfin
    refine ⟨by omega, rfl, fun _ _ => True, ⟨fun n hn hle u => ?_⟩⟩
    lift n to ℕ using hn
    cases hlookup : (client.ethGetBlockByNumber n u).1 with
    | ok block => exact .inl ⟨⟨block, rfl, h.lookup n (by omega) u block hlookup⟩, trivial⟩
    | error e => exact .inr ⟨e, rfl, trivial⟩) hok
  obtain ⟨k, rfl, hk, -⟩ := h.finalized_le s t number ts hfin
  exact ⟨k, hk, by simpa using hfound⟩

theorem TrueUpTo.collected (h : TrueUpTo client chain head) {fromBlock toBlock maxBlocks : Int}
    {scope : CollectionScope} {s : ρ} {logs : List RawLog} (hhead : toBlock ≤ head)
    (hok : (collectRawLogs client.toLogRpcClient fromBlock toBlock scope maxBlocks s).1 = .ok logs) :
    logs.Perm ((span fromBlock (toBlock + 1)).flatMap chain.logsAt) := by
  obtain ⟨_, hscope, -⟩ := Eff.ofExcept_bind_ok hok
  rw [(scope.validate_ok_iff).mp hscope] at hok
  have hkeeps : Keeps client.toLogRpcClient (.defaultTransferTopicAllAddresses 1)
      (fun range r => 0 ≤ range.1 → range.1 ≤ range.2 → range.2 ≤ head → ∀ answer, r = .ok answer →
        answer.Perm ((span range.1 (range.2 + 1)).flatMap chain.logsAt)) := by
    intro a b u ha hab hb answer hanswer
    lift a to ℕ using ha
    lift b to ℕ using by omega
    exact h.logs a b u answer (by omega) (by omega) hanswer
  obtain ⟨-, h0, answered, htiles, rfl, hanswered⟩ := collectRawLogs_ok hkeeps hok
  apply htiles.flatMap_perm
  intro c hc
  obtain ⟨hlo, hordered, hpromise⟩ := hanswered c hc
  have hinside : c.1.2 < toBlock + 1 := (htiles.bounds hc).2
  exact hpromise (by omega) hordered (by omega) c.2 rfl

theorem blockNumbers_within {lo hi : Int} {rawLogs : List RawLog} {numbers : List Int} (h0 : 0 ≤ lo)
    (hlogs : rawLogs.Perm ((span lo hi).flatMap chain.logsAt))
    (hnumbers : blockNumbers rawLogs = .ok numbers) : ∀ n ∈ numbers, lo ≤ n ∧ n < hi := by
  intro n hn
  obtain ⟨rawLog, hmem, v, text, hv, htext, hint⟩ := blockNumbers_from hnumbers hn
  obtain ⟨k, hk, hlog⟩ := List.mem_flatMap.mp (hlogs.mem_iff.mp hmem)
  obtain ⟨hge, hlt⟩ := mem_span.mp hk
  obtain ⟨event, hevent, hnumber⟩ := chain.wellFormed k.toNat rawLog hlog
  obtain ⟨v', text', hv', htext', hint'⟩ := (normalizeEvent_from hevent).blockNumber
  obtain rfl := blockText_unique hv htext hv' htext'
  rw [hint, hnumber] at hint'
  cases hint'
  omega

theorem Chain.found_length {k : ℕ} {range : IntervalBlockRange}
    (h : Found chain.time k start stop range) :
    (range.toBlock + 1 - range.fromBlock).toNat = (chain.blocksIn ⟨start, stop⟩).length := by
  rw [← (chain.found_blocks h).length_eq, List.length_map, span,
    List.length_map, List.length_range]

theorem sortedSet_length {lo hi : Int} {numbers : List Int} (h : ∀ n ∈ numbers, lo ≤ n ∧ n < hi) :
    (sortedSet numbers).length ≤ (hi - lo).toNat := by
  have hsubset : numbers.dedup ⊆ span lo hi := fun n hn =>
    mem_span.mpr (h n (List.mem_dedup.mp hn))
  have hlength := ((List.nodup_dedup numbers).subperm hsubset).length_le
  rw [sortedSet, List.length_insertionSort]
  simpa [span] using hlength

end Chain

def requestAllowance (depth blocks : ℕ) (maxBlocks : Int) : ℕ :=
  4 * Nat.log 2 depth + 9 + (callBudget blocks maxBlocks).toNat + blocks

section Run

variable {ρ ω C : Type} [AddCommMonoid C] [PartialOrder C] [IsOrderedAddMonoid C] {Inv : ρ → Prop}
  {measure : ρ → C} {cost : C} {request : JsonRpc ρ} {chain : Chain} {head b : ℕ}
  {settings : PipelineSettings} {start stop : Instant} {s : ρ}

section Phases

variable (hcost : 0 ≤ cost) (hrequest : ∀ call, Bills Inv measure cost 1 (request call))
  (hclient : TrueUpTo (ofRequest request) chain head)
include hcost hrequest

theorem blockLookups_billed : Billed (ofRequest request).toBlockLookupClient Inv measure cost :=
  ⟨hcost, fun n => ethGetBlock_bills hcost hrequest (hex n) false⟩

include hclient

theorem resolve_within (hb : LastAtOrBefore chain.time start b) (hs : Inv s) :
    Eff.wp (resolveIntervalBlockRange (ofRequest request).toBlockLookupClient (.utc start) (.utc stop)) s
      fun r t => Metered Inv measure cost (1 + (4 * (Nat.log 2 (head - b) + 1) + 3)) s t ∧
        ∀ range, r = .ok range → ∃ k : ℕ, k ≤ head ∧ Found chain.time k start stop range := by
  have hdepth : DepthWithin (ofRequest request).toBlockLookupClient start s
      (Nat.log 2 (head - b) + 1) :=
    depthWithin_last chain.increasing hb (fun t number ts hfin => by
      obtain ⟨k, rfl, hk, -⟩ := hclient.finalized_le s t number ts hfin
      omega) hclient.lookup
  have hresolve := resolve_metered (blockLookups_billed hcost hrequest)
    (ethGetBlock_bills hcost hrequest "finalized".toList false) (.utc start) (.utc stop)
    (Nat.log 2 (head - b) + 1) s (by rwa [instant_utc]) hs
  exact Eff.wp_and hresolve fun range hok => hclient.found hok

theorem collect_within {k : ℕ} {range : IntervalBlockRange} (hk : k ≤ head)
    (hfound : Found chain.time k start stop range) (hmax : 1 ≤ settings.maxBlocksPerLogRequest)
    (hcap : settings.maxBlocksPerLogRequest ≤ maxBlocksPerLogRequest) (hs : Inv s) :
    Eff.wp (collectRawLogs (ofRequest request).toLogRpcClient range.fromBlock range.toBlock
        settings.collectionScope settings.maxBlocksPerLogRequest) s fun r t =>
      Metered Inv measure cost (callBudget (chain.blocksIn ⟨start, stop⟩).length
        settings.maxBlocksPerLogRequest).toNat s t ∧
      ∀ logs, r = .ok logs →
        logs.Perm ((span range.fromBlock (range.toBlock + 1)).flatMap chain.logsAt) := by
  have hle := hfound.nonempty
  have hnext := hfound.next.le_head
  have hlast := hfound.last
  have hblocks := Chain.found_length hfound
  have hcount : range.toBlock + 1 - range.fromBlock = (chain.blocksIn ⟨start, stop⟩).length := by
    omega
  have hlogs (a b : Int) (address : Option Text) (topics : List Text) :
      Bills Inv measure cost 1 ((ofRequest request).ethGetLogs a b address topics) :=
    ethGetLogs_bills hcost hrequest a b address topics
  have hcollect := collectRawLogs_metered settings.collectionScope hcost hlogs hle hmax hcap hs
  rw [hcount] at hcollect
  exact Eff.wp_and hcollect fun logs hok => hclient.collected (by omega) hok

omit hclient

theorem load_within {k : ℕ} {range : IntervalBlockRange}
    (hfound : Found chain.time k start stop range) {rawLogs : List RawLog}
    (hperm : rawLogs.Perm ((span range.fromBlock (range.toBlock + 1)).flatMap chain.logsAt))
    (hs : Inv s) : Eff.wp (loadBlockTimestamps (ofRequest request) rawLogs) s fun _ t =>
      Metered Inv measure cost (chain.blocksIn ⟨start, stop⟩).length s t := by
  rw [loadBlockTimestamps]
  cases hnumbers : blockNumbers rawLogs with
  | error e => exact (metered_refl hs).widen hcost (Nat.zero_le _)
  | ok numbers =>
    rw [Eff.ofExcept_ok_bind]
    have hlookups := lookupTimestamps_bills hcost (blockLookups_billed hcost hrequest).number
      (sortedSet numbers) s hs
    refine hlookups.widen hcost ?_
    rw [← Chain.found_length hfound]
    exact sortedSet_length (blockNumbers_within hfound.first.nonneg hperm hnumbers)

end Phases

theorem fetchLogs_metered (hcost : 0 ≤ cost) (hrequest : ∀ call, Bills Inv measure cost 1 (request call))
    (hclient : TrueUpTo (ofRequest request) chain head) (hmax : 1 ≤ settings.maxBlocksPerLogRequest)
    (hcap : settings.maxBlocksPerLogRequest ≤ maxBlocksPerLogRequest)
    (hb : LastAtOrBefore chain.time start b) (hs : Inv s) :
    Eff.wp (fetchLogs (ofRequest request) settings start stop) s fun _ t => Metered Inv measure cost
      (requestAllowance (head - b) (chain.blocksIn ⟨start, stop⟩).length
        settings.maxBlocksPerLogRequest) s t := by
  have hchainId : Eff.wp (ofRequest request).ethChainId s fun _ t => Metered Inv measure cost 1 s t :=
    (hrequest _).bind (m := 0) hcost (fun result => bills_ofExcept _) s hs
  have hall : 1 + (1 + (4 * (Nat.log 2 (head - b) + 1) + 3)) +
      (callBudget (chain.blocksIn ⟨start, stop⟩).length settings.maxBlocksPerLogRequest).toNat +
      (chain.blocksIn ⟨start, stop⟩).length = requestAllowance (head - b)
        (chain.blocksIn ⟨start, stop⟩).length settings.maxBlocksPerLogRequest := by
    rw [requestAllowance]
    omega
  rw [fetchLogs, ← hall]
  refine Eff.wp_seq hchainId ?_ ?_
  · intro chainId s1 hone
    split_ifs
    · exact hone.widen hcost (by omega)
    · refine Eff.wp_seq (resolve_within hcost hrequest hclient hb hone.keeps) ?_ ?_
      · rintro range s2 ⟨htwo, hfound⟩
        obtain ⟨k, hk, hfound⟩ := hfound range rfl
        have hsearched := hone.trans htwo
        refine Eff.wp_seq (collect_within hcost hrequest hclient hk hfound hmax hcap hsearched.keeps)
          ?_ ?_
        · rintro rawLogs s3 ⟨hthree, hperm⟩
          have hcollected := hsearched.trans hthree
          refine Eff.wp_seq (load_within hcost hrequest hfound (hperm rawLogs rfl) hcollected.keeps)
            ?_ ?_
          · intro timestamps s4 hfour
            exact hcollected.trans hfour
          · intro e s4 hfour
            exact hcollected.trans hfour
        · rintro e s3 ⟨hthree, -⟩
          exact (hsearched.trans hthree).widen hcost (by omega)
      · rintro e s2 ⟨htwo, -⟩
        exact (hone.trans htwo).widen hcost (by omega)
  · intro e t ht
    exact ht.widen hcost (by omega)

theorem prepareRows_metered (hcost : 0 ≤ cost)
    (hrequest : ∀ call, Bills Inv measure cost 1 (request call)) (interval : Interval ω)
    (hclient : TrueUpTo (ofRequest request) chain head)
    (hmax : 1 ≤ interval.settings.maxBlocksPerLogRequest)
    (hcap : interval.settings.maxBlocksPerLogRequest ≤ maxBlocksPerLogRequest)
    (hb : LastAtOrBefore chain.time interval.startUtc.instant b) (hs : Inv s) :
    Eff.wp (prepareRows (ofRequest request) interval) s fun _ t => Metered Inv measure cost
      (requestAllowance (head - b)
        (chain.blocksIn ⟨interval.startUtc.instant, interval.endUtc.instant⟩).length
        interval.settings.maxBlocksPerLogRequest) s t := by
  rw [prepareRows]
  cases hbounds : normalizeIntervalBounds interval.startUtc interval.endUtc with
  | error e => exact (metered_refl hs).widen hcost (Nat.zero_le _)
  | ok bounds =>
    obtain rfl := normalizeIntervalBounds_ok hbounds
    rw [Eff.ofExcept_ok_bind]
    refine Eff.wp_seq (fetchLogs_metered hcost hrequest hclient hmax hcap hb hs) ?_ ?_
    · intro fetched t ht
      cases normalizeFetched interval.settings interval.startUtc.instant interval.endUtc.instant
        interval.now fetched with
      | error e => exact ht
      | ok normalized => exact ht
    · exact fun _ _ ht => ht

end Run

section Transport

variable {ω : Type} {env : HttpEnvironment} {rpc : EthereumJsonRpcClient} {chain : Chain}
  {head b R : ℕ} {s : RpcState}

def TellsTruth (env : HttpEnvironment) (chain : Chain) (head : ℕ) : Prop :=
  ∀ call id result, outcomeAt env call id = .ok result → Truthful chain head call result

theorem TellsTruth.request (h : TellsTruth env chain head) {call : RpcCall} {result : Json}
    (hok : (request env rpc call s).1 = .ok result) : Truthful chain head call result := by
  obtain ⟨sent, hrequested⟩ : ∃ sent, Requested env call s _ _ sent :=
    request_requested env rpc call s
  obtain ⟨p, hp, hanswer⟩ := hrequested.answered result hok
  obtain ⟨id, rfl⟩ := hrequested.made p hp
  exact h call id result hanswer

theorem TellsTruth.block (h : TellsTruth env chain head) {blockRef : Text} {block : JsonObject}
    (hok : (ethGetBlock (EthereumJsonRpcClient.request env rpc) blockRef false s).1 = .ok block) :
    Truthful chain head (blockCall blockRef) (.obj block) := by
  obtain ⟨result, t, hrequest, hblock⟩ := Eff.bind_ok hok
  have htrue := h.request (congrArg Prod.fst hrequest)
  cases result with
  | obj fields =>
    cases hblock
    exact htrue
  | _ => cases hblock

theorem TellsTruth.trueUpTo (h : TellsTruth env chain head) :
    TrueUpTo (connect env rpc) chain head := by
  refine ⟨?_, ?_, ?_⟩
  · intro s block hblock
    obtain ⟨block', number, heq, hle, hnumber, htime⟩ := (h.block hblock).finalized rfl
    cases heq
    exact ⟨number, hle, hnumber, htime⟩
  · intro n hn s block hblock
    obtain ⟨block', heq, htime⟩ := (h.block hblock).lookup n hn rfl
    cases heq
    exact htime
  · intro a b s answer hab hb hanswer
    change (ethGetLogs (EthereumJsonRpcClient.request env rpc) a b none [transferTopic0] s).1 = _
      at hanswer
    rw [ethGetLogs] at hanswer
    split_ifs at hanswer
    · cases hanswer
    · cases hanswer
    · obtain ⟨result, t, hrequest, hrows⟩ := Eff.bind_ok hanswer
      obtain ⟨rows, rfl, hperm⟩ := (h.request (congrArg Prod.fst hrequest)).logs a b hab hb rfl
      cases hrows
      rwa [filterMap_asObject]

structure RunCost (env : HttpEnvironment) (rpc : EthereumJsonRpcClient) (R allowance : ℕ)
    (s t : RpcState) : Prop where
  posts : postCount t ≤ postCount s + allowance * (R + 1)
  waits : Timely env → Nonnegative rpc → Clocked env s →
    slept t ≤ slept s + allowance * longestRequest rpc R

theorem run_interval_cost (env : HttpEnvironment) (rpc : EthereumJsonRpcClient) (R : ℕ)
    (hR : rpc.maxRetries = R) (chain : Chain) (head : ℕ) (htruth : TellsTruth env chain head)
    (interval : Interval ω) (hmax : 1 ≤ interval.settings.maxBlocksPerLogRequest)
    (hcap : interval.settings.maxBlocksPerLogRequest ≤ maxBlocksPerLogRequest) (b : ℕ)
    (hb : LastAtOrBefore chain.time interval.startUtc.instant b) (w : World RpcState ω) :
    RunCost env rpc R
      (requestAllowance (head - b)
        (chain.blocksIn ⟨interval.startUtc.instant, interval.endUtc.instant⟩).length
        interval.settings.maxBlocksPerLogRequest)
      w.rpc (runInterval (connect env rpc) interval w).2.rpc := by
  rw [runInterval_rpc]
  constructor
  · have hposts : ∀ call, Bills (fun _ => True) postCount (R + 1) 1 (request env rpc call) :=
      fun call s _ => ⟨trivial, by simpa using request_postCount_le hR call s⟩
    have hmetered : Metered (fun _ => True) postCount (R + 1) _ w.rpc
        (prepareRows (connect env rpc) interval w.rpc).2 :=
      prepareRows_metered (Nat.zero_le _) hposts interval htruth.trueUpTo hmax hcap hb trivial
    have hpaid := hmetered.paid
    rwa [nsmul_eq_mul] at hpaid
  · intro hclock hclient hclocked
    have hmetered : Metered (Clocked env) slept (longestRequest rpc R) _ w.rpc
        (prepareRows (connect env rpc) interval w.rpc).2 :=
      prepareRows_metered (longestRequest_nonneg hclient R) (request_waits hclock hclient hR) interval
        htruth.trueUpTo hmax hcap hb hclocked
    have hpaid := hmetered.paid
    rwa [nsmul_eq_mul] at hpaid

end Transport

theorem throttling_tellsTruth (throttled : RpcPayload → Bool) :
    TellsTruth (throttling throttled) quietHours 4 := by
  intro call id result hresult
  rcases throttling_served throttled call id with htransient | ⟨result', hresult', htruthful⟩
  · obtain ⟨e, he, -⟩ := retries_error (readOutcome_transient htransient)
    rw [outcomeAt, he] at hresult
    cases hresult
  · rw [hresult] at hresult'
    cases hresult'
    exact htruthful

theorem everyHour_last : LastAtOrBefore everyHour (minutes 60) 1 := by
  constructor
  · intro n hn
    simp only [everyHour, minutes, microsPerHour, microsPerSecond, Instant]
    omega
  · left
    decide

theorem throttling_timely (throttled : RpcPayload → Bool) : Timely (throttling throttled) := by
  constructor
  · intro i j hij
    change (i : Rat) ≤ j
    exact_mod_cast hij
  · intro k jitter hjitter
    exact hjitter

theorem run_interval_cost_throttled :
    (Timely (throttling everyOther) ∧ Nonnegative (retrying 1) ∧
      Clocked (throttling everyOther) .initial) ∧
    RunCost (throttling everyOther) (retrying 1) 1
      (requestAllowance (4 - 1)
        (quietHours.blocksIn
          ⟨scheduledInterval.startUtc.instant, scheduledInterval.endUtc.instant⟩).length
        scheduledInterval.settings.maxBlocksPerLogRequest)
      .initial (runInterval (connect (throttling everyOther) (retrying 1)) scheduledInterval
        (fresh .initial)).2.rpc :=
  ⟨⟨throttling_timely everyOther, ⟨by norm_num [retrying], by norm_num [retrying],
    by norm_num [retrying]⟩, clocked_initial _⟩,
    run_interval_cost (throttling everyOther) (retrying 1) 1 rfl quietHours 4
      (throttling_tellsTruth everyOther) scheduledInterval (by decide) (by decide) 1
      (by rw [scheduledInterval]; exact everyHour_last) (fresh .initial)⟩

end EthereumLogs.Pipeline
