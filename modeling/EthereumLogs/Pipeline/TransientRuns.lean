import EthereumLogs.Pipeline.MalformedLogs
import EthereumLogs.Pipeline.NothingLost
import EthereumLogs.LogCollector.Exhaustion

namespace EthereumLogs.Pipeline
open Python Effect Tiling LogNormalizer BlockRange EthereumJsonRpcClient LogCollector

variable {ω : Type} {env : HttpEnvironment} {rpc : EthereumJsonRpcClient} {chain : Chain} {head R : ℕ}
  {settings : PipelineSettings} {s t : RpcState} {start stop : Instant}

structure Truthful (chain : Chain) (head : ℕ) (call : RpcCall) (result : Json) : Prop where
  chainId : call = ⟨"eth_chainId", []⟩ → hexToInt result = .ok chain.chainId
  finalized : call = ⟨"eth_getBlockByNumber", [.str "finalized".toList, .bool false]⟩ →
    ∃ block, ∃ number : ℕ, result = .obj block ∧ number ≤ head ∧
      blockNumberFromPayload block = .ok number ∧
      blockTimestampFromPayload block = .ok (chain.time number)
  lookup : ∀ n : ℕ, n ≤ head → call = ⟨"eth_getBlockByNumber", [.str (hex n), .bool false]⟩ →
    ∃ block, result = .obj block ∧ blockTimestampFromPayload block = .ok (chain.time n)
  logs : ∀ a b : ℕ, a ≤ b → b ≤ head →
    call = ⟨"eth_getLogs", [.obj (logParams a b none [transferTopic0])]⟩ →
    ∃ rows : List JsonObject, result = .arr (rows.map .obj) ∧
      rows.Perm ((span a (b + 1)).flatMap chain.logsAt)

structure ServedRun (env : HttpEnvironment) (rpc : EthereumJsonRpcClient) (R : ℕ) (chain : Chain)
    (head : ℕ) (settings : PipelineSettings) : Prop where
  served : WellServed env (Truthful chain head)
  maxRetries : rpc.maxRetries = R
  chainId : chain.chainId = settings.chainId
  scope : settings.collectionScope.validate = .ok ()
  chunks : 1 ≤ settings.maxBlocksPerLogRequest ∧
    settings.maxBlocksPerLogRequest ≤ maxBlocksPerLogRequest

theorem asked_ends {Promise : RpcCall → Json → Prop} {call : RpcCall} {id : ℕ} {r : Except Exc Json}
    (h : Asked env Promise R call id r) : Eff.Ends (Promise call) Passing r s := by
  cases h with
  | promised result h => exact h
  | starved e he _ => exact .inl he
  | interrupted e he => exact .inr (.inl he)

theorem request_ends {Promise : RpcCall → Json → Prop} (h : WellServed env Promise)
    (hR : rpc.maxRetries = R) (call : RpcCall) (s : RpcState) :
    Eff.wp (request env rpc call) s (Eff.Ends (Promise call) Passing) :=
  Eff.wp_mono (request_asked h hR call s) fun _ _ hasked => asked_ends hasked

theorem ethChainId_ends (h : ServedRun env rpc R chain head settings) (s : RpcState) :
    Eff.wp (connect env rpc).ethChainId s (Eff.Ends (· = settings.chainId) Passing) := by
  change Eff.wp (ethChainId (request env rpc)) s _
  apply Eff.wp_ends_bind (request_ends h.served h.maxRetries ⟨"eth_chainId", []⟩ s)
  intro result t hresult
  rw [hresult.chainId rfl, h.chainId]
  rfl

def blockCall (blockRef : Text) : RpcCall :=
  ⟨"eth_getBlockByNumber", [.str blockRef, .bool false]⟩

theorem ethGetBlock_outcome {Promise : RpcCall → Json → Prop} (h : WellServed env Promise)
    (hR : rpc.maxRetries = R) (blockRef : Text)
    (hobject : ∀ result, Promise (blockCall blockRef) result → ∃ block, result = .obj block)
    (s : RpcState) :
    (∃ block, (ethGetBlock (request env rpc) blockRef false s).1 = .ok block ∧
        Promise (blockCall blockRef) (.obj block)) ∨
      ∃ e, (ethGetBlock (request env rpc) blockRef false s).1 = .error e ∧ Passing e := by
  have hasked := request_ends h hR (blockCall blockRef) s
  rw [Eff.wp_iff] at hasked
  change (∃ block, ((request env rpc (blockCall blockRef) >>= _) s).1 = .ok block ∧ _) ∨
    ∃ e, ((request env rpc (blockCall blockRef) >>= _) s).1 = .error e ∧ _
  rcases hrun : request env rpc (blockCall blockRef) s with ⟨e | result, t⟩
  · rw [hrun] at hasked
    rw [Eff.bind_of_error hrun]
    exact .inr ⟨e, rfl, hasked⟩
  · rw [hrun] at hasked
    rw [Eff.bind_of_ok hrun]
    obtain ⟨block, rfl⟩ := hobject result hasked
    exact .inl ⟨block, rfl, hasked⟩

theorem lookup_outcome (h : ServedRun env rpc R chain head settings) {n : ℕ} (hn : n ≤ head)
    (s : RpcState) :
    Reports chain.time n ((connect env rpc).ethGetBlockByNumber n s).1 ∨
      ∃ e, ((connect env rpc).ethGetBlockByNumber n s).1 = .error e ∧ Passing e := by
  have hobject : ∀ result, Truthful chain head (blockCall (hex n)) result →
      ∃ block, result = .obj block := by
    intro result hresult
    obtain ⟨block, hblock, -⟩ := hresult.lookup n hn rfl
    exact ⟨block, hblock⟩
  change Reports chain.time n (ethGetBlock (request env rpc) (hex n) false s).1 ∨
    ∃ e, (ethGetBlock (request env rpc) (hex n) false s).1 = .error e ∧ Passing e
  refine (ethGetBlock_outcome h.served h.maxRetries (hex n) hobject s).imp ?_ id
  rintro ⟨block, hok, hpromise⟩
  obtain ⟨block', hblock, htime⟩ := hpromise.lookup n hn rfl
  cases hblock
  exact ⟨block, hok, htime⟩

theorem finalized_outcome (h : ServedRun env rpc R chain head settings) (s : RpcState) :
    (∃ t, ∃ number : ℕ, number ≤ head ∧ Finalized (connect env rpc).toBlockLookupClient s t number
        (chain.time number)) ∨
      ∃ e, ((connect env rpc).ethGetFinalizedBlock s).1 = .error e ∧ Passing e := by
  have hobject : ∀ result, Truthful chain head (blockCall "finalized".toList) result →
      ∃ block, result = .obj block := by
    intro result hresult
    obtain ⟨block, -, hblock, -⟩ := hresult.finalized rfl
    exact ⟨block, hblock⟩
  refine (ethGetBlock_outcome h.served h.maxRetries "finalized".toList hobject s).imp ?_ id
  rintro ⟨block, hok, hpromise⟩
  obtain ⟨block', number, hblock, hle, hnumber, htime⟩ := hpromise.finalized rfl
  cases hblock
  exact ⟨_, number, hle, block, Prod.ext hok rfl, hnumber, htime⟩

theorem finalized_ends (h : ServedRun env rpc R chain head settings) (s : RpcState) :
    Eff.wp (connect env rpc).ethGetFinalizedBlock s (Eff.Ends (fun block => ∃ number ≤ head,
      blockTimestampFromPayload block = .ok (chain.time number)) Passing) := by
  rw [Eff.wp_iff, Eff.ends_iff]
  rcases finalized_outcome h s with ⟨t, number, hle, block, hblock, -, hts⟩ | ⟨e, he, hpassing⟩
  · rw [hblock]
    refine ⟨fun block' hblock' => ?_, by simp⟩
    cases hblock'
    exact ⟨number, hle, hts⟩
  · rw [he]
    refine ⟨by simp, fun e' he' => ?_⟩
    cases he'
    exact hpassing

theorem passing_not_forbidden {e : Exc} (h : Passing e) : isForbiddenBlockLookup e = false := by
  rcases h with h | h | rfl
  · obtain ⟨kind, detail, rfl⟩ := retryable_cases h
    rfl
  · cases e with
    | rpc error => cases h
    | _ => rfl
  · rfl

theorem lookups_answer (h : ServedRun env rpc R chain head settings) {number : ℕ} (hle : number ≤ head) :
    Answers (connect env rpc).toBlockLookupClient chain.time number (fun _ => True)
      (fun _ e => Passing e) := by
  constructor
  intro n hn hnumber u
  lift n to ℕ using hn
  rcases lookup_outcome h (n := n) (by omega) u with hreport | hfail
  · exact .inl ⟨hreport, trivial⟩
  · exact .inr hfail

structure KnownBlocks (head : ℕ) (range : IntervalBlockRange) : Prop where
  nonneg : 0 ≤ range.fromBlock
  ordered : range.fromBlock ≤ range.toBlock
  known : range.toBlock ≤ head

structure ResolvedBlocks (chain : Chain) (head : ℕ) (start stop : Instant)
    (range : IntervalBlockRange) : Prop extends KnownBlocks head range where
  blocks : ∀ n : ℕ, range.fromBlock ≤ n ∧ n ≤ range.toBlock ↔
    start ≤ chain.time n ∧ chain.time n < stop

theorem searchInterval_ends (h : ServedRun env rpc R chain head settings) {number : ℕ}
    (hle : number ≤ head) (hlt : start < stop) (hfinal : stop ≤ chain.time number)
    (hblocks : ∃ n, start ≤ chain.time n ∧ chain.time n < stop) (t : RpcState) :
    (∀ range, (searchInterval (connect env rpc).toBlockLookupClient start stop number
        (chain.time number) ⟨t, seedCache number (chain.time number)⟩).1 = .ok range →
      ResolvedBlocks chain head start stop range) ∧
    ∀ e, (searchInterval (connect env rpc).toBlockLookupClient start stop number
        (chain.time number) ⟨t, seedCache number (chain.time number)⟩).1 = .error e → Passing e := by
  have hspec := searchInterval_spec chain.increasing (lookups_answer h hle) (by omega)
    (seedCache_true trivial t) (seedCache_cached _ _ t) hlt hfinal
  constructor
  · intro range hrange
    obtain ⟨hfound, -⟩ := hspec.found range hrange
    have hlast := hfound.last
    have hhead := hfound.next.le_head
    exact ⟨⟨hfound.first.nonneg, hfound.nonempty, by omega⟩, hfound.covers.blocks⟩
  · intro e he
    cases hspec.refused e he with
    | window b h0 hb hacc hlate e' hrefusal hforbidden =>
      rw [passing_not_forbidden hrefusal] at hforbidden
      cases hforbidden
    | empty low hlow hnone =>
      obtain ⟨n, hn⟩ := hblocks
      exact absurd hn (hnone n (by omega))
    | lookup _ n hrefusal => exact hrefusal
    | search _ low n hacc hn hrefusal => exact hrefusal

theorem resolve_ends (h : ServedRun env rpc R chain head settings) (hlt : start < stop)
    (hblocks : ∃ n, start ≤ chain.time n ∧ chain.time n < stop) (s : RpcState) :
    Eff.wp (resolveIntervalBlockRange (connect env rpc).toBlockLookupClient (.utc start) (.utc stop)) s
      (Eff.Ends (ResolvedBlocks chain head start stop) Passing) := by
  rw [Eff.wp_iff, Eff.ends_iff]
  rcases finalized_outcome h s with ⟨t, number, hle, hfin⟩ | ⟨e, he, hpassing⟩
  · have hordered : (Datetime.utc start).instant < (Datetime.utc stop).instant := by
      simpa only [instant_utc] using hlt
    rw [resolve_eq (astimezone_utc_instant start) (astimezone_utc_instant stop) hordered hfin]
    simp only [instant_utc]
    split_ifs with hfinal
    · refine ⟨by simp, fun e he => ?_⟩
      cases he
      exact .inr (.inr rfl)
    · exact searchInterval_ends h hle hlt (not_lt.mp hfinal) hblocks t
  · have hfails : (resolveIntervalBlockRange (connect env rpc).toBlockLookupClient (.utc start)
        (.utc stop) s).1 = .error e := by
      have hrun : (connect env rpc).ethGetFinalizedBlock s =
          (.error e, ((connect env rpc).ethGetFinalizedBlock s).2) := Prod.ext he rfl
      simp only [resolveIntervalBlockRange, BlockRange.ensureUtc, astimezone_utc, Eff.ofExcept_ok_bind]
      rw [if_neg (not_le.mpr hlt), Eff.bind_of_error hrun]
    rw [hfails]
    refine ⟨by simp, fun e' he' => ?_⟩
    cases he'
    exact hpassing

theorem logs_promised (h : ServedRun env rpc R chain head settings) {range : IntervalBlockRange}
    (hknown : KnownBlocks head range) :
    LogsPromised (Truthful chain head) settings.collectionScope chain.logsAt range.fromBlock
      range.toBlock := by
  rintro ⟨fromBlock, toBlock, hordered⟩ result hlo hhi hresult
  have h0 := hknown.nonneg
  have hhead := hknown.known
  rw [(settings.collectionScope.validate_ok_iff).mp h.scope] at hresult
  dsimp only at hlo hhi
  lift fromBlock to ℕ using by omega
  lift toBlock to ℕ using by omega
  exact hresult.logs fromBlock toBlock (by omega) (by omega) rfl

def CollectableWindow (env : HttpEnvironment) (R : ℕ) (chain : Chain) (settings : PipelineSettings)
    (start stop : Instant) : Prop :=
  ∀ first last : ℕ, (∀ n, first ≤ n ∧ n ≤ last ↔ start ≤ chain.time n ∧ chain.time n < stop) →
    ∀ chunks, iterBlockChunks first last settings.maxBlocksPerLogRequest = .ok chunks →
      ∀ chunk ∈ chunks, Collectable env R settings.collectionScope chunk

theorem collect_ends (h : ServedRun env rpc R chain head settings)
    (hcollect : CollectableWindow env R chain settings start stop) {range : IntervalBlockRange}
    (hresolved : ResolvedBlocks chain head start stop range) (s : RpcState) :
    Eff.wp (collectRawLogs (connect env rpc).toLogRpcClient range.fromBlock range.toBlock
        settings.collectionScope settings.maxBlocksPerLogRequest) s
      (Eff.Ends (fun rows =>
        rows.Perm ((span range.fromBlock (range.toBlock + 1)).flatMap chain.logsAt)) Passing) := by
  have h0 := hresolved.nonneg
  have hordered := hresolved.ordered
  refine collectRawLogs_passes h.served h.maxRetries (logs_promised h hresolved.toKnownBlocks) h.scope
    h0 hordered h.chunks.1 h.chunks.2 (fun chunks hchunks => ?_) s
  refine hcollect range.fromBlock.toNat range.toBlock.toNat ?_ chunks ?_
  · intro n
    rw [← hresolved.blocks n]
    omega
  · rwa [Int.toNat_of_nonneg h0, Int.toNat_of_nonneg (h0.trans hordered)]

def blockTruth (chain : Chain) (n : Int) : Option Instant :=
  if 0 ≤ n then some (timeAt chain.time n) else none

def KnownLogs (chain : Chain) (head : ℕ) (rawLogs : List RawLog) : Prop :=
  ∀ rawLog ∈ rawLogs, ∃ n ≤ head, rawLog ∈ chain.logs n

theorem blockTruth_utc (chain : Chain) :
    (fun n => (blockTruth chain n).map Datetime.utc) = chain.timestamps := by
  funext n
  simp only [blockTruth, Chain.timestamps, trueTimestamps]
  split_ifs
  · rfl
  · rfl

theorem knownLogs_of_perm {range : IntervalBlockRange} {rows : List RawLog}
    (hknown : KnownBlocks head range)
    (hrows : rows.Perm ((span range.fromBlock (range.toBlock + 1)).flatMap chain.logsAt)) :
    KnownLogs chain head rows := by
  intro rawLog hmem
  obtain ⟨n, hn, hlog⟩ := List.mem_flatMap.mp (hrows.mem_iff.mp hmem)
  obtain ⟨hge, hlt⟩ := mem_span.mp hn
  have hhead := hknown.known
  exact ⟨n.toNat, by omega, hlog⟩

theorem trueRow_logs {interval : Interval ω} (hchain : chain.chainId = interval.settings.chainId)
    {n : ℕ} {rawLog : RawLog} (hlog : rawLog ∈ chain.logs n) :
    ∃ row, trueRow interval (blockTruth chain) rawLog = .ok row ∧ row.blockNumber = n := by
  obtain ⟨event, hevent, hnumber⟩ := chain.wellFormed n rawLog hlog
  refine ⟨⟨event, interval.startUtc.instant, interval.endUtc.instant, interval.now⟩, ?_, hnumber⟩
  rw [trueRow, normalizeLog_eq, blockTruth_utc, ← hchain, Chain.timestamps, hevent]
  rfl

theorem knownLogs_numbers {rawLogs : List RawLog} (hlogs : KnownLogs chain head rawLogs) :
    ∃ numbers, blockNumbers rawLogs = .ok numbers ∧ ∀ n ∈ numbers, 0 ≤ n ∧ n ≤ head := by
  have hread : ∀ rawLog ∈ rawLogs, ∃ v text, ∃ n : ℕ, rawLog.get "blockNumber" = some v ∧
      v.asStr = some text ∧ int16 text = .ok n ∧ n ≤ head := by
    intro rawLog hmem
    obtain ⟨n, hn, hlog⟩ := hlogs rawLog hmem
    obtain ⟨event, hevent, hnumber⟩ := chain.wellFormed n rawLog hlog
    obtain ⟨v, text, hv, htext, hint⟩ := (normalizeEvent_from hevent).blockNumber
    exact ⟨v, text, n, hv, htext, by rw [hint, hnumber], hn⟩
  have hparses : ∀ rawLog ∈ rawLogs, BlockNumberParses rawLog := by
    intro rawLog hmem v text hv htext
    obtain ⟨v', text', n, hv', htext', hint, -⟩ := hread rawLog hmem
    obtain rfl := blockText_unique hv htext hv' htext'
    exact ⟨n, hint⟩
  obtain ⟨numbers, hnumbers⟩ := blockNumbers_parsed hparses
  refine ⟨numbers, hnumbers, fun n hn => ?_⟩
  obtain ⟨rawLog, hmem, v, text, hv, htext, hint⟩ := blockNumbers_from hnumbers hn
  obtain ⟨v', text', k, hv', htext', hint', hk⟩ := hread rawLog hmem
  obtain rfl := blockText_unique hv htext hv' htext'
  rw [hint] at hint'
  cases hint'
  omega

theorem lookupTimestamps_ends (h : ServedRun env rpc R chain head settings) {numbers : List Int}
    (hnumbers : ∀ n ∈ numbers, 0 ≤ n ∧ n ≤ head) (s : RpcState) :
    Eff.wp (lookupTimestamps (connect env rpc) numbers) s
      (Eff.Ends (fun timestamps => ∀ n ∈ numbers, timestamps n = blockTruth chain n) Passing) := by
  induction numbers generalizing s with
  | nil => exact List.forall_mem_nil _
  | cons n numbers ih =>
    obtain ⟨h0, hle⟩ := hnumbers n (by simp)
    have hlookup : Eff.wp ((connect env rpc).ethGetBlockByNumber n) s (Eff.Ends
        (fun block => blockTimestampFromPayload block = .ok (timeAt chain.time n)) Passing) := by
      lift n to ℕ using h0
      rw [Eff.wp_iff, Eff.ends_iff]
      rcases lookup_outcome h (n := n) (by omega) s with ⟨block, hok, htime⟩ | ⟨e, he, hpassing⟩
      · rw [hok]
        refine ⟨fun block' hblock => ?_, by simp⟩
        cases hblock
        exact htime
      · rw [he]
        refine ⟨by simp, fun e' he' => ?_⟩
        cases he'
        exact hpassing
    rw [lookupTimestamps]
    apply Eff.wp_ends_bind hlookup
    intro block t htime
    rw [htime, Eff.ofExcept_ok_bind]
    apply Eff.wp_ends_bind (ih (fun k hk => hnumbers k (by simp [hk])) t)
    intro timestamps u htimestamps k hk
    dsimp only
    by_cases he : k = n
    · rw [if_pos he, he, blockTruth, if_pos h0]
    · rw [if_neg he]
      exact htimestamps k ((List.mem_cons.mp hk).resolve_left he)

theorem loadBlockTimestamps_ends (h : ServedRun env rpc R chain head settings) {rawLogs : List RawLog}
    {numbers : List Int} (hnumbers : blockNumbers rawLogs = .ok numbers)
    (hknown : ∀ n ∈ numbers, 0 ≤ n ∧ n ≤ head) (s : RpcState) :
    Eff.wp (loadBlockTimestamps (connect env rpc) rawLogs) s
      (Eff.Ends (fun timestamps => ∀ n ∈ numbers, timestamps n = blockTruth chain n) Passing) := by
  rw [loadBlockTimestamps, hnumbers, Eff.ofExcept_ok_bind]
  refine Eff.wp_mono (lookupTimestamps_ends h (fun n hn => hknown n (mem_sortedSet.mp hn)) s) ?_
  intro r t ht
  rw [Eff.ends_iff] at ht ⊢
  exact ⟨fun timestamps hr n hn => ht.1 timestamps hr n (mem_sortedSet.mpr hn), ht.2⟩

theorem knownLogs_accepted {interval : Interval ω} (hchain : chain.chainId = interval.settings.chainId)
    {rawLogs : List RawLog} (hlogs : KnownLogs chain head rawLogs) :
    rejectedCount interval (blockTruth chain) rawLogs = 0 := by
  apply List.countP_eq_zero.mpr
  intro rawLog hmem
  obtain ⟨n, -, hlog⟩ := hlogs rawLog hmem
  obtain ⟨row, hrow, -⟩ : ∃ row, trueRow interval (blockTruth chain) rawLog = .ok row ∧
    row.blockNumber = n := trueRow_logs hchain hlog
  simp [hrow, Except.isOk, Except.toBool]

theorem fetchLogs_ends (h : ServedRun env rpc R chain head settings) (hlt : start < stop)
    (hblocks : ∃ n, start ≤ chain.time n ∧ chain.time n < stop)
    (hcollect : CollectableWindow env R chain settings start stop) (s : RpcState) :
    Eff.wp (fetchLogs (connect env rpc) settings start stop) s (Eff.Ends (fun fetched =>
      KnownLogs chain head fetched.rawLogs ∧ ∃ numbers, blockNumbers fetched.rawLogs = .ok numbers ∧
        ∀ n ∈ numbers, fetched.blockTimestamps n = blockTruth chain n) Passing) := by
  rw [fetchLogs]
  apply Eff.wp_ends_bind (ethChainId_ends h s)
  rintro _ t rfl
  rw [if_neg (not_not.mpr rfl)]
  apply Eff.wp_ends_bind (resolve_ends h hlt hblocks t)
  intro range u hresolved
  apply Eff.wp_ends_bind (collect_ends h hcollect hresolved u)
  intro rawLogs v hrows
  have hlogs := knownLogs_of_perm hresolved.toKnownBlocks hrows
  obtain ⟨numbers, hnumbers, hbounds⟩ := knownLogs_numbers hlogs
  apply Eff.wp_ends_bind (loadBlockTimestamps_ends h hnumbers hbounds v)
  intro timestamps x htimestamps
  exact ⟨hlogs, numbers, hnumbers, htimestamps⟩

structure CoversBlocks (chain : Chain) (interval : Interval ω) : Prop where
  block : ∃ n, interval.startUtc.instant ≤ chain.time n ∧ chain.time n < interval.endUtc.instant
  bounds : normalizeIntervalBounds interval.startUtc interval.endUtc =
    .ok (interval.startUtc.instant, interval.endUtc.instant)

theorem prepareRows_ends {interval : Interval ω}
    (h : ServedRun env rpc R chain head interval.settings) (hcovers : CoversBlocks chain interval)
    (hcollect : CollectableWindow env R chain interval.settings interval.startUtc.instant
      interval.endUtc.instant) (s : RpcState) :
    Eff.wp (prepareRows (connect env rpc) interval) s (Eff.Ends (fun _ => True) Passing) := by
  obtain ⟨n, hn⟩ := hcovers.block
  rw [prepareRows, hcovers.bounds, Eff.ofExcept_ok_bind]
  dsimp only
  apply Eff.wp_ends_bind (fetchLogs_ends h (hn.1.trans_lt hn.2) ⟨n, hn⟩ hcollect s)
  rintro ⟨range, rawLogs, timestamps⟩ t ⟨hlogs, numbers, hnumbers, htrue⟩
  obtain ⟨rows, hrows⟩ : ∃ rows, normalizeFetched interval.settings interval.startUtc.instant
      interval.endUtc.instant interval.now ⟨range, rawLogs, timestamps⟩ = _ :=
    normalizeFetched_eq hnumbers htrue
  have haccepted : rejectedCount interval (blockTruth chain) rawLogs = 0 :=
    knownLogs_accepted h.chainId hlogs
  rw [hrows, haccepted, if_neg (lt_irrefl 0), Eff.ofExcept_ok_bind]
  exact trivial

def StorageSucceeds (client : EthereumClient RpcState) (interval : Interval ω) (w : World RpcState ω) :
    Prop :=
  ∀ prepared s, prepareRows client interval w.rpc = (.ok prepared, s) →
    ∃ written delta, DeltaWriter.writeEthereumLogsInsertOnly interval.faults prepared.rows w.delta =
        (.ok written, delta) ∧
      ∃ dbtResult warehouse, interval.dbtRunner interval.settings prepared.start prepared.stop delta
        w.warehouse = (.ok dbtResult, warehouse)

theorem runInterval_ends {interval : Interval ω} {w : World RpcState ω}
    (h : ServedRun env rpc R chain head interval.settings) (hcovers : CoversBlocks chain interval)
    (hcollect : CollectableWindow env R chain interval.settings interval.startUtc.instant
      interval.endUtc.instant) (hstorage : StorageSucceeds (connect env rpc) interval w) :
    Eff.wp (runInterval (connect env rpc) interval) w (Eff.Ends (fun _ => True) Passing) := by
  have hprepared := prepareRows_ends h hcovers hcollect w.rpc
  rw [Eff.wp_iff] at hprepared ⊢
  rcases hrun : prepareRows (connect env rpc) interval w.rpc with ⟨e | prepared, s⟩
  · rw [hrun] at hprepared
    rw [runInterval_unprepared hrun]
    exact hprepared
  · obtain ⟨written, delta, hwrite, dbtResult, warehouse, hdbt⟩ := hstorage prepared s hrun
    have hbuild : onWarehouse (interval.dbtRunner interval.settings prepared.start prepared.stop)
        ⟨s, delta, w.warehouse⟩ = (.ok dbtResult, ⟨s, delta, warehouse⟩) := by
      rw [onWarehouse, Eff.get_bind]
      simp [Eff.zoom, hdbt]
    rw [runInterval, Eff.bind_of_ok (onRpc_eq hrun),
      Eff.bind_of_ok (onDelta_eq (w := { w with rpc := s }) hwrite), finishRun, Eff.bind_of_ok hbuild]
    exact trivial

end EthereumLogs.Pipeline
