import EthereumLogs.Pipeline.Simulation
import EthereumLogs.Pipeline.SummaryView
import EthereumLogs.Pipeline.TransientRuns

namespace EthereumLogs.DeltaWriter
open Python Keyed LogNormalizer

variable {logs : List LogRow} {row : LogRow} {table : Option DeltaTable}

def FitsInt64 (i : Int) : Prop := -2 ^ 63 ≤ i ∧ i < 2 ^ 63

structure Storable (event : LogEvent) : Prop where
  chainId : FitsInt64 event.chainId
  blockNumber : FitsInt64 event.blockNumber
  transactionIndex : ∀ i ∈ event.transactionIndex, FitsInt64 i
  logIndex : FitsInt64 event.logIndex

theorem int64Column_fits {i : Int} (h : FitsInt64 i) : int64Column (.int i) = some i := if_pos h

theorem nullable_int64_fits {i : Option Int} (h : ∀ j ∈ i, FitsInt64 j) :
    nullable int64Column (.ofOptionalInt i) = some i := by
  cases i with
  | none => rfl
  | some i =>
    change (int64Column (.int i)).map some = _
    rw [int64Column_fits (h i rfl)]
    rfl

theorem nullable_text (t : Option Text) : nullable stringColumn (.ofOptionalText t) = some t := by
  cases t with
  | none => rfl
  | some t => rfl

theorem nullable_bool_some (b : Option Bool) : nullable boolColumn (.ofOptionalBool b) = some b := by
  cases b with
  | none => rfl
  | some b => rfl

theorem arrowRow_storable (h : Storable row.toLogEvent) : arrowRow row.toDict = some row := by
  have h1 : int64Column (row.toDict.item "chain_id") = some row.chainId := int64Column_fits h.chainId
  have h2 : int64Column (row.toDict.item "block_number") = some row.blockNumber :=
    int64Column_fits h.blockNumber
  have h3 : nullable int64Column (row.toDict.item "transaction_index") = some row.transactionIndex :=
    nullable_int64_fits h.transactionIndex
  have h4 : int64Column (row.toDict.item "log_index") = some row.logIndex :=
    int64Column_fits h.logIndex
  have h5 : nullable stringColumn (row.toDict.item "topic0") = some row.topic0 := nullable_text _
  have h6 : nullable stringColumn (row.toDict.item "topic1") = some row.topic1 := nullable_text _
  have h7 : nullable stringColumn (row.toDict.item "topic2") = some row.topic2 := nullable_text _
  have h8 : nullable stringColumn (row.toDict.item "topic3") = some row.topic3 := nullable_text _
  have h9 : nullable stringColumn (row.toDict.item "data_uint256_decimal_text") =
      some row.dataUint256DecimalText := nullable_text _
  have h10 : nullable boolColumn (row.toDict.item "removed") = some row.removed :=
    nullable_bool_some _
  have hconverts : ∃ s, arrowRow row.toDict = some s := by
    rw [arrowRow, h1, h2, h3, h4, h5, h6, h7, h8, h9, h10]
    exact ⟨_, rfl⟩
  obtain ⟨s, hs⟩ := hconverts
  rw [hs, arrowRow_toDict hs]

theorem opened_noFaults (h : StoreInvariant table) :
    existingRows noFaults table = .ok (storedRows table) := by
  cases table with
  | none => rfl
  | some t =>
    have hschema := h.schema t rfl
    simp [existingRows, noFaults, validateSchema, hschema, storedRows, Except.map]

theorem agrees_keyed (h : ∀ a ∈ logs, ∀ b ∈ logs, storedKey a = storedKey b → a = b) :
    Agrees [] (logs.map LogRow.toDict) := by
  constructor
  · intro dict hdict
    obtain ⟨row, -, rfl⟩ := List.mem_map.mp hdict
    rfl
  · intro a ha b hb hkey
    obtain ⟨row, hrow, rfl⟩ := List.mem_map.mp ha
    obtain ⟨row', hrow', rfl⟩ := List.mem_map.mp hb
    rw [h row hrow row' hrow' hkey]

theorem accepted_storable (hstore : StoreInvariant table) (hcanonical : ∀ row ∈ logs, CanonicalRow row)
    (hstorable : ∀ row ∈ logs, Storable row.toLogEvent)
    (hkeyed : ∀ a ∈ logs, ∀ b ∈ logs, storedKey a = storedKey b → a = b) :
    ∃ stored, Accepted noFaults (logs.map LogRow.toDict) table stored := by
  have hconverts : ∀ dict ∈ newRows table (logs.map LogRow.toDict), ∃ row, arrowRow dict = some row := by
    intro dict hdict
    have hsub : dict ∈ logs.map LogRow.toDict := (firsts_sublist rowKey _ _).mem hdict
    obtain ⟨row, hrow, rfl⟩ := List.mem_map.mp hsub
    exact ⟨row, arrowRow_storable (hstorable row hrow)⟩
  obtain ⟨added, hadded⟩ := mapM_exists hconverts
  refine ⟨_, rfl, rfl, ?_, agrees_keyed hkeyed, opened_noFaults hstore,
    ingest_eq_some_iff.mpr ⟨added, hadded, rfl⟩, .inl rfl⟩
  intro dict hdict
  obtain ⟨row, hrow, rfl⟩ := List.mem_map.mp hdict
  exact (hcanonical row hrow).valid

end EthereumLogs.DeltaWriter

namespace EthereumLogs.Pipeline
open Python Duckdb Effect Tiling Keyed LogNormalizer DeltaWriter Dbt BlockRange LogCollector

variable {ρ : Type} {client : EthereumClient ρ} {chain : Chain} {head : ℕ} {vars : DbtVars}
  {attempt : Attempt ρ} {range : IntervalBlockRange} {rawLogs : List RawLog} {s : ρ}

-- a provider may still refuse a range of several blocks as too large
structure Responsive (client : EthereumClient ρ) (chain : Chain) (head : ℕ) : Prop where
  chainId : ∀ s, (client.ethChainId s).1 = .ok chain.chainId
  finalized : ∀ s, ∃ block, (client.ethGetFinalizedBlock s).1 = .ok block ∧
    blockNumberFromPayload block = .ok head ∧ blockTimestampFromPayload block = .ok (chain.time head)
  lookup : ∀ n : ℕ, n ≤ head → ∀ s, Reports chain.time n (client.ethGetBlockByNumber n s).1
  logs : ∀ fromBlock toBlock : ℕ, fromBlock ≤ toBlock → toBlock ≤ head → ∀ s,
    (∃ answer, (client.ethGetLogs fromBlock toBlock none [transferTopic0] s).1 = .ok answer) ∨
      fromBlock ≠ toBlock ∧ ∃ e, (client.ethGetLogs fromBlock toBlock none [transferTopic0] s).1 =
        .error e ∧ e.isRetryableRpcError = true

theorem Responsive.unlimited (h : Responsive client chain head) :
    LimitedProvider client.toBlockLookupClient chain.time head 0 :=
  ⟨h.finalized, fun n _ hn s => h.lookup n hn s, fun n hn => absurd hn (Nat.not_lt_zero n)⟩

theorem Responsive.resolves (h : Responsive client chain head) {start stop : Instant}
    (hblock : ∃ n, start ≤ chain.time n ∧ chain.time n < stop) (hfinal : stop ≤ chain.time head)
    (s : ρ) : ∃ range, (resolveIntervalBlockRange client.toBlockLookupClient (.utc start) (.utc stop)
      s).1 = .ok range ∧ KnownBlocks head range := by
  obtain ⟨n, hn⟩ := hblock
  have hlt : start < stop := hn.1.trans_lt hn.2
  obtain ⟨block, hanswer, hnumber, htime⟩ := h.finalized s
  have hfin : Finalized client.toBlockLookupClient s (client.ethGetFinalizedBlock s).2 head
      (chain.time head) := ⟨block, Prod.ext hanswer rfl, hnumber, htime⟩
  have hordered : (Datetime.utc start).instant < (Datetime.utc stop).instant := by
    simpa only [instant_utc] using hlt
  have hresolve := resolve_eq (astimezone_utc_instant start) (astimezone_utc_instant stop) hordered hfin
  simp only [instant_utc] at hresolve
  rw [if_neg (not_lt.mpr hfinal)] at hresolve
  have hresult := h.unlimited.result chain.increasing (Nat.zero_le head) hlt hfinal
    (client.ethGetFinalizedBlock s).2
  rw [← hresolve] at hresult
  cases hr : (resolveIntervalBlockRange client.toBlockLookupClient (.utc start) (.utc stop) s).1 with
  | ok range =>
    have hfound := h.unlimited.trueOrRpcError.found chain.increasing hr
    have hhead := hfound.next.le_head
    have hlast := hfound.last
    exact ⟨range, rfl, hfound.first.nonneg, hfound.nonempty, by omega⟩
  | error e =>
    rw [hr] at hresult
    cases hresult with
    | window hshort => exact absurd hshort.1 (lt_irrefl 0)
    | empty _ hnone => exact absurd ⟨n, hn⟩ hnone

theorem Responsive.collects (h : Responsive client chain head) {scope : CollectionScope}
    (hscope : scope.validate = .ok ()) {maxBlocks : Int} (hmax : 1 ≤ maxBlocks)
    (hcap : maxBlocks ≤ maxBlocksPerLogRequest) (hknown : KnownBlocks head range) (s : ρ) :
    ∃ rawLogs, (collectRawLogs client.toLogRpcClient range.fromBlock range.toBlock scope maxBlocks
      s).1 = .ok rawLogs := by
  have hkeeps : Keeps client.toLogRpcClient scope (fun c r => 0 ≤ c.1 → c.1 ≤ c.2 → c.2 ≤ head →
      ∀ e, r = .error e → c.1 ≠ c.2 ∧ e.isRetryableRpcError = true) := by
    intro fromBlock toBlock s hlo hle hhead e he
    rw [(scope.validate_ok_iff).mp hscope] at he
    lift fromBlock to ℕ using hlo
    lift toBlock to ℕ using by omega
    rcases h.logs fromBlock toBlock (by omega) (by omega) s with ⟨answer, hok⟩ | ⟨hne, e', he', hretry⟩
    · exact absurd (hok.symm.trans he) (by simp)
    · cases he'.symm.trans he
      exact ⟨by simpa using hne, hretry⟩
  have hsim := collectRawLogs_simulates (recorded_simulates client.toLogRpcClient) range.fromBlock
    range.toBlock scope maxBlocks s (s, []) rfl
  obtain ⟨calls, -, hspec⟩ := collectRawLogs_spec hkeeps hscope hknown.nonneg hknown.ordered hmax hcap
    s []
  rw [← hsim.1] at hspec
  cases hr : (collectRawLogs client.toLogRpcClient range.fromBlock range.toBlock scope maxBlocks s).1
    with
  | ok rawLogs => exact ⟨rawLogs, rfl⟩
  | error e =>
    obtain ⟨earlier, c, err, rfl, hcase⟩ := hspec.stopped e hr
    have hmem : (c, Except.error err) ∈ earlier ++ [(c, .error err)] := by simp
    obtain ⟨hlo, hle, hhi, -⟩ := hspec.inside _ hmem
    have hnonneg := hknown.nonneg
    have hhead := hknown.known
    obtain ⟨hne, hretry⟩ := hspec.kept _ hmem (by omega) hle (by omega) err rfl
    rcases hcase with ⟨-, hsingle, -⟩ | ⟨hnot, -⟩
    · exact absurd hsingle hne
    · rw [hretry] at hnot
      cases hnot

theorem Responsive.timestamps (h : Responsive client chain head) {numbers : List Int}
    (hnumbers : ∀ n ∈ numbers, 0 ≤ n ∧ n ≤ head) (s : ρ) : ∃ timestamps,
      (lookupTimestamps client numbers s).1 = .ok timestamps ∧
        ∀ n ∈ numbers, timestamps n = blockTruth chain n := by
  induction numbers generalizing s with
  | nil => exact ⟨_, rfl, by simp⟩
  | cons n numbers ih =>
    obtain ⟨h0, hle⟩ := hnumbers n (by simp)
    obtain ⟨block, hblock, htime⟩ : Reports chain.time n (client.ethGetBlockByNumber n s).1 := by
      lift n to ℕ using h0
      exact h.lookup n (by omega) s
    have hrun : client.ethGetBlockByNumber n s = (.ok block, (client.ethGetBlockByNumber n s).2) :=
      Prod.ext hblock rfl
    obtain ⟨timestamps, hrest, htrue⟩ := ih (fun k hk => hnumbers k (by simp [hk]))
      (client.ethGetBlockByNumber n s).2
    have hrestRun := Prod.ext (x := lookupTimestamps client numbers
      (client.ethGetBlockByNumber n s).2) (y := (.ok timestamps, _)) hrest rfl
    rw [lookupTimestamps, Eff.bind_of_ok hrun, htime, Eff.ofExcept_ok_bind, Eff.bind_of_ok hrestRun]
    refine ⟨_, rfl, fun k hk => ?_⟩
    by_cases he : k = n
    · rw [if_pos he, he, blockTruth, if_pos h0]
    · rw [if_neg he]
      exact htrue k ((List.mem_cons.mp hk).resolve_left he)

structure Fetchable (chain : Chain) (head : ℕ) (attempt : Attempt ρ) : Prop where
  sameChain : chain.chainId = attempt.settings.chainId
  scope : attempt.settings.collectionScope.validate = .ok ()
  chunks : 1 ≤ attempt.settings.maxBlocksPerLogRequest ∧
    attempt.settings.maxBlocksPerLogRequest ≤ maxBlocksPerLogRequest
  block : ∃ n, attempt.start ≤ chain.time n ∧ chain.time n < attempt.stop
  finalized : attempt.stop ≤ chain.time head

section Fetching

variable {σ : Type} {client : EthereumClient σ}

theorem Fetchable.fetches (hclient : Honest client chain) (hup : Responsive client chain head)
    (h : Fetchable chain head attempt) (s : σ) :
    ∃ fetched, (fetchLogs client attempt.settings attempt.start attempt.stop s).1 = .ok fetched ∧
      KnownLogs chain head fetched.rawLogs ∧ ∃ numbers, blockNumbers fetched.rawLogs = .ok numbers ∧
        ∀ n ∈ numbers, fetched.blockTimestamps n = blockTruth chain n := by
  have hchain : client.ethChainId s = (.ok chain.chainId, (client.ethChainId s).2) :=
    Prod.ext (hup.chainId s) rfl
  rw [fetchLogs, Eff.bind_of_ok hchain, if_neg (not_not.mpr h.sameChain)]
  generalize (client.ethChainId s).2 = s1
  obtain ⟨range, hrange, hknown⟩ := hup.resolves h.block h.finalized s1
  rcases hresolve : resolveIntervalBlockRange client.toBlockLookupClient (.utc attempt.start)
    (.utc attempt.stop) s1 with ⟨r, s2⟩
  rw [hresolve] at hrange
  cases hrange
  rw [Eff.bind_of_ok hresolve]
  obtain ⟨rawLogs, hlogs⟩ := hup.collects h.scope h.chunks.1 h.chunks.2 hknown s2
  have hperm := hclient.collected hlogs
  rcases hcollect : collectRawLogs client.toLogRpcClient range.fromBlock range.toBlock
    attempt.settings.collectionScope attempt.settings.maxBlocksPerLogRequest s2 with ⟨r, s3⟩
  rw [hcollect] at hlogs
  cases hlogs
  rw [Eff.bind_of_ok hcollect]
  have hknownLogs := knownLogs_of_perm hknown hperm
  obtain ⟨numbers, hnumbers, hbounds⟩ := knownLogs_numbers hknownLogs
  obtain ⟨timestamps, htimestamps, htrue⟩ := hup.timestamps
    (fun n hn => hbounds n (mem_sortedSet.mp hn)) s3
  have hload : loadBlockTimestamps client rawLogs s3 =
      (.ok timestamps, (lookupTimestamps client (sortedSet numbers) s3).2) := by
    rw [loadBlockTimestamps, hnumbers, Eff.ofExcept_ok_bind]
    exact Prod.ext htimestamps rfl
  rw [Eff.bind_of_ok hload]
  exact ⟨_, rfl, hknownLogs, numbers, hnumbers, fun n hn => htrue n (mem_sortedSet.mpr hn)⟩

theorem Fetchable.prepares (hclient : Honest client chain) (hup : Responsive client chain head)
    (h : Fetchable chain head attempt) (s : σ) :
    ∃ prepared, (prepareRows client (attempt.interval vars) s).1 = .ok prepared := by
  obtain ⟨n, hn⟩ := h.block
  have hlt : attempt.start < attempt.stop := hn.1.trans_lt hn.2
  have hbounds : normalizeIntervalBounds (attempt.interval vars).startUtc
      (attempt.interval vars).endUtc = .ok (attempt.start, attempt.stop) := by
    change normalizeIntervalBounds (.utc attempt.start) (.utc attempt.stop) = _
    simp only [normalizeIntervalBounds, astimezone_utc]
    change (if attempt.start ≥ attempt.stop then _ else _) = _
    rw [if_neg (not_le.mpr hlt)]
  obtain ⟨fetched, hfetched, hknown, numbers, hnumbers, htrue⟩ := h.fetches hclient hup s
  have hfetch : fetchLogs client (attempt.interval vars).settings attempt.start attempt.stop s =
      (.ok fetched, (fetchLogs client attempt.settings attempt.start attempt.stop s).2) :=
    Prod.ext hfetched rfl
  obtain ⟨range, rawLogs, timestamps⟩ := fetched
  obtain ⟨rows, hrows⟩ : ∃ rows, normalizeFetched (attempt.interval vars).settings
      (attempt.interval vars).startUtc.instant (attempt.interval vars).endUtc.instant
      (attempt.interval vars).now ⟨range, rawLogs, timestamps⟩ = _ :=
    normalizeFetched_eq hnumbers htrue
  have haccepted : rejectedCount (attempt.interval vars) (blockTruth chain) rawLogs = 0 :=
    knownLogs_accepted h.sameChain hknown
  rw [haccepted, if_neg (lt_irrefl 0)] at hrows
  have hstart : (attempt.interval vars).startUtc.instant = attempt.start := instant_utc _
  have hstop : (attempt.interval vars).endUtc.instant = attempt.stop := instant_utc _
  rw [hstart, hstop] at hrows
  rw [prepareRows, hbounds, Eff.ofExcept_ok_bind]
  dsimp only
  rw [Eff.bind_of_ok hfetch, hrows]
  exact ⟨_, rfl⟩

end Fetching

-- the provider answers from here on; in the states of earlier attempts it may have failed
def Answering (client : EthereumClient ρ) (chain : Chain) (head : ℕ) (s : ρ) : Prop :=
  ∃ (up : ρ → Prop) (stays : StaysIn client up), up s ∧ Responsive stays.restricted chain head

structure Ready (client : EthereumClient ρ) (chain : Chain) (head : ℕ) (attempt : Attempt ρ) : Prop
    extends Fetchable chain head attempt where
  answering : Answering client chain head attempt.rpc
  store : attempt.faults = noFaults
  dbt : Healthy attempt.process

theorem StaysIn.honest {up : ρ → Prop} (stays : StaysIn client up) (h : Honest client chain) :
    Honest stays.restricted chain where
  chainId s := h.chainId s.1
  finalized s := h.finalized s.1
  lookup n s := h.lookup n s.1
  logs fromBlock toBlock s := h.logs fromBlock toBlock s.1

theorem Ready.prepares (hclient : Honest client chain) (h : Ready client chain head attempt) :
    ∃ prepared, (prepareRows client (attempt.interval vars) attempt.rpc).1 = .ok prepared := by
  obtain ⟨up, stays, hs, hup⟩ := h.answering
  obtain ⟨prepared, hprepared⟩ : ∃ prepared, (prepareRows stays.restricted (attempt.interval vars)
      ⟨attempt.rpc, hs⟩).1 = .ok prepared := h.toFetchable.prepares (stays.honest hclient) hup _
  have hsame := (prepareRows_simulates stays.simulates (attempt.interval vars) ⟨attempt.rpc, hs⟩
    attempt.rpc rfl).1
  exact ⟨prepared, hsame ▸ hprepared⟩

theorem finishRun_isOk {ω : Type} (interval : Interval ω) (prepared : Prepared)
    (deltaResult : DeltaWriteResult) (w : World ρ ω) :
    (finishRun interval prepared deltaResult w).1.isOk = (interval.dbtRunner interval.settings
      prepared.start prepared.stop w.delta w.warehouse).1.isOk := by
  rw [finishRun_run]
  exact map_isOk _ _

theorem Chain.provider_responsive (h : chain.WholeSeconds head) :
    Responsive (chain.provider head) chain head := by
  refine ⟨fun s => rfl, fun s => ⟨chain.payload head, rfl, chain.payload_number head,
    chain.payload_timestamp h le_rfl⟩, ?_, fun _ _ _ _ _ => .inl ⟨_, rfl⟩⟩
  intro n hn s
  refine ⟨chain.payload n, ?_, chain.payload_timestamp h hn⟩
  simp only [Chain.provider]
  rw [if_pos (by omega), Int.toNat_natCast]
  rfl

def Chain.Storable (chain : Chain) : Prop :=
  ∀ n, ∀ l ∈ chain.logs n, ∀ event, chain.event l = .ok event → DeltaWriter.Storable event

theorem Landed.accepted {ω : Type} {interval : Interval ω} {rows : List LogRow}
    {table : Option DeltaTable} (h : Landed chain interval rows) (hstorable : chain.Storable)
    (hstore : StoreInvariant table) : ∃ stored, Accepted noFaults (rows.map LogRow.toDict) table stored := by
  apply accepted_storable hstore
  · intro row hrow
    obtain ⟨n, l, -, -, hnormal⟩ := h.sound row hrow
    exact Normalized.canonicalRow ⟨_, _, _, _, _, _, hnormal⟩
  · intro row hrow
    obtain ⟨n, l, hl, -, hnormal⟩ := h.sound row hrow
    exact hstorable n l hl _ (row_event hnormal)
  · intro a ha b hb hkey
    obtain ⟨n, l, hl, -, hnormal⟩ := h.sound a ha
    obtain ⟨n', l', hl', -, hnormal'⟩ := h.sound b hb
    obtain ⟨hhash, hindex⟩ := storedKey_inj hkey
    obtain ⟨-, rfl⟩ := chain.unique n n' l l' _ _ hl hl' (row_event hnormal) (row_event hnormal')
      hhash hindex
    exact Except.ok.inj (hnormal.symm.trans hnormal')

theorem totalsFit_unstamped {window : Window} {transfers : List Erc20Transfer} :
    TotalsFit vars window (transfers.map unstamped) ↔ TotalsFit vars window transfers := by
  refine forall₂_congr fun key _ => ?_
  have hrows : (transfersOf (transfers.map unstamped) key).filter
      (fun t => window.Contains t.blockTimestampUtc) = ((transfersOf transfers key).filter
        fun t => window.Contains t.blockTimestampUtc).map unstamped := by
    rw [← transfersOf_unstamped, List.filter_map]
    rfl
  rw [hrows, sumRaw_unstamped]

theorem ExactlyOnce.totalsFit {committed : List (Interval Warehouse)} {raw : List LogRow}
    {window : Window} (h : ExactlyOnce chain committed raw) (hraw : RawContract raw)
    (hwindow : Commits committed window) : TotalsFit vars window (raw.filterMap (transferOf vars)) ↔
      TotalsFit vars window (chain.transfersIn vars window) := by
  have hdecoded : List.Perm _ (chain.transfersIn vars window) := h.decoded hraw hwindow
  have hperm := hdecoded.filter fun t => window.Contains t.blockTimestampUtc
  rw [← TotalsFit.of_perm hperm, totalsFit_unstamped, transfers_window]
  refine TotalsFit.of_perm (List.Perm.of_eq ?_)
  rw [List.filter_filter]
  simp only [Bool.and_self]

theorem analysable_unstamped {transfer : Erc20Transfer} :
    Analysable vars (unstamped transfer) ↔ Analysable vars transfer :=
  ⟨fun h => ⟨h.word, h.fits⟩, fun h => ⟨h.word, h.fits⟩⟩

variable {committed committed' : List (Interval Warehouse)} {w : World ρ Warehouse}

theorem ExactlyOnce.analysable_iff {raw : List LogRow} {window : Window}
    (h : ExactlyOnce chain committed raw) (hwindow : Commits committed window) :
    (∀ row ∈ raw, window.Contains row.blockTimestampUtc → ∀ transfer,
        transferOf vars row = some transfer → Analysable vars transfer) ↔
      ∀ transfer ∈ chain.transfersIn vars window, Analysable vars transfer := by
  constructor
  · intro hrows transfer ht
    obtain ⟨row, hrow, hcontains, hdecoded⟩ := (h.transfers hwindow).mpr ht
    obtain ⟨transfer', hdecoded', rfl⟩ := Option.map_eq_some_iff.mp hdecoded
    exact analysable_unstamped.mpr (hrows row hrow hcontains transfer' hdecoded')
  · intro htransfers row hrow hcontains transfer hdecoded
    have ht : unstamped transfer ∈ chain.transfersIn vars window :=
      (h.transfers hwindow).mp ⟨row, hrow, hcontains, by rw [hdecoded]; rfl⟩
    exact analysable_unstamped.mp (htransfers _ ht)

theorem Ready.completes_eq (hready : Ready client chain head attempt) {prepared : Prepared}
    (hprepare : (prepareRows client (attempt.interval vars) attempt.rpc).1 = .ok prepared)
    {stored : List LogRow} (haccepted : Accepted attempt.faults prepared.rows w.delta stored) :
    completes client vars attempt w = (runDbtBuild vars attempt.process attempt.settings attempt.start
      attempt.stop (some (DeltaWriter.committed w.delta stored)) w.warehouse).1.isOk := by
  have hprepared := prepareRows_ok hprepare
  have hstart : prepared.start = attempt.start := hprepared.start.trans (instant_utc _)
  have hstop : prepared.stop = attempt.stop := hprepared.stop.trans (instant_utc _)
  have hrun : prepareRows client (attempt.interval vars) attempt.rpc =
      (.ok prepared, (prepareRows client (attempt.interval vars) attempt.rpc).2) :=
    Prod.ext hprepare rfl
  have hfaults : (attempt.interval vars).faults = attempt.faults := rfl
  have hcounting : attempt.faults.counting = false := by
    rw [hready.store]
    rfl
  have hwrite := write_accepted haccepted
  rw [writeResult, hcounting, if_neg Bool.false_ne_true] at hwrite
  rw [completes, Attempt.run, runInterval, hfaults,
    Eff.bind_of_ok (onRpc_eq (w := { w with rpc := attempt.rpc }) hrun)]
  dsimp only
  rw [Eff.bind_of_ok (onDelta_eq (w := { w with rpc := (prepareRows client (attempt.interval vars)
    attempt.rpc).2 }) hwrite), finishRun_isOk, hstart, hstop]
  rfl

theorem Ready.completes_iff (hclient : Honest client chain) (hmainnet : chain.chainId = 1)
    (hstorable : chain.Storable) (hready : Ready client chain head attempt)
    (haligned : AlignedHour attempt.window) (h : PipelineInvariant chain vars committed w)
    (hsummary : SummaryInvariant chain vars committed' w) :
    completes client vars attempt w = true ↔ vars.usdtDecimals ≤ 38 ∧
      (∀ transfer ∈ w.warehouse.transfers, Analysable vars transfer) ∧
      (∀ transfer ∈ chain.transfersIn vars attempt.window, Analysable vars transfer) ∧
      TotalsFit vars attempt.window (chain.transfersIn vars attempt.window) := by
  obtain ⟨prepared, hprepare⟩ : ∃ prepared,
      (prepareRows client (attempt.interval vars) attempt.rpc).1 = .ok prepared :=
    hready.prepares hclient
  have hprepared := prepareRows_ok hprepare
  have hlanded := hclient.landed hprepared
  obtain ⟨stored, haccepted⟩ := hlanded.accepted hstorable h.store
  have haccepted' : Accepted (attempt.interval vars).faults prepared.rows w.delta stored := by
    change Accepted attempt.faults _ _ _
    rw [hready.store]
    exact haccepted
  have hstored := h.ingested.commit hlanded haccepted'
  have hcommitted : SilverInvariant vars ⟨some (DeltaWriter.committed w.delta stored), w.warehouse⟩ :=
    h.toSilverInvariant.commit hprepared.lowered haccepted'
  have htables : TablesContract vars (some (DeltaWriter.committed w.delta stored)) w.warehouse :=
    ⟨hcommitted.contract, fun row hrow => (hstored.canonical row hrow).1,
      fun row hrow => (hstored.canonical row hrow).2.trans hmainnet, hcommitted.sound, h.gold⟩
  have hwindow : Commits (committed ++ [attempt.interval vars]) attempt.window :=
    ⟨attempt.interval vars, by simp, instant_utc _, instant_utc _⟩
  have hrows := hsummary.hourRows.accepted hclient.timed
    (withinHour_aligned haligned attempt.rpc) hprepare haccepted'
  have htotals : TotalsFit vars attempt.window _ ↔ _ := hstored.totalsFit htables.raw hwindow
  have hshown : TotalsFit vars attempt.window _ → SummaryFits vars.usdtDecimals attempt.window _ :=
    fun hfit => summaryFits_hour htables haligned hrows hsummary.sourced hsummary.fits hfit
      attempt.process.now
  rw [hready.completes_eq hprepare haccepted', htables.build_isOk_iff hready.dbt,
    rebuilt_forall htables.raw htables.silver, Option.isSome_some, eq_self_iff_true, true_and, and_assoc]
  exact and_congr_right' (and_congr_right' (and_congr (hstored.analysable_iff hwindow)
    ((and_iff_left_of_imp hshown).trans htotals)))

theorem depositInBlockSeven_storable : depositInBlockSeven.Storable := by
  intro n l hl event hevent
  obtain ⟨rfl, rfl⟩ := mem_loneLog.mp hl
  have hfields : (normalizeEvent (depositLog 7) (trueTimestamps everyTenMinutes) 1).map
      (fun e => (e.chainId, e.blockNumber, e.transactionIndex, e.logIndex)) = .ok (1, 7, none, 0) := by
    decide +kernel
  obtain ⟨event', hevent', hsame⟩ := except_map_ok hfields
  cases hevent'.symm.trans hevent
  simp only [Prod.mk.injEq] at hsame
  obtain ⟨hchain, hblock, hindex, hlog⟩ := hsame
  refine ⟨?_, ?_, ?_, ?_⟩
  · rw [hchain]
    exact ⟨by decide, by decide⟩
  · rw [hblock]
    exact ⟨by decide, by decide⟩
  · rw [hindex]
    exact fun i hi => nomatch hi
  · rw [hlog]
    exact ⟨by decide, by decide⟩

def outage : Exc := .rpc (.retryable .base ⟨"eth_chainId", "service unavailable", true, none, some 503⟩)

def whenUp {α : Type} (m : Action Unit α) : Action Bool α := fun up =>
  if up then ((m ()).1, true) else (.error outage, false)

def unsteadyProvider : EthereumClient Bool where
  ethGetBlockByNumber n := whenUp (depositProvider.ethGetBlockByNumber n)
  ethGetFinalizedBlock := whenUp depositProvider.ethGetFinalizedBlock
  ethGetLogs fromBlock toBlock address topics :=
    whenUp (depositProvider.ethGetLogs fromBlock toBlock address topics)
  ethChainId := whenUp depositProvider.ethChainId

theorem whenUp_ok {α : Type} {m : Action Unit α} {up : Bool} {a : α} (h : (whenUp m up).1 = .ok a) :
    (m ()).1 = .ok a := by
  cases up with
  | false => cases h
  | true => exact h

theorem whenUp_stays {α : Type} (m : Action Unit α) (up : Bool) (h : up = true) :
    (whenUp m up).2 = true := by
  rw [h]
  rfl

theorem unsteadyProvider_honest : Honest unsteadyProvider depositInBlockSeven where
  chainId _ _ h := depositProvider_honest.chainId () _ (whenUp_ok h)
  finalized _ _ h := depositProvider_honest.finalized () _ (whenUp_ok h)
  lookup n _ _ h := depositProvider_honest.lookup n () _ (whenUp_ok h)
  logs fromBlock toBlock _ _ hle h :=
    depositProvider_honest.logs fromBlock toBlock () _ hle (whenUp_ok h)

theorem unsteadyProvider_stays : StaysIn unsteadyProvider (· = true) where
  chainId := whenUp_stays _
  number _ := whenUp_stays _
  finalized := whenUp_stays _
  logs _ _ _ _ := whenUp_stays _

theorem unsteadyProvider_answering : Answering unsteadyProvider depositInBlockSeven 24 true := by
  have hanswers : Responsive depositProvider depositInBlockSeven 24 :=
    Chain.provider_responsive (chainOf_wholeSeconds _ _ (by decide))
  refine ⟨(· = true), unsteadyProvider_stays, rfl, ?_, ?_, ?_, ?_⟩
  · rintro ⟨_, rfl⟩
    exact hanswers.chainId ()
  · rintro ⟨_, rfl⟩
    exact hanswers.finalized ()
  · rintro n hn ⟨_, rfl⟩
    exact hanswers.lookup n hn ()
  · rintro fromBlock toBlock hle hhead ⟨_, rfl⟩
    exact hanswers.logs fromBlock toBlock hle hhead ()

def unsteadyAttempt (up : Bool) (failing : DbtNode → Bool) : Attempt Bool where
  toRunInputs := (depositAttempt failing).toRunInputs
  start := minutes 60
  stop := minutes 120
  rpc := up

theorem unsteadyAttempt_ready :
    Ready unsteadyProvider depositInBlockSeven 24 (unsteadyAttempt true fun _ => false) where
  sameChain := rfl
  scope := by decide
  chunks := by decide
  block := ⟨7, by decide, by decide⟩
  finalized := by decide
  answering := unsteadyProvider_answering
  store := rfl
  dbt := ⟨rfl, fun _ => rfl, rfl⟩

def unsteadyHour (up : Bool) (failing : DbtNode → Bool) : HourlyAttempt Bool :=
  ⟨unsteadyAttempt up failing, depositAttempt_aligned⟩

def failedTwice : List (HourlyAttempt Bool) :=
  [unsteadyHour false fun _ => false, unsteadyHour true (· = .erc20Transfers)]

structure AnalysableChain (chain : Chain) (vars : DbtVars) : Prop where
  storable : chain.Storable
  decimals : vars.usdtDecimals ≤ 38
  transfers : ∀ window, ∀ transfer ∈ chain.transfersIn vars window, Analysable vars transfer
  totals : ∀ window, TotalsFit vars window (chain.transfersIn vars window)

theorem AnalysableChain.silver (hchain : AnalysableChain chain vars)
    (h : ChainInvariant chain vars committed w) :
    ∀ transfer ∈ w.warehouse.transfers, Analysable vars transfer := fun _ ht =>
  analysable_unstamped.mp (hchain.transfers _ _ (h.genuine ht))

theorem AnalysableChain.completes (hchain : AnalysableChain chain vars)
    (hclient : Honest client chain) (hmainnet : chain.chainId = 1)
    (hready : Ready client chain head attempt) (haligned : AlignedHour attempt.window)
    (h : PipelineInvariant chain vars committed w)
    (hsummary : SummaryInvariant chain vars committed' w) :
    completes client vars attempt w = true :=
  (hready.completes_iff hclient hmainnet hchain.storable haligned h hsummary).mpr
    ⟨hchain.decimals, hchain.silver h.toChainInvariant, hchain.transfers _, hchain.totals _⟩

theorem depositInBlockSeven_transfers : ∃ deposit : Erc20Transfer,
    (∀ window, ∀ transfer ∈ depositInBlockSeven.transfersIn projectVars window, transfer = deposit) ∧
      matchesHexWord 64 deposit.dataRaw = true ∧
      deposit.amountNumericStatus = uint256StatusDecimal38Available ∧
      sumRaw [deposit] < 2 ^ 127 := by
  have hchecked : ((normalizeEvent (depositLog 7) (trueTimestamps everyTenMinutes) 1).toOption.bind
      fun event => transferOf projectVars ⟨event, 0, 0, 0⟩).map
        (fun t => (matchesHexWord 64 t.dataRaw, t.amountNumericStatus, decide (sumRaw [t] < 2 ^ 127))) =
      some (true, uint256StatusDecimal38Available, true) := by
    decide +kernel
  obtain ⟨deposit, hdeposit, hcolumns⟩ := Option.map_eq_some_iff.mp hchecked
  simp only [Prod.mk.injEq, decide_eq_true_eq] at hcolumns
  refine ⟨deposit, ?_, hcolumns⟩
  intro window transfer ht
  obtain ⟨event, hevent, hdecoded⟩ := List.mem_filterMap.mp ht
  obtain ⟨n, l, hl, -, hok⟩ := Chain.mem_eventsIn.mp hevent
  obtain ⟨rfl, rfl⟩ := mem_loneLog.mp hl
  change normalizeEvent (depositLog 7) (trueTimestamps everyTenMinutes) 1 = .ok event at hok
  rw [hok] at hdeposit
  exact Option.some.inj (hdecoded.symm.trans hdeposit)

theorem depositInBlockSeven_analysable : AnalysableChain depositInBlockSeven projectVars := by
  obtain ⟨deposit, hlone, hword, hstatus, hsum⟩ := depositInBlockSeven_transfers
  refine ⟨depositInBlockSeven_storable, by decide, ?_, ?_⟩
  · intro window transfer ht
    rw [hlone window transfer ht]
    exact ⟨hword, fun _ => hstatus⟩
  · intro window key _
    have hkeys : (depositInBlockSeven.transfersIn projectVars window).Nodup :=
      (depositInBlockSeven.transfersIn_keys projectVars window).of_map
    have hnodup := (hkeys.filter fun t => Belongs key t).filter
      fun t => window.Contains t.blockTimestampUtc
    have hsame : ∀ t ∈ (transfersOf (depositInBlockSeven.transfersIn projectVars window) key).filter
        (fun t => window.Contains t.blockTimestampUtc), t = deposit := fun t ht =>
      hlone window t (List.mem_of_mem_filter (List.mem_of_mem_filter ht))
    change ((transfersOf (depositInBlockSeven.transfersIn projectVars window) key).filter
      fun t => window.Contains t.blockTimestampUtc).Nodup at hnodup
    generalize (transfersOf (depositInBlockSeven.transfersIn projectVars window) key).filter
      (fun t => window.Contains t.blockTimestampUtc) = rows at hnodup hsame
    match rows with
    | [] => exact by decide +kernel
    | [t] => rwa [hsame t (by simp)]
    | t :: t' :: rows =>
      have heq : t = t' := (hsame t (by simp)).trans (hsame t' (by simp)).symm
      simp [heq] at hnodup

end EthereumLogs.Pipeline
