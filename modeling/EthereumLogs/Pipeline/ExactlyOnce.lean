import EthereumLogs.Pipeline.Runs
import EthereumLogs.BlockRange.Outcome
import Mathlib.Tactic.IntervalCases

namespace EthereumLogs.Pipeline
open Python Effect Tiling Keyed LogNormalizer DeltaWriter BlockRange

variable {ρ ω : Type}

def trueTimestamps (time : ℕ → Instant) (n : Int) : Option Datetime :=
  if 0 ≤ n then some (.utc (timeAt time n)) else none

structure Chain where
  chainId : Int
  time : ℕ → Instant
  logs : ℕ → List RawLog
  increasing : StrictMono time
  wellFormed : ∀ n, ∀ l ∈ logs n, ∃ event,
    normalizeEvent l (trueTimestamps time) chainId = .ok event ∧ event.blockNumber = n
  unique : ∀ n n' l l' event event', l ∈ logs n → l' ∈ logs n' →
    normalizeEvent l (trueTimestamps time) chainId = .ok event →
    normalizeEvent l' (trueTimestamps time) chainId = .ok event' →
    event.transactionHash = event'.transactionHash → event.logIndex = event'.logIndex →
    n = n' ∧ l = l'

namespace Chain

def timestamps (chain : Chain) : Int → Option Datetime := trueTimestamps chain.time

def logsAt (chain : Chain) (n : Int) : List RawLog := chain.logs n.toNat

def event (chain : Chain) (l : RawLog) : Except Exc LogEvent :=
  normalizeEvent l chain.timestamps chain.chainId

def row (chain : Chain) (interval : Interval ω) (l : RawLog) : Except Exc LogRow :=
  normalizeLog l chain.timestamps chain.chainId (.utc interval.startUtc.instant)
    (.utc interval.endUtc.instant) (.utc interval.now)

def InWindow (chain : Chain) (interval : Interval ω) (n : ℕ) : Prop :=
  interval.startUtc.instant ≤ chain.time n ∧ chain.time n < interval.endUtc.instant

end Chain

structure Honest (client : EthereumClient ρ) (chain : Chain) : Prop where
  chainId : ∀ s c, (client.ethChainId s).1 = .ok c → c = chain.chainId
  finalized : ∀ s block, (client.ethGetFinalizedBlock s).1 = .ok block → ∃ head : ℕ,
    blockNumberFromPayload block = .ok head ∧ blockTimestampFromPayload block = .ok (chain.time head)
  lookup : ∀ (n : ℕ) s block, (client.ethGetBlockByNumber n s).1 = .ok block →
    blockTimestampFromPayload block = .ok (chain.time n)
  logs : ∀ (fromBlock toBlock : ℕ) s answer, fromBlock ≤ toBlock →
    (client.ethGetLogs fromBlock toBlock none [transferTopic0] s).1 = .ok answer →
    answer.Perm ((span fromBlock (toBlock + 1)).flatMap chain.logsAt)

def BlockOf (l : RawLog) (n : Int) : Prop :=
  ∃ v text, l.get "blockNumber" = some v ∧ v.asStr = some text ∧ int16 text = .ok n

structure Timed (client : EthereumClient ρ) (time : ℕ → Instant) : Prop where
  increasing : StrictMono time
  finalized : ∀ s block, (client.ethGetFinalizedBlock s).1 = .ok block → ∃ head : ℕ,
    blockNumberFromPayload block = .ok head ∧ blockTimestampFromPayload block = .ok (time head)
  lookup : ∀ (n : ℕ) s block, (client.ethGetBlockByNumber n s).1 = .ok block →
    blockTimestampFromPayload block = .ok (time n)
  logs : ∀ (fromBlock toBlock : ℕ) s answer, fromBlock ≤ toBlock →
    (client.ethGetLogs fromBlock toBlock none [transferTopic0] s).1 = .ok answer →
    ∀ l ∈ answer, ∀ n, BlockOf l n → fromBlock ≤ n ∧ n ≤ toBlock

variable {client : EthereumClient ρ} {chain : Chain} {interval : Interval ω} {time : ℕ → Instant}

theorem Timed.found (h : Timed client time) {start stop : Instant} {s : ρ}
    {range : IntervalBlockRange}
    (hok : (resolveIntervalBlockRange client.toBlockLookupClient (.utc start) (.utc stop) s).1 =
      .ok range) :
    ∃ head : ℕ, Found time head start stop range := by
  have hanswers : ∀ t number ts, Finalized client.toBlockLookupClient s t number ts →
      0 ≤ number ∧ ts = timeAt time number ∧ ∃ refusal,
        Answers client.toBlockLookupClient time number (fun _ => True) refusal := by
    rintro t number ts ⟨block, hblock, hnumber, hts⟩
    obtain ⟨head, hnumber', hts'⟩ := h.finalized s block (by rw [hblock])
    rw [hnumber] at hnumber'
    rw [hts] at hts'
    cases hnumber'
    cases hts'
    refine ⟨by omega, rfl, fun _ _ => True, ?_⟩
    constructor
    intro n hn _ u
    lift n to ℕ using hn
    cases hlookup : (client.ethGetBlockByNumber n u).1 with
    | ok block => exact .inl ⟨⟨block, rfl, h.lookup n u block hlookup⟩, trivial⟩
    | error e => exact .inr ⟨e, rfl, trivial⟩
  obtain ⟨t, number, ts, hfin, hfound⟩ := resolve_found h.increasing hanswers hok
  obtain ⟨h0, -⟩ := hanswers t number ts hfin
  lift number to ℕ using h0
  exact ⟨number, by simpa using hfound⟩

theorem Timed.collected (h : Timed client time) {fromBlock toBlock maxBlocks : Int}
    {scope : CollectionScope} {s : ρ} {logs : List RawLog}
    (hok : (collectRawLogs client.toLogRpcClient fromBlock toBlock scope maxBlocks s).1 = .ok logs) :
    ∀ l ∈ logs, ∀ n, BlockOf l n → fromBlock ≤ n ∧ n ≤ toBlock := by
  obtain ⟨_, hscope, -⟩ := Eff.ofExcept_bind_ok hok
  rw [(scope.validate_ok_iff).mp hscope] at hok
  have hkeeps : LogCollector.Keeps client.toLogRpcClient (.defaultTransferTopicAllAddresses 1)
      (fun range r => 0 ≤ range.1 → range.1 ≤ range.2 → ∀ answer, r = .ok answer →
        ∀ l ∈ answer, ∀ n, BlockOf l n → range.1 ≤ n ∧ n ≤ range.2) := by
    intro a b u ha hab answer hanswer
    lift a to ℕ using ha
    lift b to ℕ using by omega
    exact h.logs a b u answer (by omega) hanswer
  obtain ⟨-, h0, answered, htiles, rfl, hanswered⟩ := LogCollector.collectRawLogs_ok hkeeps hok
  intro l hl n hn
  obtain ⟨c, hc, hmem⟩ := List.mem_flatMap.mp hl
  obtain ⟨hlo, hordered, hpromise⟩ := hanswered c hc
  obtain ⟨hge, hle⟩ := hpromise (by omega) hordered c.2 rfl l hmem n hn
  have hlast : c.1.2 < toBlock + 1 := (htiles.bounds hc).2
  omega

theorem Timed.rows (h : Timed client time) {prepared : Prepared}
    (hp : PreparedFrom client interval prepared) : ∀ row ∈ prepared.normalized.rows,
      interval.startUtc.instant ≤ row.blockTimestampUtc ∧
        row.blockTimestampUtc < interval.endUtc.instant := by
  intro row hrow
  obtain ⟨s2, hrange⟩ := hp.fetched.range
  obtain ⟨s3, hlogs⟩ := hp.fetched.logs
  obtain ⟨numbers, -, hlookup⟩ := hp.fetched.numbers
  obtain ⟨head, hfound⟩ := h.found hrange
  obtain ⟨l, hl, hnormal⟩ := forall₂_right hp.normalized hrow
  have hfrom := normalizeEvent_from (normalizeLog_ok hnormal).1
  have hbounds := h.collected hlogs l hl _ hfrom.blockNumber
  have hcovers := hfound.covers.blocks row.blockNumber.toNat
  have h0 := hfound.first.nonneg
  rw [Int.toNat_of_nonneg (by omega), hp.start, hp.stop] at hcovers
  have hstamp := hfrom.timestamp
  rw [blockTimestampOf] at hstamp
  cases hknown : prepared.fetched.blockTimestamps row.blockNumber with
  | none =>
    rw [timestampsOf, hknown] at hstamp
    cases hstamp
  | some t =>
    rw [timestampsOf, hknown] at hstamp
    have hsame : t = row.blockTimestampUtc := by
      simpa only [Option.map_some, LogNormalizer.ensureUtc, astimezone_utc, Except.ok.injEq] using hstamp
    obtain ⟨u, block, hblock, hreport⟩ := hlookup.reported _ t hknown
    have htime : blockTimestampFromPayload block = .ok (time row.blockNumber.toNat) := by
      refine h.lookup _ u block ?_
      rw [Int.toNat_of_nonneg (by omega)]
      exact hblock
    rw [hreport, Except.ok.injEq] at htime
    rw [← hsame, htime]
    exact hcovers.mp hbounds

theorem Honest.timed (h : Honest client chain) : Timed client chain.time where
  increasing := chain.increasing
  finalized := h.finalized
  lookup := h.lookup
  logs fromBlock toBlock s answer hle hanswer l hl n hn := by
    have hmem := (h.logs fromBlock toBlock s answer hle hanswer).mem_iff.mp hl
    obtain ⟨m, hm, hlog⟩ := List.mem_flatMap.mp hmem
    obtain ⟨hge, hlt⟩ := mem_span.mp hm
    obtain ⟨event, hevent, hblock⟩ := chain.wellFormed _ l hlog
    obtain ⟨v, text, hv, htext, hint⟩ := (normalizeEvent_from hevent).blockNumber
    obtain ⟨v', text', hv', htext', hint'⟩ := hn
    rw [blockText_unique hv htext hv' htext', hint, Except.ok.injEq] at hint'
    omega

theorem Honest.found (h : Honest client chain) {start stop : Instant} {s : ρ}
    {range : IntervalBlockRange}
    (hok : (resolveIntervalBlockRange client.toBlockLookupClient (.utc start) (.utc stop) s).1 =
      .ok range) :
    ∃ head : ℕ, Found chain.time head start stop range := h.timed.found hok

theorem Honest.collected (h : Honest client chain) {fromBlock toBlock maxBlocks : Int}
    {scope : CollectionScope} {s : ρ} {logs : List RawLog}
    (hok : (collectRawLogs client.toLogRpcClient fromBlock toBlock scope maxBlocks s).1 = .ok logs) :
    logs.Perm ((span fromBlock (toBlock + 1)).flatMap chain.logsAt) := by
  obtain ⟨_, hscope, -⟩ := Eff.ofExcept_bind_ok hok
  rw [(scope.validate_ok_iff).mp hscope] at hok
  have hkeeps : LogCollector.Keeps client.toLogRpcClient (.defaultTransferTopicAllAddresses 1)
      (fun range r => 0 ≤ range.1 → range.1 ≤ range.2 → ∀ answer, r = .ok answer →
        answer.Perm ((span range.1 (range.2 + 1)).flatMap chain.logsAt)) := by
    intro a b u ha hab answer hanswer
    lift a to ℕ using ha
    lift b to ℕ using by omega
    exact h.logs a b u answer (by omega) hanswer
  obtain ⟨-, h0, answered, htiles, rfl, hanswered⟩ := LogCollector.collectRawLogs_ok hkeeps hok
  apply htiles.flatMap_perm
  intro c hc
  obtain ⟨hlo, hordered, hpromise⟩ := hanswered c hc
  exact hpromise (by omega) hordered c.2 rfl

structure Landed (chain : Chain) (interval : Interval ω) (rows : List LogRow) : Prop where
  sound : ∀ row ∈ rows, ∃ n, ∃ l ∈ chain.logs n, chain.InWindow interval n ∧
    chain.row interval l = .ok row
  complete : ∀ n, chain.InWindow interval n → ∀ l ∈ chain.logs n, ∃ row ∈ rows,
    chain.row interval l = .ok row

theorem Honest.landed (h : Honest client chain) {prepared : Prepared}
    (hp : PreparedFrom client interval prepared) :
    Landed chain interval prepared.normalized.rows := by
  obtain ⟨s1, hchain⟩ := hp.fetched.chain
  obtain ⟨s2, hrange⟩ := hp.fetched.range
  obtain ⟨s3, hlogs⟩ := hp.fetched.logs
  obtain ⟨numbers, hnumbers, hlookup⟩ := hp.fetched.numbers
  obtain ⟨head, hfound⟩ := h.found hrange
  have hcovers := hfound.covers
  rw [hp.start, hp.stop] at hcovers
  have hmem : ∀ l, l ∈ prepared.fetched.rawLogs ↔
      ∃ n, chain.InWindow interval n ∧ l ∈ chain.logs n := by
    intro l
    rw [(h.collected hlogs).mem_iff, List.mem_flatMap]
    constructor
    · rintro ⟨n, hn, hl⟩
      obtain ⟨hge, hlt⟩ := mem_span.mp hn
      have h0 := hfound.first.nonneg
      lift n to ℕ using by omega
      exact ⟨n, (hcovers.blocks n).mp ⟨hge, by omega⟩, hl⟩
    · rintro ⟨n, hn, hl⟩
      obtain ⟨hge, hle⟩ := (hcovers.blocks n).mpr hn
      exact ⟨n, mem_span.mpr ⟨hge, by omega⟩, hl⟩
  have hrow : ∀ n l, l ∈ chain.logs n → l ∈ prepared.fetched.rawLogs →
      normalizeLog l (timestampsOf prepared.fetched) interval.settings.chainId (.utc prepared.start)
        (.utc prepared.stop) (.utc interval.now) = chain.row interval l := by
    intro n l hl hfetched
    obtain ⟨event, hevent, hblock⟩ := chain.wellFormed n l hl
    obtain ⟨v, text, hv, htext, hint⟩ := (normalizeEvent_from hevent).blockNumber
    have hnumber := blockNumbers_mem hnumbers hfetched hv htext hint
    obtain ⟨t, ht⟩ := hlookup.found _ (mem_sortedSet.mpr hnumber)
    obtain ⟨u, block, hanswer, hreport⟩ := hlookup.reported _ t ht
    rw [hblock] at ht hanswer
    have htime := h.lookup n u block hanswer
    rw [hreport] at htime
    cases htime
    have hsame : timestampsOf prepared.fetched event.blockNumber =
        trueTimestamps chain.time event.blockNumber := by
      rw [hblock]
      simp [timestampsOf, ht, trueTimestamps, timeAt]
    rw [h.chainId s1 _ hchain, Chain.row, Chain.timestamps, normalizeLog_eq, normalizeLog_eq,
      hp.start, hp.stop, normalizeEvent_congr hevent hsame, hevent]
  constructor
  · intro row hmemRow
    obtain ⟨l, hl, hnormal⟩ := forall₂_right hp.normalized hmemRow
    obtain ⟨n, hwindow, hln⟩ := (hmem l).mp hl
    exact ⟨n, l, hln, hwindow, by rw [← hrow n l hln hl, hnormal]⟩
  · intro n hwindow l hln
    have hl := (hmem l).mpr ⟨n, hwindow, hln⟩
    obtain ⟨row, hmemRow, hnormal⟩ := forall₂_left hp.normalized hl
    exact ⟨row, hmemRow, by rw [← hrow n l hln hl, hnormal]⟩

structure ExactlyOnce (chain : Chain) (committed : List (Interval ω)) (rows : List LogRow) :
    Prop where
  uniqueKeys : (rows.map storedKey).Nodup
  sound : ∀ row ∈ rows, ∃ interval ∈ committed, ∃ n, ∃ l ∈ chain.logs n,
    chain.InWindow interval n ∧ chain.row interval l = .ok row
  complete : ∀ interval ∈ committed, ∀ n, chain.InWindow interval n → ∀ l ∈ chain.logs n,
    ∃ row ∈ rows, chain.event l = .ok row.toLogEvent

theorem rowKey_toDict (row : LogRow) : rowKey row.toDict = storedKey row := rfl

theorem row_event {l : RawLog} {row : LogRow} (h : chain.row interval l = .ok row) :
    chain.event l = .ok row.toLogEvent := (normalizeLog_ok h).1

theorem storedKey_inj {a b : LogRow} (h : storedKey a = storedKey b) :
    a.transactionHash = b.transactionHash ∧ a.logIndex = b.logIndex := by
  simp only [storedKey, List.cons.injEq, PyVal.str.injEq, PyVal.int.injEq, and_true] at h
  exact h.2

theorem ExactlyOnce.commit {committed : List (Interval ω)} {before : Option DeltaTable}
    {rows stored : List LogRow} (h : ExactlyOnce chain committed (storedRows before))
    (hlanded : Landed chain interval rows)
    (ha : Accepted interval.faults (rows.map LogRow.toDict) before stored) :
    ExactlyOnce chain (committed ++ [interval]) stored := by
  have hsound : ∀ row ∈ stored, ∃ i ∈ committed ++ [interval], ∃ n, ∃ l ∈ chain.logs n,
      chain.InWindow i n ∧ chain.row i l = .ok row := by
    intro row hrow
    rcases mem_ingest ha.ingested hrow with hold | ⟨input, hinput, hconvert⟩
    · obtain ⟨i, hi, hrest⟩ := h.sound row hold
      exact ⟨i, by simp [hi], hrest⟩
    · obtain ⟨r, hr, rfl⟩ := List.mem_map.mp hinput
      rw [arrowRow_toDict hconvert]
      exact ⟨interval, by simp, hlanded.sound r hr⟩
  refine ⟨ingest_nodup arrowRow_key h.uniqueKeys ha.ingested, hsound, ?_⟩
  intro i hi n hwindow l hl
  rcases List.mem_append.mp hi with hi | hi
  · obtain ⟨row, hrow, hevent⟩ := h.complete i hi n hwindow l hl
    exact ⟨row, (ingest_extends ha.ingested).subset hrow, hevent⟩
  · rw [List.mem_singleton] at hi
    subst hi
    obtain ⟨r, hr, hrow⟩ := hlanded.complete n hwindow l hl
    have hkey := key_mem_ingest arrowRow_key ha.ingested (List.mem_map_of_mem hr)
    obtain ⟨b, hb, hsame⟩ := List.mem_map.mp hkey
    obtain ⟨j, -, n', l', hl', -, hrow'⟩ := hsound b hb
    obtain ⟨hhash, hindex⟩ := storedKey_inj (hsame.trans (rowKey_toDict r))
    obtain ⟨rfl, rfl⟩ := chain.unique n' n l' l _ _ hl' hl (row_event hrow') (row_event hrow) hhash
      hindex
    exact ⟨b, hb, row_event hrow'⟩

def committedIntervals (client : EthereumClient ρ) :
    List (Interval ω) → World ρ ω → List (Interval ω)
  | [], _ => []
  | interval :: rest, w => (if commits client interval w then [interval] else []) ++
      committedIntervals client rest (runInterval client interval w).2

theorem ExactlyOnce.run (hclient : Honest client chain) {committed : List (Interval ω)}
    {w : World ρ ω} (h : ExactlyOnce chain committed (storedRows w.delta)) (interval : Interval ω) :
    ExactlyOnce chain (committed ++ if commits client interval w then [interval] else [])
      (storedRows (runInterval client interval w).2.delta) := by
  have hcases := runInterval_cases client interval w
  generalize runInterval client interval w = out at hcases ⊢
  generalize commits client interval w = did at hcases ⊢
  obtain ⟨r, after⟩ := out
  cases hcases with
  | stopped s e hstop => simpa using h
  | refused s e prepared hprepared => simpa using h
  | committed s warehouse r prepared hprepared stored ha =>
    exact h.commit (hclient.landed (prepareRows_ok hprepared)) ha

theorem ExactlyOnce.history (hclient : Honest client chain) (intervals : List (Interval ω))
    {committed : List (Interval ω)} {w : World ρ ω}
    (h : ExactlyOnce chain committed (storedRows w.delta)) :
    ExactlyOnce chain (committed ++ committedIntervals client intervals w)
      (storedRows (history (intervals.map (runInterval client)) w).delta) := by
  induction intervals generalizing committed w with
  | nil => simpa [committedIntervals] using h
  | cons interval rest ih =>
    have hrest := ih (h.run hclient interval)
    rw [List.append_assoc] at hrest
    exact hrest

structure CommitReported (client : EthereumClient ρ) (interval : Interval ω) (w : World ρ ω) :
    Prop where
  returned : (runInterval client interval w).1.isOk = true → commits client interval w = true
  stopped : commits client interval w = false →
    (runInterval client interval w).1.isOk = false ∧
      (runInterval client interval w).2.delta = w.delta

theorem runInterval_commitReported (client : EthereumClient ρ) (interval : Interval ω)
    (w : World ρ ω) : CommitReported client interval w := by
  have hcases := runInterval_cases client interval w
  constructor
  · intro hok
    generalize runInterval client interval w = out at hcases hok
    generalize commits client interval w = did at hcases ⊢
    obtain ⟨r, after⟩ := out
    cases hcases with
    | stopped s e hstop => cases hok
    | refused s e prepared hprepared => cases hok
    | committed => rfl
  · intro hnot
    generalize runInterval client interval w = out at hcases ⊢
    generalize commits client interval w = did at hcases hnot
    obtain ⟨r, after⟩ := out
    cases hcases with
    | stopped s e hstop => exact ⟨rfl, rfl⟩
    | refused s e prepared hprepared => exact ⟨rfl, rfl⟩
    | committed => cases hnot

theorem runInterval_exactly_once (chain : Chain) (client : EthereumClient ρ)
    (hclient : Honest client chain) (intervals : List (Interval ω)) (rpc : ρ) (warehouse : ω) :
    ExactlyOnce chain (committedIntervals client intervals ⟨rpc, none, warehouse⟩)
        (storedRows (history (intervals.map (runInterval client)) ⟨rpc, none, warehouse⟩).delta) ∧
      ∀ interval w, CommitReported (ω := ω) client interval w := by
  refine ⟨?_, runInterval_commitReported client⟩
  have hempty : ExactlyOnce chain ([] : List (Interval ω)) (storedRows none) :=
    ⟨by simp [storedRows], by simp [storedRows], by simp⟩
  exact ExactlyOnce.history hclient intervals (w := ⟨rpc, none, warehouse⟩) hempty

def transferLog : RawLog :=
  [("blockNumber", .str "0x1".toList), ("blockHash", .str "0xB1".toList),
   ("transactionHash", .str "0xAA".toList), ("logIndex", .str "0x0".toList),
   ("address", .str "0xCC".toList), ("topics", .arr [.str transferTopic0]),
   ("data", .str "0x".toList)]

def transferEvent : LogEvent where
  chainId := 1
  blockNumber := 1
  blockHash := "0xb1".toList
  transactionHash := "0xaa".toList
  transactionIndex := none
  logIndex := 0
  contractAddress := "0xcc".toList
  topic0 := some transferTopic0
  topic1 := none
  topic2 := none
  topic3 := none
  dataRaw := "0x".toList
  dataUint256DecimalText := none
  dataUint256DecodeStatus := uint256StatusNotUint256Word
  removed := none
  blockTimestampUtc := 12000000
  blockDateUtc := 0

theorem transferLog_event : normalizeEvent transferLog (trueTimestamps everyTwelveSeconds) 1 =
    .ok transferEvent := by decide +kernel

def transferInBlockOne : Chain where
  chainId := 1
  time := everyTwelveSeconds
  logs n := if n = 1 then [transferLog] else []
  increasing := everyTwelveSeconds_strictMono
  wellFormed n l hl := by
    split at hl
    · rename_i hn
      cases List.mem_singleton.mp hl
      exact ⟨transferEvent, transferLog_event, by rw [hn]; rfl⟩
    · cases hl
  unique n n' l l' event event' hl hl' _ _ _ _ := by
    split at hl
    · split at hl'
      · rename_i hn hn'
        exact ⟨hn.trans hn'.symm,
          (List.mem_singleton.mp hl).trans (List.mem_singleton.mp hl').symm⟩
      · cases hl'
    · cases hl

def servingBlockOne : EthereumClient Unit where
  ethGetBlockByNumber n := if n ≤ 4 then pure (blockPayload n.toNat) else throw forbidden
  ethGetFinalizedBlock := pure (blockPayload 4)
  ethGetLogs fromBlock toBlock _ _ :=
    pure (if fromBlock ≤ 1 ∧ 1 ≤ toBlock then [transferLog] else [])
  ethChainId := pure 1

theorem transferInBlockOne_logs (fromBlock toBlock : ℕ) :
    (span fromBlock (toBlock + 1)).flatMap transferInBlockOne.logsAt =
      if fromBlock ≤ 1 ∧ 1 ≤ toBlock then [transferLog] else [] := by
  have hempty : ∀ a b : ℤ, 0 ≤ a → (∀ n, a ≤ n → n < b → n ≠ 1) →
      (span a b).flatMap transferInBlockOne.logsAt = [] := by
    intro a b ha hne
    rw [List.flatMap_eq_nil_iff]
    intro n hn
    obtain ⟨hge, hlt⟩ := mem_span.mp hn
    have := hne n hge hlt
    simp only [Chain.logsAt, transferInBlockOne]
    rw [if_neg (by omega)]
  split_ifs with h
  · rw [← span_append (b := 1) (by omega) (by omega), ← span_append (a := 1) (b := 2) (by omega)
      (by omega), List.flatMap_append, List.flatMap_append, hempty _ 1 (by omega) (by omega),
      hempty 2 _ (by omega) (by omega)]
    rfl
  · exact hempty _ _ (by omega) (by omega)

theorem servingBlockOne_honest : Honest servingBlockOne transferInBlockOne := by
  constructor
  · intro s c hc
    cases hc
    rfl
  · intro s block hblock
    cases hblock
    exact ⟨4, by decide, by decide⟩
  · intro n s block hblock
    by_cases hn : n ≤ 4
    · interval_cases n
      all_goals
        cases hblock
        decide
    · simp only [servingBlockOne] at hblock
      rw [if_neg (by omega)] at hblock
      cases hblock
  · intro fromBlock toBlock s answer _ hanswer
    cases hanswer
    rw [transferInBlockOne_logs fromBlock toBlock]
    simp

def defaultSettings : PipelineSettings where
  provider := ⟨"https://rpc".toList, "none".toList, none, none, none⟩
  chainId := 1
  maxBlocksPerLogRequest := 10
  rpcTimeoutSeconds := .finite 20
  rpcMaxRetries := 3
  rpcRequestsPerSecond := .finite 4
  rpcConcurrency := 1
  deltaLogsPath := "/opt/airflow/data/delta/ethereum_logs".toList
  duckdbPath := "/opt/airflow/data/analytics/ethereum_analytics.duckdb".toList
  dbtProjectDir := "/opt/airflow/dbt".toList
  dbtProfilesDir := "/opt/airflow/dbt".toList
  dbtBin := "dbt".toList
  collectionScope := .defaultTransferTopicAllAddresses 1
  usdtContractAddress := usdtContractAddress
  tetherTreasuryAddress := tetherTreasuryAddress
  usdtDecimals := 6

def failingDbt : Interval Unit where
  settings := defaultSettings
  startUtc := secondsUtc 12
  endUtc := secondsUtc 30
  now := 0
  faults := noFaults
  dbtRunner _ _ _ _ := throw (.dbtBuildError "dbt build failed with exit code 1.")

theorem runInterval_exactly_once_failingDbt :
    commits servingBlockOne failingDbt ⟨(), none, ()⟩ = true ∧
      ExactlyOnce transferInBlockOne
        (committedIntervals servingBlockOne [failingDbt, failingDbt] ⟨(), none, ()⟩)
        (storedRows (history ([failingDbt, failingDbt].map (runInterval servingBlockOne))
          ⟨(), none, ()⟩).delta) :=
  ⟨by decide +kernel, (runInterval_exactly_once transferInBlockOne servingBlockOne
    servingBlockOne_honest [failingDbt, failingDbt] () ()).1⟩

end EthereumLogs.Pipeline
