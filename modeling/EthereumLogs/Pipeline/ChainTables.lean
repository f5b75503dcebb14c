import EthereumLogs.Pipeline.Attempts
import EthereumLogs.Pipeline.Provider
import EthereumLogs.Pipeline.Reconciliation

namespace EthereumLogs.Dbt
open Python Keyed LogNormalizer

variable {vars : DbtVars} {window : Window} {raw raw' : List LogRow} {row : LogRow}
  {transfer : Erc20Transfer} {before : List Erc20Transfer} {w w' : Warehouse}

-- the interval and ingestion stamps say which run wrote a row first
def unstamped (transfer : Erc20Transfer) : Erc20Transfer :=
  { transfer with intervalStartUtc := 0, intervalEndUtc := 0, ingestedAtUtc := 0 }

theorem decodeTransfer_unstamped (vars : DbtVars) (row : LogRow) :
    (decodeTransfer vars row).map unstamped = decodeTransfer vars ⟨row.toLogEvent, 0, 0, 0⟩ := by
  simp only [decodeTransfer, Option.bind_eq_bind]
  cases decodeEthereumAddress row.topic1 with
  | none => rfl
  | some fromAddress =>
    cases decodeEthereumAddress row.topic2 with
    | none => rfl
    | some toAddress => rfl

theorem transferOf_unstamped (vars : DbtVars) (row : LogRow) :
    (transferOf vars row).map unstamped = transferOf vars ⟨row.toLogEvent, 0, 0, 0⟩ := by
  have hshape : HasTransferShape (stagedLog ⟨row.toLogEvent, 0, 0, 0⟩) ↔
      HasTransferShape (stagedLog row) := Iff.rfl
  unfold transferOf
  by_cases h : HasTransferShape (stagedLog row)
  · rw [if_pos h, if_pos (hshape.mpr h)]
    exact decodeTransfer_unstamped vars (stagedLog row)
  · rw [if_neg h, if_neg (mt hshape.mp h)]
    rfl

theorem rebuilt_keeps (hraw : RawContract raw) (h : Sound vars raw before) :
    before ⊆ rebuilt vars window raw before := by
  intro transfer ht
  rw [rebuilt, mem_replace]
  by_cases hkey : transferKey transfer ∈ (erc20Transfers vars window raw).map transferKey
  · left
    obtain ⟨other, hother, hsame⟩ := List.mem_map.mp hkey
    obtain ⟨row, hrow, -, hdecoded⟩ := h.decoded transfer ht
    obtain ⟨row', hrow', -, hdecoded'⟩ := (mem_erc20Transfers hraw).mp hother
    rwa [hraw.same hrow hrow' hdecoded hdecoded' hsame.symm]
  · exact .inr ⟨ht, hkey⟩

def Silvered (vars : DbtVars) (window : Window) (raw : List LogRow)
    (transfers : List Erc20Transfer) : Prop :=
  ∀ row ∈ raw, window.Contains row.blockTimestampUtc → ∀ transfer,
    transferOf vars row = some transfer → transfer ∈ transfers

theorem rebuilt_silvered (hraw : RawContract raw) :
    Silvered vars window raw (rebuilt vars window raw before) := by
  intro row hrow hwindow transfer hdecoded
  rw [rebuilt, mem_replace]
  exact .inl ((mem_erc20Transfers hraw).mpr ⟨row, hrow, hwindow, hdecoded⟩)

theorem Silvered.mem_iff (h : Silvered vars window raw before) (hsound : Sound vars raw before) :
    transfer ∈ before.filter (fun t => window.Contains t.blockTimestampUtc) ↔
      ∃ row ∈ raw, window.Contains row.blockTimestampUtc ∧ transferOf vars row = some transfer := by
  rw [List.mem_filter, decide_eq_true_eq]
  constructor
  · rintro ⟨ht, hwindow⟩
    obtain ⟨row, hrow, -, hdecoded⟩ := hsound.decoded transfer ht
    rw [(transferOf_from hdecoded).timestamp] at hwindow
    exact ⟨row, hrow, hwindow, hdecoded⟩
  · rintro ⟨row, hrow, hwindow, hdecoded⟩
    refine ⟨h row hrow hwindow transfer hdecoded, ?_⟩
    rw [(transferOf_from hdecoded).timestamp]
    exact hwindow

theorem Progress.sound (h : Progress vars window raw w w') (hraw : RawContract raw)
    (hsound : Sound vars raw w.transfers) : Sound vars raw w'.transfers := by
  rcases h.transfers with hsame | hrebuilt
  · rw [hsame]
    exact hsound
  · rw [hrebuilt]
    exact rebuilt_sound hraw hsound

theorem Progress.keeps (h : Progress vars window raw w w') (hraw : RawContract raw)
    (hsound : Sound vars raw w.transfers) : w.transfers ⊆ w'.transfers := by
  rcases h.transfers with hsame | hrebuilt
  · rw [hsame]
    exact List.Subset.refl _
  · rw [hrebuilt]
    exact rebuilt_keeps hraw hsound

end EthereumLogs.Dbt

namespace EthereumLogs.Pipeline
open Python Effect Keyed Tiling LogNormalizer DeltaWriter Dbt

namespace Chain

variable {chain : Chain} {window : Window} {n : ℕ} {event : LogEvent}

def blocksFrom (chain : Chain) (stop : Instant) : ℕ → ℕ → List ℕ
  | 0, _ => []
  | fuel + 1, n => if chain.time n < stop then n :: chain.blocksFrom stop fuel (n + 1) else []

theorem mem_blocksFrom {stop : Instant} {fuel first : ℕ}
    (hfuel : stop ≤ chain.time first + fuel) :
    n ∈ chain.blocksFrom stop fuel first ↔ first ≤ n ∧ chain.time n < stop := by
  induction fuel generalizing first with
  | zero =>
    have hlate : ∀ n, first ≤ n → ¬ chain.time n < stop := by
      intro n hn
      have hmono := chain.increasing.monotone hn
      simp only [Instant] at *
      omega
    simpa [blocksFrom] using hlate n
  | succ fuel ih =>
    have hnext : chain.time first < chain.time (first + 1) :=
      chain.increasing (Nat.lt_succ_self first)
    rw [blocksFrom]
    split_ifs with hfirst
    · have hshorter : stop ≤ chain.time (first + 1) + fuel := by
        simp only [Instant] at *
        push_cast at hfuel
        omega
      have hrest := ih hshorter
      rw [List.mem_cons, hrest]
      constructor
      · rintro (rfl | ⟨hn, hstop⟩)
        · exact ⟨le_rfl, hfirst⟩
        · exact ⟨by omega, hstop⟩
      · rintro ⟨hn, hstop⟩
        rcases Nat.eq_or_lt_of_le hn with rfl | hlt
        · exact .inl rfl
        · exact .inr ⟨hlt, hstop⟩
    · simp only [List.not_mem_nil, false_iff, not_and]
      intro hn hstop
      exact hfirst (lt_of_le_of_lt (chain.increasing.monotone hn) hstop)

def blocksIn (chain : Chain) (window : Window) : List ℕ :=
  (chain.blocksFrom window.stop (window.stop - chain.time 0).toNat 0).filter
    fun n => window.Contains (chain.time n)

theorem mem_blocksIn : n ∈ chain.blocksIn window ↔ window.Contains (chain.time n) := by
  have hfuel : window.stop ≤ chain.time 0 + ((window.stop - chain.time 0).toNat : ℕ) := by
    simp only [Instant] at *
    omega
  rw [blocksIn, List.mem_filter, mem_blocksFrom hfuel, decide_eq_true_eq, and_iff_right_iff_imp]
  exact fun hwindow => ⟨Nat.zero_le n, hwindow.2⟩

theorem blocksFrom_ge {stop : Instant} {fuel first : ℕ} (h : n ∈ chain.blocksFrom stop fuel first) :
    first ≤ n := by
  induction fuel generalizing first with
  | zero => cases h
  | succ fuel ih =>
    rw [blocksFrom] at h
    split_ifs at h
    · rcases List.mem_cons.mp h with rfl | h
      · exact le_rfl
      · exact Nat.le_of_succ_le (ih h)
    · cases h

theorem blocksFrom_nodup (chain : Chain) (stop : Instant) (fuel first : ℕ) :
    (chain.blocksFrom stop fuel first).Nodup := by
  induction fuel generalizing first with
  | zero => exact List.nodup_nil
  | succ fuel ih =>
    rw [blocksFrom]
    split_ifs
    · refine List.nodup_cons.mpr ⟨fun hmem => ?_, ih (first + 1)⟩
      exact absurd (blocksFrom_ge hmem) (Nat.not_succ_le_self first)
    · exact List.nodup_nil

theorem blocksIn_nodup (chain : Chain) (window : Window) : (chain.blocksIn window).Nodup :=
  (blocksFrom_nodup chain _ _ _).filter _

theorem found_blocks {head : ℕ} {range : IntervalBlockRange}
    (h : BlockRange.Found chain.time head window.start window.stop range) :
    ((span range.fromBlock (range.toBlock + 1)).map Int.toNat).Perm (chain.blocksIn window) := by
  have hcovers := h.covers
  have h0 := h.first.nonneg
  have hnodup : ((span range.fromBlock (range.toBlock + 1)).map Int.toNat).Nodup := by
    refine (span_nodup _ _).map_on fun k hk k' hk' hsame => ?_
    have hge := (mem_span.mp hk).1
    have hge' := (mem_span.mp hk').1
    omega
  rw [List.perm_ext_iff_of_nodup hnodup (chain.blocksIn_nodup _)]
  intro n
  rw [mem_blocksIn, List.mem_map]
  constructor
  · rintro ⟨k, hk, rfl⟩
    obtain ⟨hge, hlt⟩ := mem_span.mp hk
    exact (hcovers.blocks k.toNat).mp (by omega)
  · intro hn
    obtain ⟨hge, hle⟩ := (hcovers.blocks n).mpr hn
    exact ⟨n, mem_span.mpr ⟨hge, by omega⟩, Int.toNat_natCast n⟩

def eventsIn (chain : Chain) (window : Window) : List LogEvent :=
  (((chain.blocksIn window).flatMap chain.logs).filterMap fun l => (chain.event l).toOption).dedup

theorem mem_eventsIn : event ∈ chain.eventsIn window ↔ ∃ n, ∃ l ∈ chain.logs n,
    window.Contains (chain.time n) ∧ chain.event l = .ok event := by
  have hoption : ∀ l, (chain.event l).toOption = some event ↔ chain.event l = .ok event := by
    intro l
    cases chain.event l with
    | error e => simp [Except.toOption]
    | ok event' => simp [Except.toOption]
  simp only [eventsIn, List.mem_dedup, List.mem_filterMap, List.mem_flatMap, mem_blocksIn, hoption]
  constructor
  · rintro ⟨l, ⟨n, hn, hl⟩, hevent⟩
    exact ⟨n, l, hl, hn, hevent⟩
  · rintro ⟨n, l, hl, hn, hevent⟩
    exact ⟨l, ⟨n, hn, hl⟩, hevent⟩

def transfersIn (chain : Chain) (vars : DbtVars) (window : Window) : List Erc20Transfer :=
  (chain.eventsIn window).filterMap fun event => transferOf vars ⟨event, 0, 0, 0⟩

end Chain

variable {ρ : Type} {client : EthereumClient ρ} {vars : DbtVars} {chain : Chain}
  {committed : List (Interval Warehouse)} {window : Window} {w w' : World ρ Warehouse}
  {raw stored : List LogRow} {attempt : Attempt ρ} {done : Bool}

theorem Honest.blocksIn (h : Honest client chain) {start stop : Instant} {range : IntervalBlockRange}
    {s : ρ} (hrange : (BlockRange.resolveIntervalBlockRange client.toBlockLookupClient (.utc start)
      (.utc stop) s).1 = .ok range) :
    ((span range.fromBlock (range.toBlock + 1)).map Int.toNat).Perm (chain.blocksIn ⟨start, stop⟩) := by
  obtain ⟨head, hfound⟩ := h.found hrange
  exact Chain.found_blocks hfound

theorem Honest.logsIn (h : Honest client chain) {start stop : Instant} {range : IntervalBlockRange}
    {maxBlocks : Int} {scope : CollectionScope} {s t : ρ} {logs : List RawLog}
    (hrange : (BlockRange.resolveIntervalBlockRange client.toBlockLookupClient (.utc start)
      (.utc stop) s).1 = .ok range)
    (hlogs : (collectRawLogs client.toLogRpcClient range.fromBlock range.toBlock scope maxBlocks t).1 =
      .ok logs) : logs.Perm ((chain.blocksIn ⟨start, stop⟩).flatMap chain.logs) := by
  have hmap : (span range.fromBlock (range.toBlock + 1)).flatMap chain.logsAt =
      ((span range.fromBlock (range.toBlock + 1)).map Int.toNat).flatMap chain.logs := by
    rw [List.flatMap_map]
    rfl
  refine (h.collected hlogs).trans ?_
  rw [hmap]
  exact (h.blocksIn hrange).flatMap_right _

def Commits (committed : List (Interval Warehouse)) (window : Window) : Prop :=
  ∃ interval ∈ committed, interval.startUtc.instant = window.start ∧
    interval.endUtc.instant = window.stop

theorem ExactlyOnce.events (h : ExactlyOnce chain committed raw) (hwindow : Commits committed window)
    (event : LogEvent) : (∃ row ∈ raw, window.Contains row.blockTimestampUtc ∧
      row.toLogEvent = event) ↔ event ∈ chain.eventsIn window := by
  rw [Chain.mem_eventsIn]
  constructor
  · rintro ⟨row, hrow, hcontains, rfl⟩
    obtain ⟨interval, -, n, l, hl, -, hnormal⟩ := h.sound row hrow
    rw [Chain.row_timestamp hl hnormal] at hcontains
    exact ⟨n, l, hl, hcontains, row_event hnormal⟩
  · rintro ⟨n, l, hl, hcontains, hevent⟩
    obtain ⟨interval, hinterval, hstart, hstop⟩ := hwindow
    have hin : chain.InWindow interval n := by
      rw [Chain.InWindow, hstart, hstop]
      exact hcontains
    obtain ⟨row, hrow, hsame⟩ := h.complete interval hinterval n hin l hl
    rw [hevent, Except.ok.injEq] at hsame
    obtain ⟨interval', -, n', l', hl', -, hnormal⟩ := h.sound row hrow
    refine ⟨row, hrow, ?_, hsame.symm⟩
    have hrowEvent := row_event hnormal
    rw [← hsame] at hrowEvent
    obtain ⟨rfl, rfl⟩ := chain.unique n n' l l' _ _ hl hl' hevent hrowEvent rfl rfl
    rw [Chain.row_timestamp hl' hnormal]
    exact hcontains

theorem ExactlyOnce.events_nodup (h : ExactlyOnce chain committed raw) :
    (raw.map LogRow.toLogEvent).Nodup := by
  have hkeys : ((raw.map LogRow.toLogEvent).map fun event =>
      [PyVal.int event.chainId, .str event.transactionHash, .int event.logIndex]).Nodup := by
    rw [List.map_map]
    exact h.uniqueKeys
  exact hkeys.of_map

theorem ExactlyOnce.settled {faults : StoreFaults} {rows : List PyRow} {table : Option DeltaTable}
    {committed' : List (Interval Warehouse)} (h : ExactlyOnce chain committed (storedRows table))
    (h' : ExactlyOnce chain committed' stored) (ha : Accepted faults rows table stored)
    (hwindow : Commits committed window) {row : LogRow} (hrow : row ∈ stored)
    (hcontains : window.Contains row.blockTimestampUtc) : row ∈ storedRows table := by
  obtain ⟨interval, -, n, l, hl, -, hnormal⟩ := h'.sound row hrow
  have hevent : row.toLogEvent ∈ chain.eventsIn window := by
    rw [Chain.row_timestamp hl hnormal] at hcontains
    exact Chain.mem_eventsIn.mpr ⟨n, l, hl, hcontains, row_event hnormal⟩
  obtain ⟨old, hold, -, hsame⟩ := (h.events hwindow _).mpr hevent
  have hkey : storedKey old = storedKey row := by rw [storedKey, storedKey, hsame]
  rwa [← eq_of_key_eq storedKey h'.uniqueKeys ((ingest_extends ha.ingested).subset hold) hrow hkey]

structure ChainInvariant (chain : Chain) (vars : DbtVars) (committed : List (Interval Warehouse))
    (w : World ρ Warehouse) : Prop extends SilverInvariant vars (lakehouse w) where
  ingested : ExactlyOnce chain committed (storedRows w.delta)

structure Serves (vars : DbtVars) (committed : List (Interval Warehouse)) (window : Window)
    (w : World ρ Warehouse) : Prop where
  commits : Commits committed window
  silvered : Silvered vars window (storedRows w.delta) w.warehouse.transfers

structure Advances (chain : Chain) (vars : DbtVars) (committed committed' : List (Interval Warehouse))
    (w w' : World ρ Warehouse) : Prop where
  extended : committed ⊆ committed'
  invariant : ChainInvariant chain vars committed' w'
  serves : ∀ window, Serves vars committed window w → Serves vars committed' window w'
  kept : w.warehouse.transfers ⊆ w'.warehouse.transfers
  settled : ∀ window, Serves vars committed window w → ∀ transfer ∈ w'.warehouse.transfers,
    window.Contains transfer.blockTimestampUtc → transfer ∈ w.warehouse.transfers
  flowKeys : w.warehouse.flows.map TreasuryFlow.toFlowKey ⊆
    w'.warehouse.flows.map TreasuryFlow.toFlowKey

structure Refreshed (vars : DbtVars) (committed : List (Interval Warehouse)) (window : Window)
    (w w' : World ρ Warehouse) : Prop extends Serves vars committed window w' where
  flows : ∃ now, w'.warehouse.flows = replace TreasuryFlow.toFlowKey w.warehouse.flows
    (tetherTreasuryFlow vars window now w'.warehouse.transfers)
  tested : erc20TransfersTests vars w'.warehouse.transfers = true

structure AttemptAdvances (chain : Chain) (vars : DbtVars)
    (committed committed' : List (Interval Warehouse)) (window : Window) (done : Bool)
    (w w' : World ρ Warehouse) : Prop extends Advances chain vars committed committed' w w' where
  flows : w'.warehouse.flows = w.warehouse.flows ∨ Refreshed vars committed' window w w'
  completed : done = true → Refreshed vars committed' window w w'

theorem AttemptEffect.advances (hclient : Honest client chain)
    (heffect : AttemptEffect client vars attempt w done w')
    (h : ChainInvariant chain vars committed w) : ∃ committed',
      AttemptAdvances chain vars committed committed' attempt.window done w w' := by
  cases heffect with
  | stopped s =>
    exact ⟨committed, ⟨List.Subset.refl _, ⟨h.toSilverInvariant, h.ingested⟩, fun window hw =>
      ⟨hw.commits, hw.silvered⟩, List.Subset.refl _, fun _ _ _ ht _ => ht, List.Subset.refl _⟩, .inl rfl,
      fun hdone => by cases hdone⟩
  | committed s warehouse prepared stored done hprepare haccepted hprogress hdone =>
    have hprepared := prepareRows_ok hprepare
    have hstored := h.ingested.commit (hclient.landed hprepared) haccepted
    have hcommitted : SilverInvariant vars ⟨some (DeltaWriter.committed w.delta stored), w.warehouse⟩ :=
      h.toSilverInvariant.commit hprepared.lowered haccepted
    have hattempt : Commits (committed ++ [attempt.interval vars]) attempt.window :=
      ⟨attempt.interval vars, by simp, instant_utc _, instant_utc _⟩
    have hkept := hprogress.keeps hcommitted.contract hcommitted.sound
    have hsound := hprogress.sound hcommitted.contract hcommitted.sound
    have hrefreshed : (∃ now, Refilled vars attempt.window stored now w.warehouse warehouse) →
        Refreshed vars (committed ++ [attempt.interval vars]) attempt.window w
          ⟨s, some (DeltaWriter.committed w.delta stored), warehouse⟩ := by
      rintro ⟨now, htransfers, hflows, htested⟩
      refine ⟨⟨hattempt, ?_⟩, ⟨now, hflows⟩, htested⟩
      change Silvered vars attempt.window stored warehouse.transfers
      rw [htransfers]
      exact rebuilt_silvered hcommitted.contract
    refine ⟨committed ++ [attempt.interval vars], ⟨List.subset_append_left _ _,
      ⟨⟨hcommitted.contract, hsound⟩, hstored⟩, ?_, hkept, ?_, hprogress.flowKeys⟩,
      hprogress.flows.imp_right hrefreshed, ?_⟩
    · rintro window ⟨⟨interval, hinterval, hbounds⟩, hsilvered⟩
      refine ⟨⟨interval, List.mem_append_left _ hinterval, hbounds⟩, ?_⟩
      intro row hrow hcontains transfer hdecoded
      have hold := h.ingested.settled hstored haccepted ⟨interval, hinterval, hbounds⟩ hrow hcontains
      exact hkept (hsilvered row hold hcontains transfer hdecoded)
    · rintro window ⟨hcommits, hsilvered⟩ transfer ht hcontains
      obtain ⟨row, hrow, -, hdecoded⟩ := hsound.decoded transfer ht
      rw [(transferOf_from hdecoded).timestamp] at hcontains
      have hold := h.ingested.settled hstored haccepted hcommits hrow hcontains
      exact hsilvered row hold hcontains transfer hdecoded
    · exact fun hdone' => hrefreshed (hdone hdone')

theorem ChainInvariant.fresh (chain : Chain) (vars : DbtVars) (rpc : ρ) :
    ChainInvariant chain vars [] (fresh rpc) :=
  ⟨.empty vars, by simp [Pipeline.fresh, storedRows], by simp [Pipeline.fresh, storedRows], by simp⟩

theorem Advances.refl (h : ChainInvariant chain vars committed w) :
    Advances chain vars committed committed w w :=
  ⟨List.Subset.refl _, h, fun _ hw => hw, List.Subset.refl _, fun _ _ _ ht _ => ht, List.Subset.refl _⟩

theorem Advances.trans {committed'' : List (Interval Warehouse)} {w'' : World ρ Warehouse}
    {committed' : List (Interval Warehouse)} (h : Advances chain vars committed committed' w w')
    (h' : Advances chain vars committed' committed'' w' w'') :
    Advances chain vars committed committed'' w w'' :=
  ⟨List.Subset.trans h.extended h'.extended, h'.invariant,
    fun window hw => h'.serves window (h.serves window hw), List.Subset.trans h.kept h'.kept,
    fun window hw transfer ht hcontains => h.settled window hw transfer
      (h'.settled window (h.serves window hw) transfer ht hcontains) hcontains,
    List.Subset.trans h.flowKeys h'.flowKeys⟩

theorem afterAttempts_advances (hclient : Honest client chain) (attempts : List (Attempt ρ))
    (h : ChainInvariant chain vars committed w) : ∃ committed',
      Advances chain vars committed committed' w (afterAttempts client vars attempts w) := by
  induction attempts generalizing committed w with
  | nil =>
    exact ⟨committed, .refl h⟩
  | cons attempt attempts ih =>
    obtain ⟨committed', hadvance⟩ := (attempt_effect client vars attempt w).advances hclient h
    obtain ⟨committed'', hrest⟩ := ih hadvance.invariant
    exact ⟨committed'', hadvance.toAdvances.trans hrest⟩

namespace Chain

variable {transfer : Erc20Transfer} {event : LogEvent}

def eventKey (event : LogEvent) : LogKey := (event.chainId, event.transactionHash, event.logIndex)

theorem eventsIn_keys (chain : Chain) (window : Window) :
    ((chain.eventsIn window).map eventKey).Nodup := by
  refine List.Nodup.map_on ?_ (List.nodup_dedup _)
  intro event hevent event' hevent' hkey
  obtain ⟨n, l, hl, -, hok⟩ := mem_eventsIn.mp hevent
  obtain ⟨n', l', hl', -, hok'⟩ := mem_eventsIn.mp hevent'
  simp only [eventKey, Prod.mk.injEq] at hkey
  obtain ⟨rfl, rfl⟩ := chain.unique n n' l l' _ _ hl hl' hok hok' hkey.2.1 hkey.2.2
  rw [hok] at hok'
  exact Except.ok.inj hok'

theorem eventsIn_transferKey (h : event ∈ chain.eventsIn window)
    (hdecoded : transferOf vars ⟨event, 0, 0, 0⟩ = some transfer) :
    transferKey transfer = eventKey event := by
  obtain ⟨n, l, hl, -, hok⟩ := mem_eventsIn.mp h
  have hlowered := (normalizeEvent_from hok).lowered
  rw [(transferOf_from hdecoded).key]
  simp [logKey, stagedLog, eventKey, hlowered]

theorem transfersIn_keys (chain : Chain) (vars : DbtVars) (window : Window) :
    ((chain.transfersIn vars window).map transferKey).Nodup :=
  (chain.eventsIn_keys window).sublist
    (filterMap_keys fun _ hevent _ hdecoded => eventsIn_transferKey hevent hdecoded)

end Chain

variable {transfer : Erc20Transfer}

theorem ExactlyOnce.transfers (h : ExactlyOnce chain committed raw)
    (hwindow : Commits committed window) : (∃ row ∈ raw, window.Contains row.blockTimestampUtc ∧
      (transferOf vars row).map unstamped = some transfer) ↔
        transfer ∈ chain.transfersIn vars window := by
  rw [Chain.transfersIn, List.mem_filterMap]
  constructor
  · rintro ⟨row, hrow, hcontains, hdecoded⟩
    rw [transferOf_unstamped] at hdecoded
    exact ⟨_, (h.events hwindow _).mp ⟨row, hrow, hcontains, rfl⟩, hdecoded⟩
  · rintro ⟨event, hevent, hdecoded⟩
    obtain ⟨row, hrow, hcontains, rfl⟩ := (h.events hwindow event).mpr hevent
    exact ⟨row, hrow, hcontains, by rw [transferOf_unstamped, hdecoded]⟩

theorem unstamped_keys (transfers : List Erc20Transfer) :
    (transfers.map unstamped).map transferKey = transfers.map transferKey := by
  rw [List.map_map]
  rfl

theorem ExactlyOnce.decoded (h : ExactlyOnce chain committed raw) (hraw : RawContract raw)
    (hwindow : Commits committed window) :
    (((raw.filter fun row => window.Contains row.blockTimestampUtc).filterMap
      (transferOf vars)).map unstamped).Perm (chain.transfersIn vars window) := by
  have hkeys : ((((raw.filter fun row => window.Contains row.blockTimestampUtc).filterMap
      (transferOf vars)).map unstamped).map transferKey).Nodup := by
    rw [unstamped_keys]
    exact hraw.decodedKeys vars window
  rw [List.perm_ext_iff_of_nodup hkeys.of_map (chain.transfersIn_keys vars window).of_map]
  intro transfer
  rw [← h.transfers hwindow, List.map_filterMap, List.mem_filterMap]
  constructor
  · rintro ⟨row, hmem, hdecoded⟩
    obtain ⟨hrow, hcontains⟩ := List.mem_filter.mp hmem
    exact ⟨row, hrow, of_decide_eq_true hcontains, hdecoded⟩
  · rintro ⟨row, hrow, hcontains, hdecoded⟩
    exact ⟨row, List.mem_filter.mpr ⟨hrow, decide_eq_true hcontains⟩, hdecoded⟩

theorem Serves.silver (h : ChainInvariant chain vars committed w)
    (hserves : Serves vars committed window w) :
    ((w.warehouse.transfers.filter fun t => window.Contains t.blockTimestampUtc).map unstamped).Perm
      (chain.transfersIn vars window) := by
  have hkeys : ((w.warehouse.transfers.filter fun t => window.Contains t.blockTimestampUtc).map
      unstamped |>.map transferKey).Nodup := by
    rw [unstamped_keys]
    exact h.sound.unique.sublist (List.filter_sublist.map _)
  rw [List.perm_ext_iff_of_nodup hkeys.of_map (chain.transfersIn_keys vars window).of_map]
  intro transfer
  rw [← h.ingested.transfers hserves.commits, List.mem_map]
  constructor
  · rintro ⟨t, ht, rfl⟩
    obtain ⟨row, hrow, hcontains, hdecoded⟩ := (hserves.silvered.mem_iff h.sound).mp ht
    exact ⟨row, hrow, hcontains, by rw [hdecoded]; rfl⟩
  · rintro ⟨row, hrow, hcontains, hdecoded⟩
    obtain ⟨t, ht, rfl⟩ := Option.map_eq_some_iff.mp hdecoded
    exact ⟨t, (hserves.silvered.mem_iff h.sound).mpr ⟨row, hrow, hcontains, ht⟩, rfl⟩

def atTime (t : Instant) : Window := ⟨t, t + 1⟩

theorem ChainInvariant.genuine (h : ChainInvariant chain vars committed w)
    (ht : transfer ∈ w.warehouse.transfers) :
    unstamped transfer ∈ chain.transfersIn vars (atTime transfer.blockTimestampUtc) := by
  obtain ⟨row, hrow, -, hdecoded⟩ := h.sound.decoded transfer ht
  obtain ⟨interval, -, n, l, hl, -, hnormal⟩ := h.ingested.sound row hrow
  have htime : transfer.blockTimestampUtc = chain.time n := by
    rw [(transferOf_from hdecoded).timestamp]
    change row.blockTimestampUtc = _
    exact Chain.row_timestamp hl hnormal
  rw [Chain.transfersIn, List.mem_filterMap]
  refine ⟨row.toLogEvent, ?_, by rw [← transferOf_unstamped, hdecoded]; rfl⟩
  refine Chain.mem_eventsIn.mpr ⟨n, l, hl, ?_, row_event hnormal⟩
  rw [htime]
  exact ⟨le_refl _, Int.lt_add_one_iff.mpr le_rfl⟩

theorem completes_serves (hclient : Honest client chain) (before after : List (Attempt ρ))
    (attempt : Attempt ρ) (h : ChainInvariant chain vars committed w)
    (hdone : completes client vars attempt (afterAttempts client vars before w) = true) :
    ∃ committed', ChainInvariant chain vars committed'
        (afterAttempts client vars (before ++ attempt :: after) w) ∧
      Serves vars committed' attempt.window
        (afterAttempts client vars (before ++ attempt :: after) w) := by
  obtain ⟨_, hbefore⟩ := afterAttempts_advances hclient before h
  obtain ⟨_, hattempt⟩ := (attempt_effect client vars attempt _).advances hclient hbefore.invariant
  obtain ⟨committed', hafter⟩ := afterAttempts_advances hclient after hattempt.invariant
  have hsplit : afterAttempts client vars (before ++ attempt :: after) w =
      afterAttempts client vars after
        (attempt.run client vars (afterAttempts client vars before w)).2 := by
    simp [afterAttempts, history]
  rw [hsplit]
  exact ⟨committed', hafter.invariant, hafter.serves _ (hattempt.completed hdone).toServes⟩

structure SilverOfChain (chain : Chain) (vars : DbtVars) (transfers : List Erc20Transfer) : Prop where
  unique : (transfers.map transferKey).Nodup
  genuine : ∀ transfer ∈ transfers,
    unstamped transfer ∈ chain.transfersIn vars (atTime transfer.blockTimestampUtc)

theorem silver_serves_chain (chain : Chain) (client : EthereumClient ρ) (hclient : Honest client chain)
    (vars : DbtVars) (rpc : ρ) :
    (∀ attempts : List (Attempt ρ), SilverOfChain chain vars
      (afterAttempts client vars attempts (fresh rpc)).warehouse.transfers) ∧
    ∀ (before after : List (Attempt ρ)) (attempt : Attempt ρ),
      completes client vars attempt (afterAttempts client vars before (fresh rpc)) = true →
      (((afterAttempts client vars (before ++ attempt :: after) (fresh rpc)).warehouse.transfers.filter
        fun t => attempt.window.Contains t.blockTimestampUtc).map unstamped).Perm
          (chain.transfersIn vars attempt.window) := by
  constructor
  · intro attempts
    obtain ⟨committed, hadvance⟩ := afterAttempts_advances hclient attempts
      (ChainInvariant.fresh chain vars rpc)
    exact ⟨hadvance.invariant.sound.unique, fun transfer ht => hadvance.invariant.genuine ht⟩
  · intro before after attempt hdone
    obtain ⟨committed, hinvariant, hserves⟩ := completes_serves hclient before after attempt
      (ChainInvariant.fresh chain vars rpc) hdone
    exact hserves.silver hinvariant

def depositAttempt (failing : DbtNode → Bool) : Attempt Unit where
  settings := defaultSettings
  now := 0
  faults := noFaults
  process := ⟨none, failing, false, 0⟩
  start := minutes 60
  stop := minutes 120
  rpc := ()

def failingSilver : Attempt Unit := depositAttempt (· = .erc20Transfers)

def failingGold : Attempt Unit := depositAttempt (· = .tetherTreasuryFlow)

theorem depositAttempt_completes : completes depositProvider projectVars (depositAttempt fun _ => false)
    (afterAttempts depositProvider projectVars [failingSilver] (fresh ())) = true ∧
    (depositInBlockSeven.transfersIn projectVars ⟨minutes 60, minutes 120⟩).length = 1 := by
  decide +kernel

theorem silver_serves_chain_deposit :
    (depositInBlockSeven.transfersIn projectVars ⟨minutes 60, minutes 120⟩).length = 1 ∧
      (((afterAttempts depositProvider projectVars ([failingSilver] ++ depositAttempt (fun _ => false) ::
        [failingGold]) (fresh ())).warehouse.transfers.filter
          fun t => Window.Contains ⟨minutes 60, minutes 120⟩ t.blockTimestampUtc).map unstamped).Perm
        (depositInBlockSeven.transfersIn projectVars ⟨minutes 60, minutes 120⟩) :=
  ⟨depositAttempt_completes.2, (silver_serves_chain depositInBlockSeven depositProvider
    depositProvider_honest projectVars ()).2 [failingSilver] [failingGold] (depositAttempt fun _ => false)
    depositAttempt_completes.1⟩

end EthereumLogs.Pipeline
