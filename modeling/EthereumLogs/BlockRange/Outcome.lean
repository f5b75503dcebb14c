import EthereumLogs.BlockRange.Interval
import Mathlib.Tactic.IntervalCases

namespace EthereumLogs.BlockRange
open Python Effect

variable {σ σ' : Type} {time : ℕ → Instant}

structure TrueOrRpcError (client : BlockLookupClient σ) (time : ℕ → Instant) (head : ℕ) :
    Prop where
  finalized : ∀ s block, (client.ethGetFinalizedBlock s).1 = .ok block →
    blockNumberFromPayload block = .ok head ∧ blockTimestampFromPayload block = .ok (time head)
  lookup : ∀ n : ℕ, n ≤ head → ∀ s, Reports time n (client.ethGetBlockByNumber n s).1 ∨
    ∃ error, (client.ethGetBlockByNumber n s).1 = .error (.rpc error)

structure LimitedProvider (client : BlockLookupClient σ) (time : ℕ → Instant) (head m : ℕ) :
    Prop where
  finalized : ∀ s, ∃ block, (client.ethGetFinalizedBlock s).1 = .ok block ∧
    blockNumberFromPayload block = .ok head ∧ blockTimestampFromPayload block = .ok (time head)
  served : ∀ n : ℕ, m ≤ n → n ≤ head → ∀ s, Reports time n (client.ethGetBlockByNumber n s).1
  refused : ∀ n : ℕ, n < m → ∀ s, ∃ detail,
    (client.ethGetBlockByNumber n s).1 = .error (.rpc (.nonRetryable detail)) ∧
      detail.method = "eth_getBlockByNumber" ∧ detail.httpStatus = some 403

theorem TrueOrRpcError.answers {client : BlockLookupClient σ} {head : ℕ}
    (h : TrueOrRpcError client time head) :
    Answers client time head (fun _ => True) (fun _ e => e.isRpcError = true) := by
  constructor
  intro n hn hle s
  lift n to ℕ using hn
  rcases h.lookup n (by omega) s with hreport | ⟨error, he⟩
  · exact .inl ⟨hreport, trivial⟩
  · exact .inr ⟨_, he, rfl⟩

theorem LimitedProvider.answers {client : BlockLookupClient σ} {head m : ℕ}
    (h : LimitedProvider client time head m) :
    Answers client time head (fun n => (m : ℤ) ≤ n)
      (fun n e => n < m ∧ isForbiddenBlockLookup e = true) := by
  constructor
  intro n hn hle s
  lift n to ℕ using hn
  rcases lt_or_ge n m with hlt | hge
  · obtain ⟨detail, he, hmethod, hstatus⟩ := h.refused n hlt s
    exact .inr ⟨_, he, by omega, by simp [isForbiddenBlockLookup, hmethod, hstatus]⟩
  · exact .inl ⟨h.served n hge (by omega) s, by omega⟩

theorem TrueOrRpcError.found {client : BlockLookupClient σ} {head : ℕ}
    (h : TrueOrRpcError client time head) (hmono : StrictMono time) {start stop : Datetime} {s : σ}
    {range : IntervalBlockRange}
    (hok : (resolveIntervalBlockRange client start stop s).1 = .ok range) :
    Found time head start.instant stop.instant range := by
  have hhead : ∀ t number ts, Finalized client s t number ts →
      number = head ∧ ts = timeAt time head := by
    rintro t number ts ⟨block, hblock, hnumber, hts⟩
    obtain ⟨hnumber', hts'⟩ := h.finalized s block (by rw [hblock])
    rw [hnumber] at hnumber'
    rw [hts] at hts'
    cases hnumber'
    cases hts'
    exact ⟨rfl, rfl⟩
  obtain ⟨t, number, ts, hfin, hfound⟩ := resolve_found hmono (fun t number ts hfin => by
    obtain ⟨rfl, rfl⟩ := hhead t number ts hfin
    exact ⟨by omega, rfl, _, h.answers⟩) hok
  obtain ⟨rfl, -⟩ := hhead t number ts hfin
  exact hfound

structure ExactlyCovers (time : ℕ → Instant) (head : ℕ) (start stop : Instant)
    (range : IntervalBlockRange) : Prop where
  blocks : ∀ n : ℕ, range.fromBlock ≤ n ∧ n ≤ range.toBlock ↔ start ≤ time n ∧ time n < stop
  endExclusive : range.endExclusiveBlock = range.toBlock + 1
  finalized : range.endExclusiveBlock ≤ head

theorem Found.covers {head : ℕ} {start stop : Instant} {range : IntervalBlockRange}
    (h : Found time head start stop range) : ExactlyCovers time head start stop range := by
  have hlast := h.last
  refine ⟨?_, by omega, h.next.le_head⟩
  intro n
  have hstart : start ≤ time n ↔ range.fromBlock ≤ n := h.first.iff_le n (by omega)
  have hstop : stop ≤ time n ↔ range.endExclusiveBlock ≤ n := h.next.iff_le n (by omega)
  rw [hstart, ← not_le, hstop]
  omega

def everyTwelveSeconds (n : ℕ) : Instant := 12 * n * microsPerSecond

theorem everyTwelveSeconds_strictMono : StrictMono everyTwelveSeconds := by
  intro a b hab
  simp only [everyTwelveSeconds, microsPerSecond, Instant]
  omega

def blockPayload (n : ℕ) : JsonObject :=
  [("number", .str (hex n)), ("timestamp", .str (hex (12 * n)))]

def forbidden : Exc :=
  .rpc (.nonRetryable ⟨"eth_getBlockByNumber", "forbidden", false, none, some 403⟩)

def servingFrom (head m : ℕ) : BlockLookupClient Unit where
  ethGetBlockByNumber n := if n < m then throw forbidden else pure (blockPayload n.toNat)
  ethGetFinalizedBlock := pure (blockPayload head)

theorem servingFrom_limited : LimitedProvider (servingFrom 4 1) everyTwelveSeconds 4 1 := by
  refine ⟨fun s => ⟨blockPayload 4, rfl, by decide, by decide⟩, ?_, ?_⟩
  · intro n hn hle s
    interval_cases n
    · exact ⟨blockPayload 1, rfl, by decide⟩
    · exact ⟨blockPayload 2, rfl, by decide⟩
    · exact ⟨blockPayload 3, rfl, by decide⟩
    · exact ⟨blockPayload 4, rfl, by decide⟩
  · intro n hn s
    interval_cases n
    exact ⟨_, rfl, rfl, rfl⟩

theorem LimitedProvider.trueOrRpcError {client : BlockLookupClient σ} {head m : ℕ}
    (h : LimitedProvider client time head m) : TrueOrRpcError client time head := by
  constructor
  · intro s block hblock
    obtain ⟨block', hblock', hnumber, hts⟩ := h.finalized s
    rw [hblock] at hblock'
    cases hblock'
    exact ⟨hnumber, hts⟩
  · intro n hle s
    rcases lt_or_ge n m with hlt | hge
    · obtain ⟨detail, he, -⟩ := h.refused n hlt s
      exact .inr ⟨_, he⟩
    · exact .inl (h.served n hge hle s)

theorem resolveIntervalBlockRange_exact (time : ℕ → Instant) (hmono : StrictMono time) :
    (∀ (σ : Type) (client : BlockLookupClient σ) (head : ℕ) (start stop : Datetime) (s : σ)
      (range : IntervalBlockRange), TrueOrRpcError client time head →
      (resolveIntervalBlockRange client start stop s).1 = .ok range →
      ExactlyCovers time head start.instant stop.instant range) ∧
    (∀ (σ σ' : Type) (client : BlockLookupClient σ) (client' : BlockLookupClient σ')
      (head head' : ℕ) (a b c : Datetime) (s : σ) (s' : σ') (range range' : IntervalBlockRange),
      TrueOrRpcError client time head → TrueOrRpcError client' time head' →
      (resolveIntervalBlockRange client a b s).1 = .ok range →
      (resolveIntervalBlockRange client' b c s').1 = .ok range' →
      range.endExclusiveBlock = range'.fromBlock ∧ range.toBlock + 1 = range'.fromBlock) := by
  constructor
  · intro σ client head start stop s range hclient hok
    exact (hclient.found hmono hok).covers
  · intro σ σ' client client' head head' a b c s s' range range' hclient hclient' hok hok'
    have hfound := hclient.found hmono hok
    have hfound' := hclient'.found hmono hok'
    have hadjacent := hfound.next.unique hfound'.first
    have hlast := hfound.last
    exact ⟨hadjacent, by omega⟩

def secondsUtc (seconds : Int) : Datetime := .utc (seconds * microsPerSecond)

def earlyRange : IntervalBlockRange := ⟨12000000, 30000000, 4, 48000000, 1, 3, 2⟩
def lateRange : IntervalBlockRange := ⟨30000000, 48000000, 4, 48000000, 3, 4, 3⟩

theorem resolveIntervalBlockRange_exact_servingFrom :
    ExactlyCovers everyTwelveSeconds 4 12000000 30000000 earlyRange ∧
      earlyRange.endExclusiveBlock = lateRange.fromBlock := by
  have hclient := servingFrom_limited.trueOrRpcError
  have hearly : (resolveIntervalBlockRange (servingFrom 4 1) (secondsUtc 12) (secondsUtc 30) ()).1 =
      .ok earlyRange := by decide +kernel
  have hlate : (resolveIntervalBlockRange (servingFrom 4 1) (secondsUtc 30) (secondsUtc 48) ()).1 =
      .ok lateRange := by decide +kernel
  obtain ⟨hexact, hadjacent⟩ :=
    resolveIntervalBlockRange_exact everyTwelveSeconds everyTwelveSeconds_strictMono
  constructor
  · exact hexact _ _ _ _ _ _ _ hclient hearly
  · exact (hadjacent _ _ _ _ _ _ _ _ _ _ _ _ _ hclient hclient hearly hlate).1

inductive LimitedResult (time : ℕ → Instant) (m : ℕ) (start stop : Instant) :
    Except Exc IntervalBlockRange → Prop
  | resolved (range : IntervalBlockRange) (hreach : ¬ (0 < m ∧ start < time m)) (n : ℕ)
      (hn : start ≤ time n ∧ time n < stop) : LimitedResult time m start stop (.ok range)
  | window (hshort : 0 < m ∧ start < time m) :
      LimitedResult time m start stop (.error BlockRange.windowTooShort)
  | empty (hreach : ¬ (0 < m ∧ start < time m)) (hnone : ¬ ∃ n, start ≤ time n ∧ time n < stop) :
      LimitedResult time m start stop (.error emptyRange)

variable {head m : ℕ} {start stop : Instant}

theorem LowReached.reaches (hmono : StrictMono time) {low : ℤ}
    (h : LowReached time (fun n => (m : ℤ) ≤ n) start head low) : ¬ (0 < m ∧ start < time m) := by
  rintro ⟨hpos, hlate⟩
  have hacc : (m : ℤ) ≤ low := h.accessible
  rcases h.early with h0 | hearly
  · omega
  · have hle : time m ≤ timeAt time low := timeAt_le hmono hacc
    exact absurd hlate (not_lt.mpr (hle.trans hearly))

theorem Refused.limited (hmono : StrictMono time) {e : Exc}
    (h : Refused time (fun n => (m : ℤ) ≤ n) (fun n e => n < m ∧ isForbiddenBlockLookup e = true)
      start stop head e) : LimitedResult time m start stop (.error e) := by
  cases h with
  | window b h0 hle hacc hlate e hrefusal hforbidden =>
    have hb : b = m := by omega
    subst hb
    exact .window ⟨by omega, hlate⟩
  | empty low hlow hnone =>
    refine .empty (hlow.reaches hmono) ?_
    rintro ⟨n, hn⟩
    exact hnone n (by omega) hn
  | lookup e n hrefusal hforbidden => simp [hforbidden] at hrefusal
  | search e low n hacc hle hrefusal => omega

theorem Found.inhabited {range : IntervalBlockRange} (h : Found time head start stop range) :
    ∃ n, start ≤ time n ∧ time n < stop := by
  have hnonempty := h.nonempty
  have hfirst := h.first.nonneg
  refine ⟨range.fromBlock.toNat, (h.covers.blocks _).mp ?_⟩
  omega

theorem LimitedProvider.result {client : BlockLookupClient σ} (hmono : StrictMono time)
    (hm : m ≤ head) (h : LimitedProvider client time head m) (hlt : start < stop)
    (hfinal : stop ≤ time head) (t : σ) :
    LimitedResult time m start stop
      (searchInterval client start stop head (time head) ⟨t, seedCache head (time head)⟩).1 := by
  have hhead : (m : ℤ) ≤ (head : ℤ) := by omega
  have hspec := searchInterval_spec hmono h.answers (by omega)
    (seedCache_true hhead t) (seedCache_cached _ _ t) hlt hfinal
  change SearchedInterval time _ _ start stop head
    (searchInterval client start stop head (time head) ⟨t, seedCache head (time head)⟩).1 at hspec
  generalize (searchInterval client start stop head (time head)
    ⟨t, seedCache head (time head)⟩).1 = r at hspec ⊢
  cases r with
  | ok range =>
    obtain ⟨hfound, low, hlow⟩ := hspec.found range rfl
    obtain ⟨n, hn⟩ := hfound.inhabited
    exact .resolved range (hlow.reaches hmono) n hn
  | error e => exact (hspec.refused e rfl).limited hmono

structure CompleteOutcome (time : ℕ → Instant) (head m : ℕ) (start stop : Instant)
    (r : Except Exc IntervalBlockRange) : Prop where
  notFinalized : r = .error intervalNotFinalized ↔ time head < stop
  tooShort : ¬ time head < stop → (r = .error windowTooShort ↔ 0 < m ∧ start < time m)
  empty : ¬ time head < stop → ¬ (0 < m ∧ start < time m) →
    (r = .error emptyRange ↔ ¬ ∃ n, start ≤ time n ∧ time n < stop)
  resolved : ¬ time head < stop → ¬ (0 < m ∧ start < time m) →
    (∃ n, start ≤ time n ∧ time n < stop) → ∃ range, r = .ok range
  noForbidden : ∀ error, r = .error (.rpc error) → error.detail.httpStatus ≠ some 403
  servedResolves : ¬ time head < stop → (∃ n, start ≤ time n ∧ time n < stop) →
    time m ≤ start → ∃ range, r = .ok range

theorem tooShort_ne_empty : BlockRange.windowTooShort ≠ emptyRange := by decide

theorem LimitedResult.complete {r : Except Exc IntervalBlockRange} (hfinal : stop ≤ time head)
    (h : LimitedResult time m start stop r) : CompleteOutcome time head m start stop r := by
  have hnot : ¬ time head < stop := not_lt.mpr hfinal
  cases h with
  | resolved range hreach n hn =>
    have hinhabited : ∃ n, start ≤ time n ∧ time n < stop := ⟨n, hn⟩
    constructor
    case notFinalized => simp [hnot]
    case tooShort => simp [hreach]
    case empty =>
      intro _ _
      constructor
      · intro herror
        cases herror
      · intro hnone
        exact absurd hinhabited hnone
    case resolved => exact fun _ _ _ => ⟨range, rfl⟩
    case noForbidden => simp
    case servedResolves => exact fun _ _ _ => ⟨range, rfl⟩
  | window hshort =>
    constructor
    case notFinalized => simp [hnot, windowTooShort, intervalNotFinalized]
    case tooShort => simp [hshort]
    case empty => exact fun _ hreach => absurd hshort hreach
    case resolved => exact fun _ hreach => absurd hshort hreach
    case noForbidden => simp [windowTooShort]
    case servedResolves =>
      intro _ _ hserved
      exact absurd hshort.2 (not_lt.mpr hserved)
  | empty hreach hnone =>
    have hne : emptyRange ≠ windowTooShort := tooShort_ne_empty.symm
    constructor
    case notFinalized => simp [hnot, emptyRange, intervalNotFinalized]
    case tooShort => simp [hreach, hne]
    case empty => simp [hnone]
    case resolved => exact fun _ _ hinhabited => absurd hinhabited hnone
    case noForbidden => simp [emptyRange]
    case servedResolves => exact fun _ hinhabited => absurd hinhabited hnone

def firstDayInTokyo : Datetime := ⟨datetimeMin, some (9 * microsPerHour)⟩

theorem resolveIntervalBlockRange_below_year_one :
    ¬ ∀ (time : ℕ → Instant), StrictMono time → ∀ (client : BlockLookupClient Unit) (head m : ℕ),
      m ≤ head → LimitedProvider client time head m → ∀ start stop : Datetime,
      start.isAware = true → stop.isAware = true → start.instant < stop.instant →
      ∀ s, CompleteOutcome time head m start.instant stop.instant
        (resolveIntervalBlockRange client start stop s).1 := by
  intro hclaim
  have hlimited := servingFrom_limited
  have hresult : (resolveIntervalBlockRange (servingFrom 4 1) firstDayInTokyo
      (secondsUtc 30) ()).1 = .error dateOutOfRange := by decide +kernel
  have houtcome := hclaim everyTwelveSeconds everyTwelveSeconds_strictMono (servingFrom 4 1) 4 1
    (by decide) hlimited firstDayInTokyo (secondsUtc 30) rfl rfl (by decide) ()
  rw [hresult] at houtcome
  have hshort := (houtcome.tooShort (by decide)).mpr (by decide)
  cases hshort

theorem resolveIntervalBlockRange_outcome (time : ℕ → Instant) (hmono : StrictMono time)
    (client : BlockLookupClient σ) (head m : ℕ) (hm : m ≤ head)
    (hclient : LimitedProvider client time head m) (start stop : Datetime)
    (hstart : start.isAware = true) (hstop : stop.isAware = true)
    (hstartRange : start.Representable) (hstopRange : stop.Representable)
    (hlt : start.instant < stop.instant) (s : σ) :
    CompleteOutcome time head m start.instant stop.instant
      (resolveIntervalBlockRange client start stop s).1 := by
  obtain ⟨block, hblock, hnumber, hts⟩ := hclient.finalized s
  rw [resolve_eq (fun _ => astimezone_aware _ hstart hstartRange)
    (fun _ => astimezone_aware _ hstop hstopRange) hlt ⟨block, Prod.ext hblock rfl, hnumber, hts⟩]
  split_ifs with hfinal
  · constructor
    case notFinalized => simp [hfinal]
    case tooShort => exact fun hnot => absurd hfinal hnot
    case empty => exact fun hnot => absurd hfinal hnot
    case resolved => exact fun hnot => absurd hfinal hnot
    case noForbidden => simp [intervalNotFinalized]
    case servedResolves => exact fun hnot => absurd hfinal hnot
  · have hreached : stop.instant ≤ time head := not_lt.mp hfinal
    exact (hclient.result hmono hm hlt hreached _).complete hreached

theorem resolveIntervalBlockRange_outcome_servingFrom :
    CompleteOutcome everyTwelveSeconds 4 1 12000000 30000000
      (resolveIntervalBlockRange (servingFrom 4 1) (secondsUtc 12) (secondsUtc 30) ()).1 :=
  resolveIntervalBlockRange_outcome everyTwelveSeconds everyTwelveSeconds_strictMono
    (servingFrom 4 1) 4 1 (by decide) servingFrom_limited (secondsUtc 12) (secondsUtc 30) rfl rfl
    (by decide) (by decide) (by decide) ()

end EthereumLogs.BlockRange
