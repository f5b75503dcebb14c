import EthereumLogs.BlockRange.Outcome
import EthereumLogs.BlockRange.Simulation
import Mathlib.Data.List.Nodup

namespace EthereumLogs.BlockRange
open Python Effect Boundary

abbrev BlockRequests := Trace ℤ Exc JsonObject

variable {σ : Type}

def recordedLookups (client : BlockLookupClient σ) : BlockLookupClient (σ × BlockRequests) where
  ethGetBlockByNumber n := record n (client.ethGetBlockByNumber n)
  ethGetFinalizedBlock := Eff.zoom Prod.fst (fun t s => (s, t.2)) client.ethGetFinalizedBlock

theorem recordedLookups_simulates (client : BlockLookupClient σ) :
    LookupsSimulate (fun s (t : σ × BlockRequests) => s = t.1) client (recordedLookups client) := by
  constructor
  · exact fun n => simulates_record n _
  · rintro s t rfl
    exact ⟨rfl, rfl⟩

def asked (l : Lookup (σ × BlockRequests)) : List ℤ := l.client.2.map Prod.fst

structure Sparing (head bound : ℤ) (numbers : List ℤ) : Prop where
  nodup : numbers.Nodup
  head_fresh : head ∉ numbers
  above : ∀ k ∈ numbers, bound ≤ k

theorem sparing_nil (head bound : ℤ) : Sparing head bound [] := ⟨List.nodup_nil, by simp, by simp⟩

theorem Sparing.append {head bound n : ℤ} {numbers : List ℤ} (h : Sparing head bound numbers)
    (hhead : head ≠ n) (hfresh : n ∉ numbers) (hbound : bound ≤ n) :
    Sparing head bound (numbers ++ [n]) := by
  refine ⟨List.Nodup.append h.nodup (List.nodup_singleton n) (by simpa using hfresh), ?_, ?_⟩
  · simp [h.head_fresh, hhead]
  · intro k hk
    rcases List.mem_append.mp hk with hk | hk
    · exact h.above k hk
    · rw [List.mem_singleton.mp hk]
      exact hbound

structure Frugal (head bound : ℤ) (l : Lookup (σ × BlockRequests)) : Prop where
  sparing : Sparing head bound (asked l)
  head_cached : Cached l head

def CachedFrom (low : ℤ) (l : Lookup (σ × BlockRequests)) : Prop :=
  ∀ k ∈ asked l, low ≤ k → Cached l k

variable {client : BlockLookupClient σ} {time : ℕ → Instant} {accessible : ℤ → Prop}
  {refusal : ℤ → Exc → Prop} {head bound low known left right oldestOk n : ℤ} {target : Instant}
  {l l' : Lookup (σ × BlockRequests)}

theorem CachedFrom.weaken {high : ℤ} (h : CachedFrom low l) (hle : low ≤ high) : CachedFrom high l :=
  fun k hk hhigh => h k hk (hle.trans hhigh)

structure AskedFor (n : ℤ) (l : Lookup (σ × BlockRequests)) (r : Except Exc Instant)
    (l' : Lookup (σ × BlockRequests)) : Prop where
  hit : Cached l n → asked l' = asked l ∧ ∃ t, r = .ok t
  miss : ¬ Cached l n → asked l' = asked l ++ [n]
  grows : ∀ k, Cached l k → Cached l' k
  value : ∀ t, r = .ok t → Cached l' n

theorem blockTimestamp_asked (client : BlockLookupClient σ) (n : ℤ)
    (l : Lookup (σ × BlockRequests)) :
    Eff.wp (blockTimestamp (recordedLookups client) n) l (AskedFor n l) := by
  simp only [blockTimestamp, Eff.wp_bind, Eff.wp_get]
  cases hcache : l.cache n with
  | some t =>
    rw [Eff.wp_pure]
    have hcached : Cached l n := ⟨t, hcache⟩
    exact ⟨fun _ => ⟨rfl, t, rfl⟩, fun hmiss => absurd hcached hmiss, fun _ h => h, fun _ _ => hcached⟩
  | none =>
    have hmiss : ¬ Cached l n := by simp [Cached, hcache]
    simp only [Eff.wp_bind, onClient, Eff.wp_zoom, Eff.wp_ofExcept, Eff.wp_modify, Eff.wp_pure,
      recordedLookups, wp_record]
    rw [Eff.wp_iff]
    rcases (client.ethGetBlockByNumber n l.client.1).1 with e | block
    · exact ⟨fun h => absurd h hmiss, fun _ => by simp [asked], fun _ h => h, by simp⟩
    · dsimp only
      cases blockTimestampFromPayload block with
      | error e => exact ⟨fun h => absurd h hmiss, fun _ => by simp [asked], fun _ h => h, by simp⟩
      | ok t =>
        refine ⟨fun h => absurd h hmiss, fun _ => by simp [asked, Lookup.store], ?_, ?_⟩
        · rintro k ⟨u, hu⟩
          by_cases hk : k = n
          · exact ⟨t, by simp [Lookup.store, hk]⟩
          · exact ⟨u, by simpa [Lookup.store, hk] using hu⟩
        · exact fun _ _ => ⟨t, by simp [Lookup.store]⟩

theorem AskedFor.frugal {r : Except Exc Instant} (h : AskedFor n l r l') (hl : Frugal head bound l)
    (hbound : bound ≤ n) (hfresh : ¬ Cached l n → n ∉ asked l) : Frugal head bound l' := by
  refine ⟨?_, h.grows head hl.head_cached⟩
  by_cases hn : Cached l n
  · rw [(h.hit hn).1]
    exact hl.sparing
  · rw [h.miss hn]
    have hne : head ≠ n := fun he => hn (he ▸ hl.head_cached)
    exact hl.sparing.append hne (hfresh hn) hbound

theorem AskedFor.cachedFrom {t : Instant} (h : AskedFor n l (.ok t) l') (hl : CachedFrom low l) :
    CachedFrom low l' := by
  intro k hk hle
  by_cases hn : Cached l n
  · rw [(h.hit hn).1] at hk
    exact h.grows k (hl k hk hle)
  · rw [h.miss hn] at hk
    rcases List.mem_append.mp hk with hk | hk
    · exact h.grows k (hl k hk hle)
    · rw [List.mem_singleton.mp hk]
      exact h.value t rfl

theorem AskedFor.missed {e : Exc} (h : AskedFor n l (.error e) l') : ¬ Cached l n := by
  intro hcached
  obtain ⟨-, t, ht⟩ := h.hit hcached
  cases ht

-- a refused number stays out of the cache, so the later phases must stay above it
theorem AskedFor.cachedAbove {e : Exc} (h : AskedFor n l (.error e) l') (hl : CachedFrom low l)
    (hle : low ≤ n) : CachedFrom (n + 1) l' := by
  intro k hk hlt
  rw [h.miss h.missed] at hk
  rcases List.mem_append.mp hk with hk | hk
  · exact h.grows k (hl k hk (by omega))
  · have := List.mem_singleton.mp hk
    omega

structure FrugalFirst (head bound low : ℤ) (r : Except Exc ℤ) (l' : Lookup (σ × BlockRequests)) :
    Prop where
  frugal : Frugal head bound l'
  value : ∀ b, r = .ok b → low ≤ b ∧ b ≤ head + 1 ∧ CachedFrom low l'

theorem FrugalFirst.raised {e : Exc} (hl : Frugal head bound l) :
    FrugalFirst head bound low (.error e) l := ⟨hl, by simp⟩

theorem FrugalFirst.found {b : ℤ} (hl : Frugal head bound l) (hle : low ≤ b) (hhead : b ≤ head + 1)
    (hfrom : CachedFrom low l) : FrugalFirst head bound low (.ok b) l := by
  refine ⟨hl, ?_⟩
  intro b' hb'
  cases hb'
  exact ⟨hle, hhead, hfrom⟩

theorem firstBlockLoop_frugal (hbound : bound ≤ low) (left right result : ℤ)
    (l : Lookup (σ × BlockRequests)) (hl : Frugal head bound l) (hfrom : CachedFrom low l)
    (hleft : low ≤ left) (hright : right ≤ head) (hresult : low ≤ result)
    (hresultHead : result ≤ head + 1) :
    Eff.wp (firstBlockLoop (recordedLookups client) target left right result) l
      (FrugalFirst head bound low) := by
  rw [firstBlockLoop]
  split_ifs with hle
  · obtain ⟨hml, hmr⟩ := mid_bounds hle
    have hmid : low ≤ (left + right) / 2 := hleft.trans hml
    have hfresh : ¬ Cached l ((left + right) / 2) → (left + right) / 2 ∉ asked l :=
      fun hmiss hmem => hmiss (hfrom _ hmem hmid)
    apply Eff.wp_seq (blockTimestamp_asked client _ l)
    · intro midTs l' hlook
      have hl' := hlook.frugal hl (hbound.trans hmid) hfresh
      have hfrom' := hlook.cachedFrom hfrom
      split_ifs
      · exact firstBlockLoop_frugal hbound _ _ _ l' hl' hfrom' hleft (by omega) hmid (by omega)
      · exact firstBlockLoop_frugal hbound _ _ _ l' hl' hfrom' (by omega) hright hresult hresultHead
    · intro e l' hlook
      exact .raised (hlook.frugal hl (hbound.trans hmid) hfresh)
  · rw [Eff.wp_pure]
    exact .found hl hresult hresultHead hfrom
termination_by (right + 1 - left).toNat
decreasing_by all_goals omega

theorem findFirstBlock_frugal (hbound : bound ≤ low) (hle : low ≤ head + 1) (hl : Frugal head bound l)
    (hfrom : CachedFrom low l) :
    Eff.wp (findFirstBlockAtOrAfter (recordedLookups client) (.utc target) low (some head)) l
      (FrugalFirst head bound low) := by
  simp only [findFirstBlockAtOrAfter, Eff.wp_bind, ensureUtc, astimezone_utc, Eff.wp_ofExcept,
    Eff.wp_pure]
  split_ifs
  · rw [Eff.wp_throw]
    exact .raised hl
  · rw [Eff.wp_throw]
    exact .raised hl
  · rw [Eff.wp_pure]
    exact .found hl hle le_rfl hfrom
  · exact firstBlockLoop_frugal hbound low head (head + 1) l hl hfrom le_rfl le_rfl hle le_rfl

structure FrugalLow (head bound : ℤ) (r : Except Exc ℤ) (l' : Lookup (σ × BlockRequests)) :
    Prop where
  frugal : Frugal head bound l'
  value : ∀ b, r = .ok b → bound ≤ b ∧ b ≤ head ∧ CachedFrom b l' ∧ Cached l' b

theorem FrugalLow.raised {e : Exc} (hl : Frugal head bound l) : FrugalLow head bound (.error e) l :=
  ⟨hl, by simp⟩

theorem FrugalLow.found {b : ℤ} (hl : Frugal head bound l) (hle : bound ≤ b) (hhead : b ≤ head)
    (hfrom : CachedFrom b l) (hcached : Cached l b) : FrugalLow head bound (.ok b) l := by
  refine ⟨hl, ?_⟩
  intro b' hb'
  cases hb'
  exact ⟨hle, hhead, hfrom, hcached⟩

theorem oldestAccessibleLoop_frugal (client : BlockLookupClient σ) (left right oldestOk : ℤ)
    (l : Lookup (σ × BlockRequests)) (hl : Frugal head bound l) (hfrom : CachedFrom left l) (hbound : bound ≤ left)
    (hok : Cached l oldestOk) (hleft : left ≤ oldestOk) (hright : right ≤ oldestOk)
    (hhead : oldestOk ≤ head) :
    Eff.wp (oldestAccessibleLoop (recordedLookups client) left right oldestOk) l
      (FrugalLow head bound) := by
  rw [oldestAccessibleLoop]
  split_ifs with hle
  · obtain ⟨hml, hmr⟩ := mid_bounds hle
    have hfresh : ¬ Cached l ((left + right) / 2) → (left + right) / 2 ∉ asked l :=
      fun hmiss hmem => hmiss (hfrom _ hmem hml)
    apply Eff.wp_attempt_seq (blockTimestamp_asked client _ l)
    rintro (exc | t) l' hlook
    · have hl' := hlook.frugal hl (hbound.trans hml) hfresh
      dsimp only
      split_ifs
      · have hne : (left + right) / 2 ≠ oldestOk := fun he => hlook.missed (he ▸ hok)
        exact oldestAccessibleLoop_frugal client _ _ _ l' hl' (hlook.cachedAbove hfrom hml) (by omega)
          (hlook.grows _ hok) (by omega) hright hhead
      · rw [Eff.wp_throw]
        exact .raised hl'
    · have hl' := hlook.frugal hl (hbound.trans hml) hfresh
      exact oldestAccessibleLoop_frugal client _ _ _ l' hl' (hlook.cachedFrom hfrom) hbound
        (hlook.value t rfl) hml (by omega) (by omega)
  · rw [Eff.wp_pure]
    exact .found hl (hbound.trans hleft) hhead (hfrom.weaken hleft) hok
termination_by (right + 1 - left).toNat
decreasing_by all_goals omega

theorem oldestAccessible_frugal {failed : ℤ} (hl : Frugal head bound l)
    (hfrom : CachedFrom (failed + 1) l) (hbound : bound ≤ failed) (hlt : failed < known)
    (hknown : known ≤ head) (hcached : Cached l known) :
    Eff.wp (do
        let oldestAccessible ← findOldestAccessibleBlock (recordedLookups client) failed known
        let oldestTs ← blockTimestamp (recordedLookups client) oldestAccessible
        if oldestTs > target then throw windowTooShort else pure oldestAccessible) l
      (FrugalLow head bound) := by
  apply Eff.wp_seq (oldestAccessibleLoop_frugal client (failed + 1) known known l hl hfrom
    (by omega) hcached (by omega) le_rfl hknown)
  · intro b l' hfound
    obtain ⟨hb, hbHead, hbFrom, hbCached⟩ := hfound.value b rfl
    apply Eff.wp_seq (blockTimestamp_asked client b l')
    · intro t l'' hlook
      have hl'' := hlook.frugal hfound.frugal hb fun hmiss => absurd hbCached hmiss
      split_ifs
      · rw [Eff.wp_throw]
        exact .raised hl''
      · rw [Eff.wp_pure]
        exact .found hl'' hb hbHead (hlook.cachedFrom hbFrom) (hlook.value t rfl)
    · intro e l'' hlook
      exact absurd hbCached hlook.missed
  · intro e l' hfound
    exact .raised hfound.frugal

def Overshoots (time : ℕ → Instant) (head bound : ℤ) (target : Instant) : Prop :=
  ∀ n, 0 < n → n ≤ head → target < timeAt time n → bound ≤ max 0 (2 * n - head)

abbrev AnswersOrFails (client : BlockLookupClient σ) (time : ℕ → Instant) (head : ℤ) : Prop :=
  Answers client time head (fun _ => True) (fun _ _ => True)

theorem AnswersOrFails.recorded (h : AnswersOrFails client time head) :
    AnswersOrFails (recordedLookups client) time head :=
  ⟨fun n h0 hle t => h.lookup n h0 hle t.1⟩

theorem searchLowLoop_frugal (hc : AnswersOrFails client time head)
    (hover : Overshoots time head bound target) (known step : ℤ) (hstep : 0 < step)
    (l : Lookup (σ × BlockRequests)) (hl : Frugal head bound l)
    (htrue : CacheTrue time (fun _ => True) l) (hall : CachedFrom bound l)
    (hknown0 : 0 ≤ known) (hknown : known ≤ head) (hlt : head - step < known)
    (hcached : Cached l known) (hbound : bound ≤ max 0 (head - step)) :
    Eff.wp (searchLowLoop (recordedLookups client) target head known step hstep) l
      (FrugalLow head bound) := by
  rw [searchLowLoop]
  have hcandidate0 : 0 ≤ max 0 (head - step) := le_max_left _ _
  have hcandidateHead : max 0 (head - step) ≤ head := by omega
  have hfresh : ¬ Cached l (max 0 (head - step)) → max 0 (head - step) ∉ asked l :=
    fun hmiss hmem => hmiss (hall _ hmem (hl.sparing.above _ hmem))
  have hfrom : CachedFrom (max 0 (head - step)) l := fun k hk _ => hall k hk (hl.sparing.above k hk)
  apply Eff.wp_attempt_seq (Eff.wp_and (blockTimestamp_asked client _ l)
    (blockTimestamp_spec hc.recorded hcandidate0 hcandidateHead htrue))
  rintro (exc | t) l' ⟨hlook, hspec⟩
  · have hl' := hlook.frugal hl hbound hfresh
    dsimp only
    split_ifs
    · have hne : max 0 (head - step) ≠ known := fun he => hlook.missed (he ▸ hcached)
      exact oldestAccessible_frugal hl' (hlook.cachedAbove hfrom le_rfl) hbound (by omega) hknown
        (hlook.grows _ hcached)
    · rw [Eff.wp_throw]
      exact .raised hl'
  · have hl' := hlook.frugal hl hbound hfresh
    obtain ⟨rfl, hcand⟩ := hspec.value t rfl
    dsimp only
    split_ifs with hstop
    · rw [Eff.wp_pure]
      exact .found hl' hbound hcandidateHead (hlook.cachedFrom hfrom) hcand
    · obtain ⟨hlate, hne⟩ := not_or.mp hstop
      have hpos : 0 < max 0 (head - step) := by omega
      have hdouble := hover _ hpos hcandidateHead (not_le.mp hlate)
      exact searchLowLoop_frugal hc hover _ (step * 2) (by omega) l' hl' hspec.progress.cacheTrue
        (hlook.cachedFrom hall) hcandidate0 hcandidateHead (by omega) hcand (by omega)
termination_by (head - step).toNat
decreasing_by omega

theorem findSearchLowBlock_frugal (hc : AnswersOrFails client time head)
    (hover : Overshoots time head bound target) (hhead : 0 ≤ head)
    (hbound : bound ≤ max 0 (head - 1)) (hl : Frugal head bound l)
    (htrue : CacheTrue time (fun _ => True) l) (hall : CachedFrom bound l) :
    Eff.wp (findSearchLowBlock (recordedLookups client) (.utc target) head
      (.utc (timeAt time head))) l (FrugalLow head bound) := by
  simp only [findSearchLowBlock, Eff.wp_bind, ensureUtc, astimezone_utc, Eff.wp_ofExcept]
  split_ifs
  · rw [Eff.wp_pure]
    have hle : bound ≤ head := by omega
    exact .found hl hle le_rfl (hall.weaken hle) hl.head_cached
  · exact searchLowLoop_frugal hc hover head 1 (by omega) l hl htrue hall hhead le_rfl (by omega)
      hl.head_cached hbound

theorem searchInterval_frugal (hc : AnswersOrFails client time head) {start : Instant} (stop : Instant)
    (hover : Overshoots time head bound start) (hhead : 0 ≤ head)
    (hbound : bound ≤ max 0 (head - 1)) (hl : Frugal head bound l)
    (htrue : CacheTrue time (fun _ => True) l) (hall : CachedFrom bound l) :
    Eff.wp (searchInterval (recordedLookups client) start stop head (timeAt time head)) l
      (fun _ l' => Frugal head bound l') := by
  apply Eff.wp_seq (findSearchLowBlock_frugal hc hover hhead hbound hl htrue hall)
  · intro low l' hlow
    obtain ⟨hbelow, hle, hfrom, -⟩ := hlow.value low rfl
    apply Eff.wp_seq (findFirstBlock_frugal hbelow (by omega) hlow.frugal hfrom)
    · intro fromBlock l'' hfirst
      obtain ⟨hlowFrom, hfromHead, hfrom'⟩ := hfirst.value fromBlock rfl
      apply Eff.wp_seq (findFirstBlock_frugal (hbelow.trans hlowFrom) hfromHead hfirst.frugal
        (hfrom'.weaken hlowFrom))
      · intro endExclusive l''' hsecond
        dsimp only
        split_ifs
        · exact hsecond.frugal
        · exact hsecond.frugal
      · intro e l''' hsecond
        exact hsecond.frugal
    · intro e l'' hfirst
      exact hfirst.frugal
  · intro e l' hlow
    exact hlow.frugal

structure TrueOrError (client : BlockLookupClient σ) (time : ℕ → Instant) (head : ℕ) : Prop where
  finalized : ∀ s block, (client.ethGetFinalizedBlock s).1 = .ok block →
    blockNumberFromPayload block = .ok head ∧ blockTimestampFromPayload block = .ok (time head)
  lookup : ∀ n : ℕ, n ≤ head → ∀ s, Reports time n (client.ethGetBlockByNumber n s).1 ∨
    ∃ e, (client.ethGetBlockByNumber n s).1 = .error e

theorem TrueOrError.answers {head : ℕ} (h : TrueOrError client time head) :
    AnswersOrFails client time head := by
  constructor
  intro n hn hle s
  lift n to ℕ using hn
  rcases h.lookup n (by omega) s with hreport | ⟨e, he⟩
  · exact .inl ⟨hreport, trivial⟩
  · exact .inr ⟨e, he, trivial⟩

def lookups (client : BlockLookupClient σ) (start stop : Datetime) (s : σ) :
    Except Exc IntervalBlockRange × σ × BlockRequests :=
  resolveIntervalBlockRange (recordedLookups client) start stop (s, [])

def requestedBlocks (client : BlockLookupClient σ) (start stop : Datetime) (s : σ) : List ℤ :=
  (lookups client start stop s).2.2.map Prod.fst

theorem lookups_run (client : BlockLookupClient σ) (start stop : Datetime) (s : σ) :
    resolveIntervalBlockRange client start stop s =
      ((lookups client start stop s).1, (lookups client start stop s).2.1) := by
  obtain ⟨hresult, hstate⟩ :=
    resolve_simulates (recordedLookups_simulates client) start stop s (s, []) rfl
  exact Prod.ext hresult hstate

theorem requestedBlocks_sparing {head : ℕ} (hclient : TrueOrError client time head)
    {start : Datetime} (stop : Datetime) (hover : Overshoots time head bound start.instant)
    (hbound : bound ≤ max 0 ((head : ℤ) - 1)) (s : σ) :
    Sparing head bound (requestedBlocks client start stop s) := by
  have hspec : Eff.wp (resolveIntervalBlockRange (recordedLookups client) start stop) (s, [])
      (fun _ t => Sparing head bound (t.2.map Prod.fst)) := by
    rw [resolveIntervalBlockRange, Eff.wp_bind, Eff.wp_ofExcept]
    cases hstart : ensureUtc start "interval_start_utc" with
    | error e => exact sparing_nil _ _
    | ok startUtc =>
      obtain ⟨-, rfl⟩ := astimezone_ok hstart
      dsimp only
      rw [Eff.wp_bind, Eff.wp_ofExcept]
      cases hstop : ensureUtc stop "interval_end_utc" with
      | error e => exact sparing_nil _ _
      | ok stopUtc =>
        dsimp only
        split_ifs
        · exact sparing_nil _ _
        · rw [Eff.wp_bind, recordedLookups, Eff.wp_zoom, Eff.wp_iff]
          cases hblock : (client.ethGetFinalizedBlock s).1 with
          | error e => exact sparing_nil _ _
          | ok block =>
            obtain ⟨hnumber, hts⟩ := hclient.finalized s block hblock
            dsimp only
            rw [hnumber, hts, Eff.ofExcept_ok_bind, Eff.ofExcept_ok_bind]
            split_ifs
            · exact sparing_nil _ _
            · rw [Eff.wp_zoom]
              have hstart : Frugal (σ := σ) head bound
                  ⟨((client.ethGetFinalizedBlock s).2, []), seedCache head (timeAt time head)⟩ :=
                ⟨sparing_nil _ _, seedCache_cached _ _ _⟩
              have hrun := searchInterval_frugal hclient.answers stopUtc hover (by omega)
                hbound hstart (seedCache_true trivial _) (fun k hk => by simp [asked] at hk)
              exact Eff.wp_mono hrun fun _ _ h => h.sparing
  exact hspec

theorem resolveIntervalBlockRange_once (client : BlockLookupClient σ) (time : ℕ → Instant)
    (head : ℕ) (hclient : TrueOrError client time head) (start stop : Datetime) (s : σ) :
    (requestedBlocks client start stop s).Nodup ∧
      (head : ℤ) ∉ requestedBlocks client start stop s := by
  have hover : Overshoots time head 0 start.instant := fun _ _ _ _ => le_max_left _ _
  have hsparing := requestedBlocks_sparing hclient stop hover (le_max_left _ _) s
  exact ⟨hsparing.nodup, hsparing.head_fresh⟩

theorem TrueOrRpcError.trueOrError {head : ℕ} (h : TrueOrRpcError client time head) :
    TrueOrError client time head := by
  refine ⟨h.finalized, ?_⟩
  intro n hn s
  rcases h.lookup n hn s with hreport | ⟨error, he⟩
  · exact .inl hreport
  · exact .inr ⟨_, he⟩

theorem servingFrom_trueOrError : TrueOrError (servingFrom 4 1) everyTwelveSeconds 4 :=
  servingFrom_limited.trueOrRpcError.trueOrError

theorem resolveIntervalBlockRange_once_servingFrom :
    (requestedBlocks (servingFrom 4 1) (secondsUtc 12) (secondsUtc 30) ()).Nodup ∧
      (4 : ℤ) ∉ requestedBlocks (servingFrom 4 1) (secondsUtc 12) (secondsUtc 30) () :=
  resolveIntervalBlockRange_once (servingFrom 4 1) everyTwelveSeconds 4 servingFrom_trueOrError
    (secondsUtc 12) (secondsUtc 30) ()

end EthereumLogs.BlockRange
