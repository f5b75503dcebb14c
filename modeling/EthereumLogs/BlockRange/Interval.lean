import EthereumLogs.BlockRange.Search

namespace EthereumLogs.BlockRange
open Python Effect Boundary

variable {σ : Type} {client : BlockLookupClient σ} {time : ℕ → Instant} {accessible : ℤ → Prop}
  {refusal : ℤ → Exc → Prop} {head low r n : ℤ} {start stop target : Instant}

theorem timeAt_lt (hmono : StrictMono time) {a b : ℤ} (ha : 0 ≤ a) (hab : a < b) :
    timeAt time a < timeAt time b := hmono (by omega)

theorem timeAt_le (hmono : StrictMono time) {a b : ℤ} (hab : a ≤ b) :
    timeAt time a ≤ timeAt time b := hmono.monotone (by omega)

theorem splits_iff (hmono : StrictMono time) (hle : low ≤ head)
    (hbefore : ∀ n, 0 ≤ n → n < low → timeAt time n < target) (hhead : target ≤ timeAt time head)
    (h : Splits (fun n => target ≤ timeAt time n) low head r) :
    r ≤ head ∧ ∀ n, 0 ≤ n → (target ≤ timeAt time n ↔ r ≤ n) := by
  have hiff : ∀ n, low ≤ n → n ≤ head → (target ≤ timeAt time n ↔ r ≤ n) := fun n hln hnh =>
    h.iff_le (fun a b _ hab _ ha => ha.trans (timeAt_le hmono hab)) hln hnh
  have hr : r ≤ head := (hiff head hle le_rfl).mp hhead
  refine ⟨hr, ?_⟩
  intro n hn
  rcases lt_or_ge n low with hlt | hge
  · have hnot := hbefore n hn hlt
    have := h.low_le
    constructor
    · intro hn'
      exact absurd hn' (not_le.mpr hnot)
    · intro hn'
      omega
  · rcases le_or_gt n head with hnh | hgt
    · exact hiff n hge hnh
    · constructor
      · intro _
        omega
      · intro _
        exact hhead.trans (timeAt_le hmono hgt.le)

structure FirstAtOrAfter (time : ℕ → Instant) (head : ℤ) (target : Instant) (r : ℤ) : Prop where
  nonneg : 0 ≤ r
  le_head : r ≤ head
  iff_le : ∀ n, 0 ≤ n → (target ≤ timeAt time n ↔ r ≤ n)

theorem FirstAtOrAfter.unique {head' r' : ℤ} (h : FirstAtOrAfter time head target r)
    (h' : FirstAtOrAfter time head' target r') : r = r' := by
  have h1 := (h'.iff_le r h.nonneg).mp ((h.iff_le r h.nonneg).mpr le_rfl)
  have h2 := (h.iff_le r' h'.nonneg).mp ((h'.iff_le r' h'.nonneg).mpr le_rfl)
  omega

structure LowReached (time : ℕ → Instant) (accessible : ℤ → Prop) (start : Instant) (head low : ℤ) :
    Prop where
  nonneg : 0 ≤ low
  le_head : low ≤ head
  accessible : accessible low
  early : low = 0 ∨ timeAt time low ≤ start

theorem LowReached.first (hmono : StrictMono time) (h : LowReached time accessible start head low)
    (hhead : start ≤ timeAt time head)
    (hs : Splits (fun n => start ≤ timeAt time n) low head r) :
    FirstAtOrAfter time head start r := by
  obtain ⟨hr, hiff⟩ := splits_iff hmono h.le_head (fun n hn hlt => by
    rcases h.early with h0 | hearly
    · omega
    · exact (timeAt_lt hmono hn hlt).trans_le hearly) hhead hs
  exact ⟨h.nonneg.trans hs.low_le, hr, hiff⟩

theorem FirstAtOrAfter.next {fromBlock : ℤ} (hmono : StrictMono time)
    (h : FirstAtOrAfter time head start fromBlock) (hlt : start < stop)
    (hhead : stop ≤ timeAt time head)
    (hs : Splits (fun n => stop ≤ timeAt time n) fromBlock head r) :
    FirstAtOrAfter time head stop r := by
  obtain ⟨hr, hiff⟩ := splits_iff hmono h.le_head (fun n hn hnlt => by
    have hnot := (h.iff_le n hn).not.mpr (not_le.mpr hnlt)
    exact (not_le.mp hnot).trans hlt) hhead hs
  exact ⟨h.nonneg.trans hs.low_le, hr, hiff⟩

structure Found (time : ℕ → Instant) (head : ℤ) (start stop : Instant) (range : IntervalBlockRange) :
    Prop where
  first : FirstAtOrAfter time head start range.fromBlock
  next : FirstAtOrAfter time head stop range.endExclusiveBlock
  last : range.toBlock = range.endExclusiveBlock - 1
  nonempty : range.fromBlock ≤ range.toBlock

inductive Refused (time : ℕ → Instant) (accessible : ℤ → Prop) (refusal : ℤ → Exc → Prop)
    (start stop : Instant) (head : ℤ) : Exc → Prop
  | window (b : ℤ) (h0 : 0 < b) (hle : b ≤ head) (hacc : accessible b)
      (hlate : start < timeAt time b) (e : Exc) (hrefusal : refusal (b - 1) e)
      (hforbidden : isForbiddenBlockLookup e = true) :
      Refused time accessible refusal start stop head windowTooShort
  | empty (low : ℤ) (hlow : LowReached time accessible start head low)
      (hnone : ∀ n, 0 ≤ n → ¬ (start ≤ timeAt time n ∧ timeAt time n < stop)) :
      Refused time accessible refusal start stop head emptyRange
  | lookup (e : Exc) (n : ℤ) (hrefusal : refusal n e) (h : isForbiddenBlockLookup e = false) :
      Refused time accessible refusal start stop head e
  | search (e : Exc) (low n : ℤ) (hacc : accessible low) (hle : low ≤ n) (hrefusal : refusal n e) :
      Refused time accessible refusal start stop head e

structure SearchedInterval (time : ℕ → Instant) (accessible : ℤ → Prop)
    (refusal : ℤ → Exc → Prop) (start stop : Instant) (head : ℤ)
    (r : Except Exc IntervalBlockRange) : Prop where
  found : ∀ range, r = .ok range → Found time head start stop range ∧
    ∃ low, LowReached time accessible start head low
  refused : ∀ e, r = .error e → Refused time accessible refusal start stop head e

theorem searchInterval_spec (hmono : StrictMono time)
    (hc : Answers client time head accessible refusal) (hhead : 0 ≤ head) {l : Lookup σ}
    (hl : CacheTrue time accessible l) (hcached : Cached l head) (hlt : start < stop)
    (hfinal : stop ≤ timeAt time head) :
    Eff.wp (searchInterval client start stop head (timeAt time head)) l
      (fun r _ => SearchedInterval time accessible refusal start stop head r) := by
  apply Eff.wp_seq (findSearchLowBlock_spec hc hhead hl hcached)
  · intro low l' hfoundLow
    obtain ⟨h0, hle, hlowCached, hearly⟩ := hfoundLow.value low rfl
    have hacc := hfoundLow.progress.cacheTrue.of_cached h0 hlowCached
    have hlow : LowReached time accessible start head low := ⟨h0, hle, hacc, hearly⟩
    apply Eff.wp_seq (findFirstBlock_spec hc h0 hle hfoundLow.progress.cacheTrue)
    · intro fromBlock l'' hfrom
      have hfirst := hlow.first hmono (hlt.le.trans hfinal) (hfrom.splits fromBlock rfl)
      have hlow_le := (hfrom.splits fromBlock rfl).low_le
      apply Eff.wp_seq (findFirstBlock_spec hc hfirst.nonneg hfirst.le_head hfrom.progress.cacheTrue)
      · intro endExclusive l''' hend
        have hnext := hfirst.next hmono hlt hfinal (hend.splits endExclusive rfl)
        dsimp only
        split_ifs with hempty
        · rw [Eff.wp_throw]
          refine ⟨by simp, ?_⟩
          intro e he
          cases he
          refine .empty low hlow ?_
          rintro n hn ⟨hge, hbefore⟩
          have := (hfirst.iff_le n hn).mp hge
          have := (hnext.iff_le n hn).not.mp (not_le.mpr hbefore)
          omega
        · rw [Eff.wp_pure]
          refine ⟨?_, by simp⟩
          intro range hrange
          cases hrange
          exact ⟨⟨hfirst, hnext, rfl, not_lt.mp hempty⟩, low, hlow⟩
      · intro e l''' hend
        obtain ⟨n, hn, -, hrefusal⟩ := hend.refused e rfl
        refine ⟨by simp, ?_⟩
        intro e' he'
        cases he'
        exact .search e low n hacc (hlow_le.trans hn) hrefusal
    · intro e l'' hfrom
      obtain ⟨n, hn, -, hrefusal⟩ := hfrom.refused e rfl
      refine ⟨by simp, ?_⟩
      intro e' he'
      cases he'
      exact .search e low n hacc hn hrefusal
  · intro e l' hfoundLow
    refine ⟨by simp, ?_⟩
    intro e' he'
    cases he'
    rcases hfoundLow.refused e rfl with ⟨hforbidden, n, hrefusal⟩ | ⟨rfl, b, hb⟩
    · exact .lookup e n hrefusal hforbidden
    · obtain ⟨hpos, hle, hacc, hlate, e', hrefusal, hforbidden⟩ := hb
      exact .window b hpos hle hacc hlate e' hrefusal hforbidden

theorem seedCache_true {number : ℤ} {accessible : ℤ → Prop} (hacc : accessible number) (s : σ) :
    CacheTrue time accessible ⟨s, seedCache number (timeAt time number)⟩ := by
  intro k t _ hk
  simp only [seedCache] at hk
  split at hk
  · rename_i he
    cases he
    cases hk
    exact ⟨rfl, hacc⟩
  · simp at hk

theorem seedCache_cached (number : ℤ) (t : Instant) (s : σ) :
    Cached ⟨s, seedCache number t⟩ number := ⟨t, by simp [seedCache]⟩

structure Finalized (client : BlockLookupClient σ) (s t : σ) (number : ℤ) (ts : Instant) : Prop where
  answered : ∃ block, client.ethGetFinalizedBlock s = (.ok block, t) ∧
    blockNumberFromPayload block = .ok number ∧ blockTimestampFromPayload block = .ok ts

theorem resolve_eq {intervalStart intervalEnd : Datetime} {s t : σ} {number : ℤ} {ts : Instant}
    (hstart : ∀ missing, intervalStart.astimezoneUtc missing = .ok intervalStart.instant)
    (hend : ∀ missing, intervalEnd.astimezoneUtc missing = .ok intervalEnd.instant)
    (hlt : intervalStart.instant < intervalEnd.instant) (hfin : Finalized client s t number ts) :
    (resolveIntervalBlockRange client intervalStart intervalEnd s).1 =
      if ts < intervalEnd.instant then .error intervalNotFinalized
      else (searchInterval client intervalStart.instant intervalEnd.instant number ts
        ⟨t, seedCache number ts⟩).1 := by
  obtain ⟨block, hblock, hnumber, hts⟩ := hfin.answered
  simp only [resolveIntervalBlockRange, ensureUtc, hstart, hend, Eff.ofExcept_ok_bind]
  rw [if_neg (not_le.mpr hlt), Eff.bind_of_ok hblock, hnumber, hts, Eff.ofExcept_ok_bind,
    Eff.ofExcept_ok_bind]
  split_ifs
  · rfl
  · rfl

theorem resolve_ok {intervalStart intervalEnd : Datetime} {s : σ} {range : IntervalBlockRange}
    (h : (resolveIntervalBlockRange client intervalStart intervalEnd s).1 = .ok range) :
    intervalStart.instant < intervalEnd.instant ∧ ∃ t number ts,
      Finalized client s t number ts ∧ intervalEnd.instant ≤ ts ∧
      (searchInterval client intervalStart.instant intervalEnd.instant number ts
        ⟨t, seedCache number ts⟩).1 = .ok range := by
  obtain ⟨start, hstart, h1⟩ := Eff.ofExcept_bind_ok h
  obtain ⟨stop, hstop, h2⟩ := Eff.ofExcept_bind_ok h1
  obtain ⟨-, rfl⟩ := astimezone_ok hstart
  obtain ⟨-, rfl⟩ := astimezone_ok hstop
  split_ifs at h2 with hlt
  · cases h2
  · obtain ⟨block, t, hblock, h3⟩ := Eff.bind_ok h2
    obtain ⟨number, hnumber, h4⟩ := Eff.ofExcept_bind_ok h3
    obtain ⟨ts, hts, h5⟩ := Eff.ofExcept_bind_ok h4
    split_ifs at h5 with hfinal
    · cases h5
    · exact ⟨not_le.mp hlt, t, number, ts, ⟨block, hblock, hnumber, hts⟩, not_lt.mp hfinal, h5⟩

theorem resolve_found (hmono : StrictMono time) {intervalStart intervalEnd : Datetime} {s : σ}
    {range : IntervalBlockRange}
    (hanswers : ∀ t number ts, Finalized client s t number ts →
      0 ≤ number ∧ ts = timeAt time number ∧
        ∃ refusal, Answers client time number (fun _ => True) refusal)
    (hok : (resolveIntervalBlockRange client intervalStart intervalEnd s).1 = .ok range) :
    ∃ t number ts, Finalized client s t number ts ∧
      Found time number intervalStart.instant intervalEnd.instant range := by
  obtain ⟨hlt, t, number, ts, hfin, hfinal, hsearch⟩ := resolve_ok hok
  obtain ⟨h0, rfl, refusal, hc⟩ := hanswers t number ts hfin
  have hspec := searchInterval_spec hmono hc h0 (seedCache_true trivial t)
    (seedCache_cached _ _ t) hlt hfinal
  exact ⟨t, number, _, hfin, (hspec.found range hsearch).1⟩

end EthereumLogs.BlockRange
