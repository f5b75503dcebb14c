import EthereumLogs.BlockRange.Lookups
import Mathlib.Data.Rat.Floor
import Mathlib.Tactic.Positivity

namespace EthereumLogs.BlockRange
open Python Effect

def recentSearchMinSecondsPerBlock : ℕ := 6
def recentSearchSafetyBlocks : ℤ := 256

def totalSeconds (micros : ℤ) : ℚ := micros / microsPerSecond

def estimateRecentSearchLowBlock (finalizedBlockNumber : ℤ)
    (finalizedBlockTimestampUtc targetTimestampUtc : Datetime) : Except Exc ℤ := do
  let finalizedTs ← ensureUtc finalizedBlockTimestampUtc "finalized_block_timestamp_utc"
  let target ← ensureUtc targetTimestampUtc "target_timestamp_utc"
  let ageSeconds := max 0 (totalSeconds (finalizedTs - target))
  let estimatedLookbackBlocks := ⌈ageSeconds / recentSearchMinSecondsPerBlock⌉
  let lookbackBlocks := estimatedLookbackBlocks + recentSearchSafetyBlocks
  pure (max 0 (finalizedBlockNumber - lookbackBlocks))

example : estimateRecentSearchLowBlock 1000 (.utc 61000000) (.utc 0) = .ok 733 := by
  decide +kernel

variable {σ : Type} {client : BlockLookupClient σ} {time : ℕ → Instant} {head b : ℕ}
  {start stop : Datetime}

structure LastAtOrBefore (time : ℕ → Instant) (start : Instant) (b : ℕ) : Prop where
  after : ∀ n, b < n → start < time n
  here : time b ≤ start ∨ b = 0

def SpacedBy (seconds : ℤ) (time : ℕ → Instant) : Prop :=
  ∀ n, time n + seconds * microsPerSecond ≤ time (n + 1)

theorem SpacedBy.add {seconds : ℤ} (h : SpacedBy seconds time) (n k : ℕ) :
    time n + k * (seconds * microsPerSecond) ≤ time (n + k) := by
  induction k with
  | zero => simp
  | succ k ih =>
    have hstep := h (n + k)
    have hsucc : ((k + 1 : ℕ) : ℤ) * (seconds * microsPerSecond) =
        k * (seconds * microsPerSecond) + seconds * microsPerSecond := by
      push_cast
      ring
    rw [← Nat.add_assoc, hsucc]
    linarith

theorem age_gt {start : Instant} (hspaced : SpacedBy 12 time) (hb : LastAtOrBefore time start b)
    (hlt : b < head) : 12 * ((head : ℚ) - b - 1) < totalSeconds (time head - start) := by
  obtain ⟨k, rfl⟩ := Nat.exists_eq_add_of_lt hlt
  have hnext := hb.after (b + 1) (Nat.lt_succ_self b)
  have hspread := hspaced.add (b + 1) k
  rw [Nat.add_right_comm] at hspread
  have hage : k * (12 * microsPerSecond) < time (b + k + 1) - start := by
    have := hnext.trans_le (le_sub_iff_add_le.mpr hspread)
    linarith
  have hmicros : (0 : ℚ) < (microsPerSecond : ℚ) := by
    norm_num [microsPerSecond]
  rw [totalSeconds, lt_div_iff₀ hmicros]
  have hcast : ((k * (12 * microsPerSecond) : ℤ) : ℚ) < ((time (b + k + 1) - start : ℤ) : ℚ) :=
    Int.cast_lt.mpr hage
  push_cast at hcast ⊢
  linarith

theorem lookback_ge {start : Instant} (hspaced : SpacedBy 12 time)
    (hb : LastAtOrBefore time start b) (hle : b ≤ head) :
    2 * ((head : ℤ) - b) ≤
      ⌈max 0 (totalSeconds (time head - start)) / recentSearchMinSecondsPerBlock⌉ + 1 := by
  rcases Nat.lt_or_eq_of_le hle with hlt | rfl
  · have hage := age_gt hspaced hb hlt
    have hceil : 2 * ((head : ℤ) - b - 1) <
        ⌈max 0 (totalSeconds (time head - start)) / recentSearchMinSecondsPerBlock⌉ := by
      rw [Int.lt_ceil, recentSearchMinSecondsPerBlock]
      have hmax := le_max_right 0 (totalSeconds (time head - start))
      push_cast
      linarith
    omega
  · have hnonneg : (0 : ℤ) ≤
        ⌈max 0 (totalSeconds (time b - start)) / recentSearchMinSecondsPerBlock⌉ :=
      Int.ceil_nonneg (by positivity)
    omega

theorem LastAtOrBefore.overshoots {start : Instant} (hb : LastAtOrBefore time start b)
    (hmono : StrictMono time) : Overshoots time head (max 0 (2 * (b : ℤ) - head)) start := by
  intro n hpos _ hlate
  lift n to ℕ using hpos.le
  have hle : b ≤ n := by
    rcases hb.here with hearly | rfl
    · exact (hmono.lt_iff_lt.mp (hearly.trans_lt hlate)).le
    · exact Nat.zero_le n
  omega

theorem LastAtOrBefore.le_head {start : Instant} (hb : LastAtOrBefore time start b)
    (hmono : StrictMono time) (hlate : start < time head) : b ≤ head ∧ (b = head → b = 0) := by
  rcases hb.here with hearly | rfl
  · have hlt := hmono.lt_iff_lt.mp (hearly.trans_lt hlate)
    exact ⟨hlt.le, fun he => absurd he hlt.ne⟩
  · exact ⟨Nat.zero_le head, fun _ => rfl⟩

theorem estimate_le {low : ℤ} (hspaced : SpacedBy 12 time)
    (hb : LastAtOrBefore time start.instant b) (hle : b ≤ head)
    (h : estimateRecentSearchLowBlock head (.utc (time head)) start = .ok low) :
    low ≤ max 0 (2 * (b : ℤ) - head) := by
  rw [estimateRecentSearchLowBlock, ensureUtc, astimezone_utc] at h
  obtain ⟨finalizedTs, hfinalized, h⟩ := except_bind_ok h
  obtain ⟨target, htarget, h⟩ := except_bind_ok h
  obtain ⟨-, rfl⟩ := astimezone_ok htarget
  cases hfinalized
  cases h
  have hback := lookback_ge hspaced hb hle
  have hsafety : recentSearchSafetyBlocks = 256 := rfl
  omega

theorem resolveIntervalBlockRange_near (client : BlockLookupClient σ) (time : ℕ → Instant)
    (hmono : StrictMono time) (head : ℕ) (hclient : TrueOrError client time head)
    (start stop : Datetime) (hlt : start.instant < stop.instant) (hfinal : stop.instant ≤ time head)
    (b : ℕ) (hb : LastAtOrBefore time start.instant b) (s : σ) :
    (∀ n ∈ requestedBlocks client start stop s, head - n ≤ 2 * ((head : ℤ) - b)) ∧
    (SpacedBy 12 time → ∀ low,
      estimateRecentSearchLowBlock head (.utc (time head)) start = .ok low →
      ∀ n ∈ requestedBlocks client start stop s, low ≤ n) := by
  obtain ⟨hle, hzero⟩ := hb.le_head hmono (hlt.trans_le hfinal)
  have hbound : max 0 (2 * (b : ℤ) - head) ≤ max 0 ((head : ℤ) - 1) := by omega
  have hsparing := requestedBlocks_sparing hclient stop (hb.overshoots hmono) hbound s
  constructor
  · intro n hn
    have habove := hsparing.above n hn
    omega
  · intro hspaced low hlow n hn
    exact (estimate_le hspaced hb hle hlow).trans (hsparing.above n hn)

theorem everyTwelveSeconds_spaced : SpacedBy 12 everyTwelveSeconds := by
  intro n
  simp only [everyTwelveSeconds, microsPerSecond, Instant]
  omega

theorem everyTwelveSeconds_last : LastAtOrBefore everyTwelveSeconds (secondsUtc 12).instant 1 := by
  rw [secondsUtc, instant_utc]
  constructor
  · intro n hn
    simp only [everyTwelveSeconds, microsPerSecond, Instant]
    omega
  · left
    decide

theorem resolveIntervalBlockRange_near_servingFrom :
    (∀ n ∈ requestedBlocks (servingFrom 4 1) (secondsUtc 12) (secondsUtc 30) (),
      ((4 : ℕ) : ℤ) - n ≤ 2 * (((4 : ℕ) : ℤ) - (1 : ℕ))) ∧
    (∀ low,
      estimateRecentSearchLowBlock (4 : ℕ) (.utc (everyTwelveSeconds 4)) (secondsUtc 12) = .ok low →
      ∀ n ∈ requestedBlocks (servingFrom 4 1) (secondsUtc 12) (secondsUtc 30) (), low ≤ n) := by
  have hnear := resolveIntervalBlockRange_near (servingFrom 4 1) everyTwelveSeconds
    everyTwelveSeconds_strictMono 4 servingFrom_trueOrError (secondsUtc 12) (secondsUtc 30)
    (by decide) (by decide) 1 everyTwelveSeconds_last ()
  exact ⟨hnear.1, hnear.2 everyTwelveSeconds_spaced⟩

end EthereumLogs.BlockRange
