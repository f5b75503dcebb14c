import EthereumLogs.BlockRange.RecentWindow
import EthereumLogs.Library.Metering
import Mathlib.Data.Nat.Log

namespace EthereumLogs.BlockRange
open Python Effect Boundary Metering

variable {σ C : Type} [AddCommMonoid C] [PartialOrder C] {client : BlockLookupClient σ}
  {Inv : σ → Prop} {measure : σ → C} {cost : C} {start target : Instant} {head : ℤ} {depth j k : ℕ}
  {l l' l'' : Lookup σ}

def Early (start : Instant) (head : ℤ) (depth : ℕ) (cache : TimestampCache) : Prop :=
  ∀ n t, 0 < n → n + depth ≤ head → cache n = some t → t ≤ start

structure Depth (client : BlockLookupClient σ) (start : Instant) (head : ℤ) (depth : ℕ) : Prop where
  positive : 0 < depth
  early : ∀ n, 0 < n → n + depth ≤ head → ∀ s block t, (client.ethGetBlockByNumber n s).1 = .ok block →
    blockTimestampFromPayload block = .ok t → t ≤ start

structure Billed (client : BlockLookupClient σ) (Inv : σ → Prop) (measure : σ → C) (cost : C) :
    Prop where
  nonneg : 0 ≤ cost
  number : ∀ n, Bills Inv measure cost 1 (client.ethGetBlockByNumber n)

structure Charged (Inv : σ → Prop) (measure : σ → C) (cost : C) (start : Instant) (head : ℤ)
    (depth k : ℕ) (l l' : Lookup σ) : Prop where
  metered : Metered Inv measure cost k l.client l'.client
  early : Early start head depth l'.cache
  grows : ∀ n, Cached l n → Cached l' n

theorem charged_refl (h : Inv l.client) (hearly : Early start head depth l.cache) :
    Charged Inv measure cost start head depth 0 l l := ⟨metered_refl h, hearly, fun _ hn => hn⟩

variable [IsOrderedAddMonoid C]

theorem Charged.trans (h : Charged Inv measure cost start head depth j l l')
    (h' : Charged Inv measure cost start head depth k l' l'') :
    Charged Inv measure cost start head depth (j + k) l l'' :=
  ⟨h.metered.trans h'.metered, h'.early, fun n hn => h'.grows n (h.grows n hn)⟩

theorem Charged.widen (hcost : 0 ≤ cost) (h : Charged Inv measure cost start head depth j l l')
    (hle : j ≤ k) : Charged Inv measure cost start head depth k l l' :=
  ⟨h.metered.widen hcost hle, h.early, h.grows⟩

structure Stamped (Inv : σ → Prop) (measure : σ → C) (cost : C) (start : Instant) (head : ℤ)
    (depth : ℕ) (n : ℤ) (l : Lookup σ) (r : Except Exc Instant) (l' : Lookup σ) : Prop where
  charged : Charged Inv measure cost start head depth 1 l l'
  hit : Cached l n → Charged Inv measure cost start head depth 0 l l'
  value : ∀ t, r = .ok t → Cached l' n ∧ (0 < n → n + depth ≤ head → t ≤ start)

theorem blockTimestamp_charged (hbilled : Billed client Inv measure cost)
    (hdepth : Depth client start head depth) (n : ℤ) (l : Lookup σ) (hInv : Inv l.client)
    (hearly : Early start head depth l.cache) :
    Eff.wp (blockTimestamp client n) l (Stamped Inv measure cost start head depth n l) := by
  simp only [blockTimestamp, Eff.wp_bind, Eff.wp_get]
  cases hcache : l.cache n with
  | some t =>
    rw [Eff.wp_pure]
    have hfree : Charged Inv measure cost start head depth 0 l l := charged_refl hInv hearly
    refine ⟨hfree.widen hbilled.nonneg (Nat.zero_le 1), fun _ => hfree, ?_⟩
    intro t' ht'
    cases ht'
    exact ⟨⟨t, hcache⟩, fun hpos hle => hearly n t hpos hle hcache⟩
  | none =>
    have hmiss : ¬ Cached l n := by simp [Cached, hcache]
    have hpaid := hbilled.number n l.client hInv
    simp only [Eff.wp_bind, onClient, Eff.wp_zoom, Eff.wp_ofExcept, Eff.wp_modify, Eff.wp_pure]
    rw [Eff.wp_iff]
    cases hblock : (client.ethGetBlockByNumber n l.client).1 with
    | error e => exact ⟨⟨hpaid, hearly, fun _ h => h⟩, fun h => absurd h hmiss, by simp⟩
    | ok block =>
      dsimp only
      cases htimestamp : blockTimestampFromPayload block with
      | error e => exact ⟨⟨hpaid, hearly, fun _ h => h⟩, fun h => absurd h hmiss, by simp⟩
      | ok t =>
        have hlate : 0 < n → n + depth ≤ head → t ≤ start := fun hpos hle =>
          hdepth.early n hpos hle l.client block t hblock htimestamp
        refine ⟨⟨hpaid, ?_, ?_⟩, fun h => absurd h hmiss, ?_⟩
        · intro m u hpos hle hm
          simp only [Lookup.store] at hm
          split_ifs at hm with heq
          · cases hm
            cases heq
            exact hlate hpos hle
          · exact hearly m u hpos hle hm
        · rintro m ⟨u, hu⟩
          by_cases hm : m = n
          · exact ⟨t, by simp [Lookup.store, hm]⟩
          · exact ⟨u, by simpa [Lookup.store, hm] using hu⟩
        · intro t' ht'
          cases ht'
          exact ⟨⟨t, by simp [Lookup.store]⟩, hlate⟩

section Search

variable (hbilled : Billed client Inv measure cost) (hdepth : Depth client start head depth)
include hbilled hdepth

theorem firstBlockLoop_charged (target : Instant) (left right result : ℤ) (k : ℕ)
    (hsize : right + 1 - left < 2 ^ k) (l : Lookup σ) (hInv : Inv l.client)
    (hearly : Early start head depth l.cache) :
    Eff.wp (firstBlockLoop client target left right result) l fun r l' =>
      Charged Inv measure cost start head depth k l l' ∧ ∀ b, r = .ok b → b = result ∨ left ≤ b := by
  induction k generalizing left right result l with
  | zero =>
    rw [firstBlockLoop, dif_neg (by omega), Eff.wp_pure]
    refine ⟨charged_refl hInv hearly, fun b hb => ?_⟩
    cases hb
    exact .inl rfl
  | succ k ih =>
    rw [firstBlockLoop]
    split_ifs with hle
    · rw [pow_succ] at hsize
      obtain ⟨hml, hmr⟩ := mid_bounds hle
      apply Eff.wp_seq (blockTimestamp_charged hbilled hdepth _ l hInv hearly)
      · intro midTs l' hlook
        have hstep := hlook.charged
        split_ifs
        · refine Eff.wp_mono (ih _ _ _ (by omega) l' hstep.metered.keeps hstep.early) ?_
          rintro r l'' ⟨hrest, hvalue⟩
          refine ⟨(hstep.trans hrest).widen hbilled.nonneg (by omega), fun b hb => .inr ?_⟩
          rcases hvalue b hb with hb | hb
          · omega
          · exact hb
        · refine Eff.wp_mono (ih _ _ _ (by omega) l' hstep.metered.keeps hstep.early) ?_
          rintro r l'' ⟨hrest, hvalue⟩
          refine ⟨(hstep.trans hrest).widen hbilled.nonneg (by omega), fun b hb => ?_⟩
          exact (hvalue b hb).imp id fun hb => by omega
      · intro e l' hlook
        exact ⟨hlook.charged.widen hbilled.nonneg (by omega), by simp⟩
    · rw [Eff.wp_pure]
      refine ⟨(charged_refl hInv hearly).widen hbilled.nonneg (Nat.zero_le _), fun b hb => ?_⟩
      cases hb
      exact .inl rfl

theorem findFirstBlock_charged (target : Instant) (low : ℤ) (k : ℕ) (hsize : head + 1 - low < 2 ^ k)
    (l : Lookup σ) (hInv : Inv l.client) (hearly : Early start head depth l.cache) :
    Eff.wp (findFirstBlockAtOrAfter client (.utc target) low (some head)) l fun r l' =>
      Charged Inv measure cost start head depth k l l' ∧ ∀ b, r = .ok b → b = head + 1 ∨ low ≤ b := by
  have hfree : Charged Inv measure cost start head depth k l l :=
    (charged_refl hInv hearly).widen hbilled.nonneg (Nat.zero_le k)
  simp only [findFirstBlockAtOrAfter, Eff.wp_bind, ensureUtc, astimezone_utc, Eff.wp_ofExcept,
    Eff.wp_pure]
  split_ifs
  · rw [Eff.wp_throw]
    exact ⟨hfree, by simp⟩
  · rw [Eff.wp_throw]
    exact ⟨hfree, by simp⟩
  · rw [Eff.wp_pure]
    refine ⟨hfree, fun b hb => ?_⟩
    cases hb
    exact .inl rfl
  · exact firstBlockLoop_charged hbilled hdepth target low head (head + 1) k hsize l hInv hearly

theorem oldestAccessibleLoop_charged (left right oldestOk : ℤ) (k : ℕ)
    (hsize : right + 1 - left < 2 ^ k) (l : Lookup σ) (hInv : Inv l.client)
    (hearly : Early start head depth l.cache) (hok : Cached l oldestOk) :
    Eff.wp (oldestAccessibleLoop client left right oldestOk) l fun r l' =>
      Charged Inv measure cost start head depth k l l' ∧
        ∀ b, r = .ok b → Cached l' b ∧ (b = oldestOk ∨ left ≤ b) := by
  induction k generalizing left right oldestOk l with
  | zero =>
    rw [oldestAccessibleLoop, dif_neg (by omega), Eff.wp_pure]
    refine ⟨charged_refl hInv hearly, fun b hb => ?_⟩
    cases hb
    exact ⟨hok, .inl rfl⟩
  | succ k ih =>
    rw [oldestAccessibleLoop]
    split_ifs with hle
    · rw [pow_succ] at hsize
      obtain ⟨hml, hmr⟩ := mid_bounds hle
      apply Eff.wp_attempt_seq (blockTimestamp_charged hbilled hdepth _ l hInv hearly)
      rintro (exc | t) l' hlook
      · have hstep := hlook.charged
        dsimp only
        split_ifs
        · refine Eff.wp_mono (ih _ _ _ (by omega) l' hstep.metered.keeps hstep.early
            (hstep.grows _ hok)) ?_
          rintro r l'' ⟨hrest, hvalue⟩
          refine ⟨(hstep.trans hrest).widen hbilled.nonneg (by omega), fun b hb => ?_⟩
          obtain ⟨hcached, hb⟩ := hvalue b hb
          exact ⟨hcached, hb.imp id fun hb => by omega⟩
        · rw [Eff.wp_throw]
          exact ⟨hstep.widen hbilled.nonneg (by omega), by simp⟩
      · have hstep := hlook.charged
        refine Eff.wp_mono (ih _ _ _ (by omega) l' hstep.metered.keeps hstep.early
          (hlook.value t rfl).1) ?_
        rintro r l'' ⟨hrest, hvalue⟩
        refine ⟨(hstep.trans hrest).widen hbilled.nonneg (by omega), fun b hb => ?_⟩
        obtain ⟨hcached, hb⟩ := hvalue b hb
        exact ⟨hcached, .inr (by omega)⟩
    · rw [Eff.wp_pure]
      refine ⟨(charged_refl hInv hearly).widen hbilled.nonneg (Nat.zero_le _), fun b hb => ?_⟩
      cases hb
      exact ⟨hok, .inl rfl⟩

theorem oldestAccessible_charged (target : Instant) (failed known : ℤ) (k : ℕ)
    (hsize : known - failed < 2 ^ k) (l : Lookup σ) (hInv : Inv l.client)
    (hearly : Early start head depth l.cache) (hok : Cached l known) :
    Eff.wp (do
        let oldestAccessible ← findOldestAccessibleBlock client failed known
        let oldestTs ← blockTimestamp client oldestAccessible
        if oldestTs > target then throw windowTooShort else pure oldestAccessible) l fun r l' =>
      Charged Inv measure cost start head depth k l l' ∧
        ∀ b, r = .ok b → b = known ∨ failed < b := by
  have hloop : known + 1 - (failed + 1) < 2 ^ k := by omega
  apply Eff.wp_seq (oldestAccessibleLoop_charged hbilled hdepth _ _ _ k hloop l hInv hearly hok)
  · rintro b l' ⟨hfound, hvalue⟩
    obtain ⟨hcached, hb⟩ := hvalue b rfl
    apply Eff.wp_seq (blockTimestamp_charged hbilled hdepth b l' hfound.metered.keeps hfound.early)
    · intro t l'' hlook
      have hcharged := hfound.trans (hlook.hit hcached)
      split_ifs
      · rw [Eff.wp_throw]
        exact ⟨hcharged, by simp⟩
      · rw [Eff.wp_pure]
        refine ⟨hcharged, fun b' hb' => ?_⟩
        cases hb'
        exact hb.imp id fun hb => by omega
    · intro e l'' hlook
      exact ⟨hfound.trans (hlook.hit hcached), by simp⟩
  · rintro e l' ⟨hfound, -⟩
    exact ⟨hfound, by simp⟩

-- the blocks between the last one that was answered and the head are about half a step
theorem searchLowLoop_charged (known step : ℤ) (hstep : 0 < step) (j k : ℕ)
    (hdeep : (depth : ℤ) < 2 ^ k) (hshort : step < 2 * depth) (hrounds : 2 * depth ≤ 2 ^ j * step)
    (hnear : step ≤ 2 * (head - known) + 1) (hfar : 2 * (head - known) ≤ step) (l : Lookup σ)
    (hInv : Inv l.client) (hearly : Early start head depth l.cache) (hok : Cached l known) :
    Eff.wp (searchLowLoop client start head known step hstep) l fun r l' =>
      Charged Inv measure cost start head depth (j + k) l l' ∧
        ∀ low, r = .ok low → head < low + 2 * depth := by
  induction j generalizing known step l with
  | zero => omega
  | succ j ih =>
    rw [searchLowLoop]
    apply Eff.wp_attempt_seq (blockTimestamp_charged hbilled hdepth _ l hInv hearly)
    rintro (exc | t) l' hlook
    · have hstep' := hlook.charged
      dsimp only
      split_ifs
      · refine Eff.wp_mono (oldestAccessible_charged hbilled hdepth start _ known k (by omega) l'
          hstep'.metered.keeps hstep'.early (hstep'.grows _ hok)) ?_
        rintro r l'' ⟨hrest, hvalue⟩
        refine ⟨(hstep'.trans hrest).widen hbilled.nonneg (by omega), fun low hlow => ?_⟩
        rcases hvalue low hlow with hlow | hlow
        · omega
        · omega
      · rw [Eff.wp_throw]
        exact ⟨hstep'.widen hbilled.nonneg (by omega), by simp⟩
    · have hstep' := hlook.charged
      dsimp only
      split_ifs with hstop
      · rw [Eff.wp_pure]
        refine ⟨hstep'.widen hbilled.nonneg (by omega), fun low hlow => ?_⟩
        cases hlow
        omega
      · obtain ⟨hlate, hne⟩ := not_or.mp hstop
        obtain ⟨hcached, hdeepEarly⟩ := hlook.value t rfl
        have hshallow : ¬ max 0 (head - step) + depth ≤ head := fun hle =>
          hlate (hdeepEarly (by omega) hle)
        have hagain : 2 * (depth : ℤ) ≤ 2 ^ j * (step * 2) := by
          rw [pow_succ] at hrounds
          linarith
        refine Eff.wp_mono (ih _ _ (by omega) (by omega) hagain (by omega) (by omega) l'
          hstep'.metered.keeps hstep'.early hcached) ?_
        rintro r l'' ⟨hrest, hvalue⟩
        exact ⟨(hstep'.trans hrest).widen hbilled.nonneg (by omega), hvalue⟩

theorem findSearchLowBlock_charged (highTs : Instant) (k : ℕ) (hdeep : (depth : ℤ) < 2 ^ k)
    (l : Lookup σ) (hInv : Inv l.client) (hearly : Early start head depth l.cache)
    (hok : Cached l head) :
    Eff.wp (findSearchLowBlock client (.utc start) head (.utc highTs)) l fun r l' =>
      Charged Inv measure cost start head depth (2 * k + 1) l l' ∧
        ∀ low, r = .ok low → head < low + 2 * depth := by
  have hpos := hdepth.positive
  simp only [findSearchLowBlock, Eff.wp_bind, ensureUtc, astimezone_utc, Eff.wp_ofExcept]
  split_ifs
  · rw [Eff.wp_pure]
    refine ⟨(charged_refl hInv hearly).widen hbilled.nonneg (Nat.zero_le _), fun low hlow => ?_⟩
    cases hlow
    omega
  · have hrounds : 2 * (depth : ℤ) ≤ 2 ^ (k + 1) * 1 := by
      rw [pow_succ]
      omega
    refine Eff.wp_mono (searchLowLoop_charged hbilled hdepth head 1 (by omega) (k + 1) k hdeep
      (by omega) hrounds (by omega) (by omega) l hInv hearly hok) ?_
    rintro r l' ⟨hcharged, hvalue⟩
    exact ⟨hcharged.widen hbilled.nonneg (by omega), hvalue⟩

theorem searchInterval_charged (stop finalizedTs : Instant) (k : ℕ) (hdeep : (depth : ℤ) < 2 ^ k)
    (l : Lookup σ) (hInv : Inv l.client) (hearly : Early start head depth l.cache)
    (hok : Cached l head) :
    Eff.wp (searchInterval client start stop head finalizedTs) l fun _ l' =>
      Charged Inv measure cost start head depth (4 * k + 3) l l' := by
  have hwide : 2 * (depth : ℤ) < 2 ^ (k + 1) := by
    rw [pow_succ]
    omega
  apply Eff.wp_seq (findSearchLowBlock_charged hbilled hdepth finalizedTs k hdeep l hInv hearly hok)
  · rintro low l₁ ⟨hlow, hvalue⟩
    have hnear := hvalue low rfl
    apply Eff.wp_seq (findFirstBlock_charged hbilled hdepth start low (k + 1) (by omega) l₁
      hlow.metered.keeps hlow.early)
    · rintro fromBlock l₂ ⟨hfirst, hfrom⟩
      have hpow : (0 : ℤ) < 2 ^ (k + 1) := by positivity
      have hsize : head + 1 - fromBlock < 2 ^ (k + 1) := by
        rcases hfrom fromBlock rfl with hb | hb
        · omega
        · omega
      apply Eff.wp_seq (findFirstBlock_charged hbilled hdepth stop fromBlock (k + 1) hsize l₂
        hfirst.metered.keeps hfirst.early)
      · rintro endExclusive l₃ ⟨hsecond, -⟩
        have hall := ((hlow.trans hfirst).trans hsecond).widen hbilled.nonneg
          (by omega : _ ≤ 4 * k + 3)
        dsimp only
        split_ifs
        · exact hall
        · exact hall
      · rintro e l₃ ⟨hsecond, -⟩
        exact ((hlow.trans hfirst).trans hsecond).widen hbilled.nonneg (by omega)
    · rintro e l₂ ⟨hfirst, -⟩
      exact (hlow.trans hfirst).widen hbilled.nonneg (by omega)
  · rintro e l₁ ⟨hlow, -⟩
    exact hlow.widen hbilled.nonneg (by omega)

end Search

theorem early_seed (hpos : 0 < depth) (ts : Instant) : Early start head depth (seedCache head ts) := by
  intro n t _ hle hn
  rw [seedCache] at hn
  split_ifs at hn with heq
  omega

def DepthWithin (client : BlockLookupClient σ) (start : Instant) (s : σ) (k : ℕ) : Prop :=
  ∀ t number ts, Finalized client s t number ts →
    ∃ depth : ℕ, Depth client start number depth ∧ depth < 2 ^ k

theorem resolve_metered (hbilled : Billed client Inv measure cost) {first : ℕ}
    (hfinalized : Bills Inv measure cost first client.ethGetFinalizedBlock) (start stop : Datetime)
    (k : ℕ) (s : σ) (hdepth : DepthWithin client start.instant s k) (hInv : Inv s) :
    Eff.wp (resolveIntervalBlockRange client start stop) s fun _ t =>
      Metered Inv measure cost (first + (4 * k + 3)) s t := by
  have hnone : Metered Inv measure cost (first + (4 * k + 3)) s s :=
    (metered_refl hInv).widen hbilled.nonneg (Nat.zero_le _)
  rw [resolveIntervalBlockRange, Eff.wp_bind, Eff.wp_ofExcept]
  cases hstart : ensureUtc start "interval_start_utc" with
  | error e => exact hnone
  | ok startUtc =>
    obtain ⟨-, rfl⟩ := astimezone_ok hstart
    dsimp only
    rw [Eff.wp_bind, Eff.wp_ofExcept]
    cases ensureUtc stop "interval_end_utc" with
    | error e => exact hnone
    | ok stopUtc =>
      dsimp only
      split_ifs
      · exact hnone
      · have hhead := hfinalized s hInv
        have hone := hhead.widen hbilled.nonneg (Nat.le_add_right first (4 * k + 3))
        rw [Eff.wp_iff]
        rcases hrun : client.ethGetFinalizedBlock s with ⟨e | block, t⟩
        · rw [Eff.bind_of_error hrun]
          rwa [hrun] at hone
        · rw [Eff.bind_of_ok hrun]
          rw [hrun] at hhead hone
          cases hnumber : blockNumberFromPayload block with
          | error e => exact hone
          | ok number =>
            rw [Eff.ofExcept_ok_bind]
            cases hts : blockTimestampFromPayload block with
            | error e => exact hone
            | ok ts =>
              rw [Eff.ofExcept_ok_bind]
              split_ifs
              · exact hone
              · obtain ⟨depth, hdeep, hlt⟩ := hdepth t number ts ⟨block, hrun, hnumber, hts⟩
                have hsearch := searchInterval_charged hbilled hdeep stopUtc ts k
                  (by exact_mod_cast hlt) ⟨t, seedCache number ts⟩ hhead.keeps
                  (early_seed hdeep.positive ts) (seedCache_cached number ts t)
                exact hhead.trans hsearch.metered

theorem recordedLookups_billed (client : BlockLookupClient σ) :
    Billed (recordedLookups client) (fun _ => True) (fun t => t.2.length) 1 :=
  ⟨Nat.zero_le 1, fun n s _ => ⟨trivial, by simp [recordedLookups, record]⟩⟩

theorem DepthWithin.recorded {s : σ} (h : DepthWithin client start s k) :
    DepthWithin (recordedLookups client) start (s, []) k := by
  rintro ⟨t, trace⟩ number ts ⟨block, hblock, hnumber, hts⟩
  have hrun : client.ethGetFinalizedBlock s = (.ok block, t) := by
    have hpair := Prod.mk.inj hblock
    exact Prod.ext hpair.1 (congrArg Prod.fst hpair.2)
  obtain ⟨depth, hdepth, hlt⟩ := h t number ts ⟨block, hrun, hnumber, hts⟩
  exact ⟨depth, ⟨hdepth.positive, fun n hpos hle u => hdepth.early n hpos hle u.1⟩, hlt⟩

theorem requestedBlocks_length (client : BlockLookupClient σ) (start stop : Datetime) (k : ℕ) (s : σ)
    (hdepth : DepthWithin client start.instant s k) :
    (requestedBlocks client start stop s).length ≤ 4 * k + 3 := by
  have hfinalized : Bills (fun _ => True) (fun t : σ × BlockRequests => t.2.length) 1 0
      (recordedLookups client).ethGetFinalizedBlock :=
    fun t _ => ⟨trivial, by simp [recordedLookups, Eff.zoom]⟩
  have hmetered := resolve_metered (recordedLookups_billed client) hfinalized start stop k (s, [])
    hdepth.recorded trivial
  simpa [requestedBlocks, lookups] using hmetered.paid

variable {time : ℕ → Instant} {s : σ} {b h : ℕ}

theorem lt_pow_log (n : ℕ) : max 1 n < 2 ^ (Nat.log 2 n + 1) := by
  have hlog : n < 2 ^ (Nat.log 2 n + 1) := Nat.lt_pow_succ_log_self (by decide) n
  have hone : 1 < 2 ^ (Nat.log 2 n + 1) := Nat.one_lt_two_pow (Nat.succ_ne_zero _)
  exact max_lt hone hlog

theorem depthWithin_head (start : Instant)
    (hhead : ∀ t number ts, Finalized client s t number ts → number ≤ h) :
    DepthWithin client start s (Nat.log 2 h + 1) := by
  intro t number ts hfinalized
  have hle := hhead t number ts hfinalized
  refine ⟨max 1 h, ⟨by omega, ?_⟩, lt_pow_log h⟩
  intro n hpos hdeep
  omega

theorem depthWithin_last (hmono : StrictMono time) (hb : LastAtOrBefore time start b)
    (hhead : ∀ t number ts, Finalized client s t number ts → number ≤ h)
    (hlookup : ∀ n : ℕ, n ≤ h → ∀ u block, (client.ethGetBlockByNumber n u).1 = .ok block →
      blockTimestampFromPayload block = .ok (time n)) :
    DepthWithin client start s (Nat.log 2 (h - b) + 1) := by
  intro t number ts hfinalized
  have hle := hhead t number ts hfinalized
  refine ⟨max 1 (h - b), ⟨by omega, ?_⟩, lt_pow_log (h - b)⟩
  intro n hpos hdeep u block timestamp hblock htimestamp
  lift n to ℕ using hpos.le
  have hnb : n ≤ b := by omega
  rw [hlookup n (by omega) u block hblock] at htimestamp
  cases htimestamp
  rcases hb.here with hearly | hzero
  · exact (hmono.monotone hnb).trans hearly
  · omega

theorem TrueOrError.finalized_le (hclient : TrueOrError client time h) (t : σ) (number : ℤ)
    (ts : Instant) (hfinalized : Finalized client s t number ts) : number ≤ h := by
  obtain ⟨block, hblock, hnumber, -⟩ := hfinalized.answered
  rw [(hclient.finalized s block (by rw [hblock])).1] at hnumber
  cases hnumber
  exact le_rfl

theorem TrueOrError.lookup_true (hclient : TrueOrError client time h) (n : ℕ) (hn : n ≤ h) (u : σ)
    (block : JsonObject) (hblock : (client.ethGetBlockByNumber n u).1 = .ok block) :
    blockTimestampFromPayload block = .ok (time n) := by
  rcases hclient.lookup n hn u with ⟨block', hblock', htime⟩ | ⟨e, he⟩
  · rw [hblock] at hblock'
    cases hblock'
    exact htime
  · rw [hblock] at he
    cases he

theorem resolve_lookups_logarithmic (client : BlockLookupClient σ) (start stop : Datetime) (s : σ) :
    (∀ head : ℕ, (∀ t number ts, Finalized client s t number ts → number ≤ head) →
      (requestedBlocks client start stop s).length ≤ 4 * Nat.log 2 head + 7) ∧
    ∀ (time : ℕ → Instant) (head b : ℕ), StrictMono time → TrueOrError client time head →
      LastAtOrBefore time start.instant b →
      (requestedBlocks client start stop s).length ≤ 4 * Nat.log 2 (head - b) + 7 := by
  constructor
  · intro head hhead
    have hlength := requestedBlocks_length client start stop _ s
      (depthWithin_head start.instant hhead)
    omega
  · intro time head b hmono hclient hb
    have hlength := requestedBlocks_length client start stop _ s
      (depthWithin_last hmono hb hclient.finalized_le hclient.lookup_true)
    omega

theorem resolve_lookups_logarithmic_servingFrom :
    (requestedBlocks (servingFrom 4 1) (secondsUtc 12) (secondsUtc 30) ()).length ≤
        4 * Nat.log 2 4 + 7 ∧
      (requestedBlocks (servingFrom 4 1) (secondsUtc 12) (secondsUtc 30) ()).length ≤
        4 * Nat.log 2 (4 - 1) + 7 := by
  have hbounds := resolve_lookups_logarithmic (servingFrom 4 1) (secondsUtc 12) (secondsUtc 30) ()
  exact ⟨hbounds.1 4 servingFrom_trueOrError.finalized_le,
    hbounds.2 everyTwelveSeconds 4 1 everyTwelveSeconds_strictMono servingFrom_trueOrError
      everyTwelveSeconds_last⟩

end EthereumLogs.BlockRange
