import EthereumLogs.BlockRange.Resolve
import EthereumLogs.Library.Boundary
import Mathlib.Data.Int.ConditionallyCompleteOrder

namespace EthereumLogs.BlockRange
open Python Effect Boundary

variable {σ : Type}

def timeAt (time : ℕ → Instant) (n : ℤ) : Instant := time n.toNat

def Reports (time : ℕ → Instant) (n : ℤ) (r : Except Exc JsonObject) : Prop :=
  ∃ block, r = .ok block ∧ blockTimestampFromPayload block = .ok (timeAt time n)

structure Answers (client : BlockLookupClient σ) (time : ℕ → Instant) (head : ℤ)
    (accessible : ℤ → Prop) (refusal : ℤ → Exc → Prop) : Prop where
  lookup : ∀ n, 0 ≤ n → n ≤ head → ∀ s,
    (Reports time n (client.ethGetBlockByNumber n s).1 ∧ accessible n) ∨
    (∃ e, (client.ethGetBlockByNumber n s).1 = .error e ∧ refusal n e)

def CacheTrue (time : ℕ → Instant) (accessible : ℤ → Prop) (l : Lookup σ) : Prop :=
  ∀ n t, 0 ≤ n → l.cache n = some t → t = timeAt time n ∧ accessible n

def Cached (l : Lookup σ) (n : ℤ) : Prop := ∃ t, l.cache n = some t

structure Progress (time : ℕ → Instant) (accessible : ℤ → Prop) (l l' : Lookup σ) : Prop where
  cacheTrue : CacheTrue time accessible l'
  grows : ∀ n t, l.cache n = some t → l'.cache n = some t

variable {client : BlockLookupClient σ} {time : ℕ → Instant} {accessible : ℤ → Prop}
  {refusal : ℤ → Exc → Prop} {l l' l'' : Lookup σ} {head target n : ℤ}

theorem Progress.refl (h : CacheTrue time accessible l) : Progress time accessible l l :=
  ⟨h, fun _ _ h => h⟩

theorem Progress.trans (h : Progress time accessible l l') (h' : Progress time accessible l' l'') :
    Progress time accessible l l'' :=
  ⟨h'.cacheTrue, fun n t hn => h'.grows n t (h.grows n t hn)⟩

theorem Progress.cached (h : Progress time accessible l l') (hn : Cached l n) : Cached l' n := by
  obtain ⟨t, ht⟩ := hn
  exact ⟨t, h.grows n t ht⟩

theorem CacheTrue.of_cached (h : CacheTrue time accessible l) (h0 : 0 ≤ n) (hn : Cached l n) :
    accessible n := by
  obtain ⟨t, ht⟩ := hn
  exact (h n t h0 ht).2

structure LookedUp (time : ℕ → Instant) (accessible : ℤ → Prop) (refusal : ℤ → Exc → Prop)
    (n : ℤ) (l : Lookup σ) (r : Except Exc Instant) (l' : Lookup σ) : Prop where
  progress : Progress time accessible l l'
  value : ∀ t, r = .ok t → t = timeAt time n ∧ Cached l' n
  refused : ∀ e, r = .error e → refusal n e ∧ ¬ Cached l n

theorem store_progress (hl : CacheTrue time accessible l) (hn : accessible n)
    (hmiss : l.cache n = none) (s : σ) :
    Progress time accessible l (Lookup.store { l with client := s } n (timeAt time n)) := by
  constructor
  · intro k t h0 hk
    simp only [Lookup.store] at hk
    split at hk
    · rename_i he
      cases he
      cases hk
      exact ⟨rfl, hn⟩
    · exact hl k t h0 hk
  · intro k t hk
    have hne : k ≠ n := fun he => by simp [he, hmiss] at hk
    simpa [Lookup.store, hne] using hk

theorem blockTimestamp_spec (hc : Answers client time head accessible refusal) (hn : 0 ≤ n)
    (hh : n ≤ head) (hl : CacheTrue time accessible l) :
    Eff.wp (blockTimestamp client n) l (LookedUp time accessible refusal n l) := by
  simp only [blockTimestamp, Eff.wp_bind, Eff.wp_get]
  cases hcache : l.cache n with
  | some t =>
    rw [Eff.wp_pure]
    refine ⟨.refl hl, ?_, by simp⟩
    intro t' ht'
    cases ht'
    exact ⟨(hl n t hn hcache).1, t, hcache⟩
  | none =>
    simp only [Eff.wp_bind, onClient, Eff.wp_zoom, Eff.wp_ofExcept, Eff.wp_modify, Eff.wp_pure]
    rw [Eff.wp_iff]
    rcases hc.lookup n hn hh l.client with ⟨⟨block, hb, hts⟩, ha⟩ | ⟨e, he, hr⟩
    · rw [hb]
      simp only [hts]
      refine ⟨store_progress hl ha hcache _, ?_, by simp⟩
      intro t ht
      cases ht
      exact ⟨rfl, timeAt time n, by simp [Lookup.store]⟩
    · rw [he]
      refine ⟨⟨hl, fun _ _ h => h⟩, by simp, ?_⟩
      intro e' he'
      cases he'
      exact ⟨hr, by simp [Cached, hcache]⟩

structure SearchedFirst (time : ℕ → Instant) (accessible : ℤ → Prop) (refusal : ℤ → Exc → Prop)
    (target : Instant) (low high : ℤ) (l : Lookup σ) (r : Except Exc ℤ) (l' : Lookup σ) :
    Prop where
  progress : Progress time accessible l l'
  splits : ∀ b, r = .ok b → Splits (fun n => target ≤ timeAt time n) low high b
  refused : ∀ e, r = .error e → ∃ n, low ≤ n ∧ n ≤ high ∧ refusal n e

variable {low high : ℤ}

theorem SearchedFirst.after {r : Except Exc ℤ} (h : Progress time accessible l l')
    (h' : SearchedFirst time accessible refusal target low high l' r l'') :
    SearchedFirst time accessible refusal target low high l r l'' :=
  ⟨h.trans h'.progress, h'.splits, h'.refused⟩

theorem firstBlockLoop_spec (hc : Answers client time head accessible refusal) (hlow : 0 ≤ low)
    (hhigh : high ≤ head) (left right : ℤ) (l : Lookup σ) (hl : CacheTrue time accessible l)
    (hb : Bisecting (fun n => target ≤ timeAt time n) low high left right) :
    Eff.wp (firstBlockLoop client target left right (right + 1)) l
      (SearchedFirst time accessible refusal target low high l) := by
  rw [firstBlockLoop]
  split_ifs with hle
  · obtain ⟨hml, hmr⟩ := mid_bounds hle
    have hll := hb.low_le
    have hrh := hb.le_high
    have hmid0 : 0 ≤ (left + right) / 2 := by omega
    have hmidHead : (left + right) / 2 ≤ head := by omega
    apply Eff.wp_seq (blockTimestamp_spec hc hmid0 hmidHead hl)
    · intro midTs l' hlook
      obtain ⟨rfl, -⟩ := hlook.value midTs rfl
      split_ifs with hge
      · have hih := firstBlockLoop_spec hc hlow hhigh _ _ l' hlook.progress.cacheTrue
          (hb.take_lower hle hge)
        rw [sub_add_cancel] at hih
        exact Eff.wp_mono hih fun r t h => h.after hlook.progress
      · have hih := firstBlockLoop_spec hc hlow hhigh _ _ l' hlook.progress.cacheTrue
          (hb.take_upper hle hge)
        exact Eff.wp_mono hih fun r t h => h.after hlook.progress
    · intro e l' hlook
      refine ⟨hlook.progress, by simp, ?_⟩
      intro e' he'
      cases he'
      have hmidLow : low ≤ (left + right) / 2 := by omega
      have hmidHigh : (left + right) / 2 ≤ high := by omega
      exact ⟨_, hmidLow, hmidHigh, (hlook.refused e rfl).1⟩
  · rw [Eff.wp_pure]
    refine ⟨.refl hl, ?_, by simp⟩
    intro b hb'
    cases hb'
    exact hb.splits hle
termination_by (right + 1 - left).toNat
decreasing_by all_goals omega

theorem findFirstBlock_spec (hc : Answers client time head accessible refusal) (hlow : 0 ≤ low)
    (hle : low ≤ head) (hl : CacheTrue time accessible l) :
    Eff.wp (findFirstBlockAtOrAfter client (.utc target) low (some head)) l
      (SearchedFirst time accessible refusal target low head l) := by
  simp only [findFirstBlockAtOrAfter, Eff.wp_bind, ensureUtc, astimezone_utc, Eff.wp_ofExcept,
    Eff.wp_pure]
  have hstart : Bisecting (fun n => target ≤ timeAt time n) low head low head :=
    .start (by omega)
  rw [if_neg (not_lt.mpr (hlow.trans hle)), if_neg (not_lt.mpr hlow), if_neg (not_lt.mpr hle)]
  exact firstBlockLoop_spec hc hlow le_rfl low head l hl hstart

structure Narrowing (refusal : ℤ → Exc → Prop) (failed left right oldestOk : ℤ) (l : Lookup σ) :
    Prop where
  above_failed : failed < left
  left_le : left ≤ right + 1
  cached : Cached l oldestOk
  below : left = failed + 1 ∨ ∃ e, refusal (left - 1) e ∧ isForbiddenBlockLookup e = true
  above : oldestOk = right + 1 ∨ (oldestOk = right ∧ left ≤ right)

structure FoundOldest (time : ℕ → Instant) (accessible : ℤ → Prop) (refusal : ℤ → Exc → Prop)
    (failed known : ℤ) (l : Lookup σ) (r : Except Exc ℤ) (l' : Lookup σ) : Prop where
  progress : Progress time accessible l l'
  value : ∀ b, r = .ok b → failed < b ∧ b ≤ known ∧ Cached l' b ∧
    (b = failed + 1 ∨ ∃ e, refusal (b - 1) e ∧ isForbiddenBlockLookup e = true)
  refused : ∀ e, r = .error e → isForbiddenBlockLookup e = false ∧ ∃ n, refusal n e

variable {failed known left right oldestOk : ℤ}

theorem FoundOldest.after {r : Except Exc ℤ} (h : Progress time accessible l l')
    (h' : FoundOldest time accessible refusal failed known l' r l'') :
    FoundOldest time accessible refusal failed known l r l'' :=
  ⟨h.trans h'.progress, h'.value, h'.refused⟩

theorem Narrowing.take_lower (h : Narrowing refusal failed left right oldestOk l)
    (hle : left ≤ right) (hmid : Cached l' ((left + right) / 2)) :
    Narrowing refusal failed left ((left + right) / 2 - 1) ((left + right) / 2) l' := by
  have hbounds := mid_bounds hle
  have hleft : left ≤ (left + right) / 2 - 1 + 1 := by omega
  have hoverlap : (left + right) / 2 = (left + right) / 2 - 1 + 1 := by omega
  exact ⟨h.above_failed, hleft, hmid, h.below, .inl hoverlap⟩

theorem Narrowing.take_upper (h : Narrowing refusal failed left right oldestOk l)
    (hle : left ≤ right) {e : Exc} (he : refusal ((left + right) / 2) e)
    (hforbidden : isForbiddenBlockLookup e = true) (hmiss : ¬ Cached l ((left + right) / 2))
    (hprogress : Progress time accessible l l') :
    Narrowing refusal failed ((left + right) / 2 + 1) right oldestOk l' := by
  have hmid := mid_bounds hle
  have hfailed := h.above_failed
  have habove : failed < (left + right) / 2 + 1 := by omega
  have hleft : (left + right) / 2 + 1 ≤ right + 1 := by omega
  refine ⟨habove, hleft, hprogress.cached h.cached, .inr ⟨e, ?_, hforbidden⟩, ?_⟩
  · rwa [add_sub_cancel_right]
  · rcases h.above with hend | ⟨hend, -⟩
    · exact .inl hend
    · refine .inr ⟨hend, ?_⟩
      have hne : (left + right) / 2 ≠ right := by
        intro hm
        rw [hm, ← hend] at hmiss
        exact hmiss h.cached
      omega

theorem oldestAccessibleLoop_spec (hc : Answers client time head accessible refusal)
    (hfailed : 0 ≤ failed) (hknown : known ≤ head) (left right oldestOk : ℤ) (l : Lookup σ)
    (hl : CacheTrue time accessible l) (hright : right ≤ known) (hok : oldestOk ≤ known)
    (hn : Narrowing refusal failed left right oldestOk l) :
    Eff.wp (oldestAccessibleLoop client left right oldestOk) l
      (FoundOldest time accessible refusal failed known l) := by
  have habove := hn.above_failed
  rw [oldestAccessibleLoop]
  split_ifs with hle
  · have hmid := mid_bounds hle
    have hmid0 : 0 ≤ (left + right) / 2 := by omega
    have hmidKnown : (left + right) / 2 ≤ known := by omega
    apply Eff.wp_attempt_seq (blockTimestamp_spec hc hmid0 (hmidKnown.trans hknown) hl)
    rintro (exc | t) l' hlook
    · obtain ⟨hrefusal, hmiss⟩ := hlook.refused exc rfl
      dsimp only
      split_ifs with hforbidden
      · have hih := oldestAccessibleLoop_spec hc hfailed hknown _ _ _ l' hlook.progress.cacheTrue
          hright hok (hn.take_upper hle hrefusal hforbidden hmiss hlook.progress)
        exact Eff.wp_mono hih fun r t h => h.after hlook.progress
      · rw [Eff.wp_throw]
        refine ⟨hlook.progress, by simp, ?_⟩
        intro e he
        cases he
        exact ⟨by simpa using hforbidden, _, hrefusal⟩
    · obtain ⟨-, hcached⟩ := hlook.value t rfl
      have hrightKnown : (left + right) / 2 - 1 ≤ known := by omega
      have hih := oldestAccessibleLoop_spec hc hfailed hknown _ _ _ l' hlook.progress.cacheTrue
        hrightKnown hmidKnown (hn.take_lower hle hcached)
      exact Eff.wp_mono hih fun r t h => h.after hlook.progress
  · rw [Eff.wp_pure]
    refine ⟨.refl hl, ?_, by simp⟩
    intro b hb
    cases hb
    have hleft := hn.left_le
    have heq : left = oldestOk := by
      have hend := hn.above
      omega
    subst heq
    exact ⟨habove, hok, hn.cached, hn.below⟩
termination_by (right + 1 - left).toNat
decreasing_by all_goals omega

theorem findOldestAccessibleBlock_spec (hc : Answers client time head accessible refusal)
    (hfailed : 0 ≤ failed) (hlt : failed < known) (hknown : known ≤ head)
    (hl : CacheTrue time accessible l) (hcached : Cached l known) :
    Eff.wp (findOldestAccessibleBlock client failed known) l
      (FoundOldest time accessible refusal failed known l) := by
  have hnext : failed + 1 ≤ known := by omega
  have hstart : Narrowing refusal failed (failed + 1) known known l :=
    ⟨by omega, by omega, hcached, .inl rfl, .inr ⟨rfl, hnext⟩⟩
  exact oldestAccessibleLoop_spec hc hfailed hknown _ _ _ l hl le_rfl le_rfl hstart

structure FoundLow (time : ℕ → Instant) (accessible : ℤ → Prop) (refusal : ℤ → Exc → Prop)
    (target : Instant) (head : ℤ) (l : Lookup σ) (r : Except Exc ℤ) (l' : Lookup σ) : Prop where
  progress : Progress time accessible l l'
  value : ∀ low, r = .ok low → 0 ≤ low ∧ low ≤ head ∧ Cached l' low ∧
    (low = 0 ∨ timeAt time low ≤ target)
  refused : ∀ e, r = .error e →
    (isForbiddenBlockLookup e = false ∧ ∃ n, refusal n e) ∨
    (e = windowTooShort ∧ ∃ b, 0 < b ∧ b ≤ head ∧ accessible b ∧ target < timeAt time b ∧
      ∃ e', refusal (b - 1) e' ∧ isForbiddenBlockLookup e' = true)

theorem FoundLow.after {r : Except Exc ℤ} (h : Progress time accessible l l')
    (h' : FoundLow time accessible refusal target head l' r l'') :
    FoundLow time accessible refusal target head l r l'' :=
  ⟨h.trans h'.progress, h'.value, h'.refused⟩

theorem oldestAccessible_low (hc : Answers client time head accessible refusal) (target : Instant)
    (hfailed : 0 ≤ failed) (hlt : failed < known) (hknown : known ≤ head)
    (hl : CacheTrue time accessible l) (hcached : Cached l known) {exc : Exc}
    (hrefusal : refusal failed exc) (hforbidden : isForbiddenBlockLookup exc = true) :
    Eff.wp (do
        let oldestAccessible ← findOldestAccessibleBlock client failed known
        let oldestTs ← blockTimestamp client oldestAccessible
        if oldestTs > target then throw windowTooShort else pure oldestAccessible) l
      (FoundLow time accessible refusal target head l) := by
  apply Eff.wp_seq (findOldestAccessibleBlock_spec hc hfailed hlt hknown hl hcached)
  · intro b l' hfound
    obtain ⟨hbelow, habove, hb, hbefore⟩ := hfound.value b rfl
    have hpos : 0 < b := by omega
    have hbHead : b ≤ head := habove.trans hknown
    apply Eff.wp_seq (blockTimestamp_spec hc hpos.le hbHead hfound.progress.cacheTrue)
    · intro t l'' hlook
      obtain ⟨rfl, hb'⟩ := hlook.value t rfl
      split_ifs with hlate
      · rw [Eff.wp_throw]
        refine ⟨hfound.progress.trans hlook.progress, by simp, ?_⟩
        intro e he
        cases he
        have haccessible := hlook.progress.cacheTrue.of_cached hpos.le hb'
        refine .inr ⟨rfl, b, hpos, hbHead, haccessible, hlate, ?_⟩
        rcases hbefore with rfl | hbefore
        · exact ⟨exc, by rwa [add_sub_cancel_right], hforbidden⟩
        · exact hbefore
      · rw [Eff.wp_pure]
        refine ⟨hfound.progress.trans hlook.progress, ?_, by simp⟩
        intro low hlow
        cases hlow
        exact ⟨hpos.le, hbHead, hb', .inr (not_lt.mp hlate)⟩
    · intro e l'' hlook
      exact absurd hb (hlook.refused e rfl).2
  · intro e l' hfound
    refine ⟨hfound.progress, by simp, ?_⟩
    intro e' he'
    cases he'
    exact .inl (hfound.refused e rfl)

theorem searchLowLoop_spec (hc : Answers client time head accessible refusal) (known step : ℤ)
    (hstep : 0 < step) (l : Lookup σ) (hl : CacheTrue time accessible l) (hknown0 : 0 ≤ known)
    (hknown : known ≤ head) (hlt : head - step < known) (hcached : Cached l known) :
    Eff.wp (searchLowLoop client target head known step hstep) l
      (FoundLow time accessible refusal target head l) := by
  rw [searchLowLoop]
  have hcandidate0 : 0 ≤ max 0 (head - step) := le_max_left _ _
  have hcandidateHead : max 0 (head - step) ≤ head := by omega
  apply Eff.wp_attempt_seq (blockTimestamp_spec hc hcandidate0 hcandidateHead hl)
  rintro (exc | t) l' hlook
  · obtain ⟨hrefusal, hmiss⟩ := hlook.refused exc rfl
    dsimp only
    split_ifs with hforbidden
    · have hne : max 0 (head - step) ≠ known := fun he => hmiss (he ▸ hcached)
      have hbelow : max 0 (head - step) < known := by omega
      have hlow := oldestAccessible_low hc target hcandidate0 hbelow hknown
        hlook.progress.cacheTrue (hlook.progress.cached hcached) hrefusal hforbidden
      exact Eff.wp_mono hlow fun r t h => h.after hlook.progress
    · rw [Eff.wp_throw]
      refine ⟨hlook.progress, by simp, ?_⟩
      intro e he
      cases he
      exact .inl ⟨by simpa using hforbidden, _, hrefusal⟩
  · obtain ⟨rfl, hcand⟩ := hlook.value t rfl
    dsimp only
    split_ifs with hstop
    · rw [Eff.wp_pure]
      refine ⟨hlook.progress, ?_, by simp⟩
      intro low hlow
      cases hlow
      exact ⟨hcandidate0, hcandidateHead, hcand, hstop.symm⟩
    · have hdouble : head - step * 2 < max 0 (head - step) := by omega
      have hih := searchLowLoop_spec hc (max 0 (head - step)) (step * 2) (by omega) l'
        hlook.progress.cacheTrue hcandidate0 hcandidateHead hdouble hcand
      exact Eff.wp_mono hih fun r t h => h.after hlook.progress
termination_by (head - step).toNat
decreasing_by omega

theorem findSearchLowBlock_spec (hc : Answers client time head accessible refusal)
    (hhead : 0 ≤ head) (hl : CacheTrue time accessible l) (hcached : Cached l head) :
    Eff.wp (findSearchLowBlock client (.utc target) head (.utc (timeAt time head))) l
      (FoundLow time accessible refusal target head l) := by
  simp only [findSearchLowBlock, Eff.wp_bind, ensureUtc, astimezone_utc, Eff.wp_ofExcept]
  split_ifs with hle
  · rw [Eff.wp_pure]
    refine ⟨.refl hl, ?_, by simp⟩
    intro low hlow
    cases hlow
    exact ⟨hhead, le_rfl, hcached, .inr hle⟩
  · exact searchLowLoop_spec hc head 1 (by omega) l hl hhead le_rfl (by omega) hcached

end EthereumLogs.BlockRange
