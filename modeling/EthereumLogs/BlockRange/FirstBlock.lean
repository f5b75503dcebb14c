import EthereumLogs.BlockRange.Search
import Mathlib.Order.Bounds.Basic
import Mathlib.Tactic.IntervalCases

namespace EthereumLogs.BlockRange
open Python Effect Boundary

variable {σ : Type} {client : BlockLookupClient σ} {time : ℕ → Instant} {high : ℤ}

theorem findFirstBlock_aware {target : Datetime} (h : target.isAware = true)
    (hrange : target.Representable) (low high : ℤ) :
    findFirstBlockAtOrAfter client target low (some high) =
      findFirstBlockAtOrAfter client (.utc target.instant) low (some high) := by
  simp only [findFirstBlockAtOrAfter, ensureUtc, astimezone_aware _ h hrange, astimezone_utc]

def AnswersTruly (client : BlockLookupClient σ) (time : ℕ → Instant) (high : ℤ) : Prop :=
  ∀ n : ℕ, n ≤ high → ∀ s, Reports time n (client.ethGetBlockByNumber n s).1

theorem AnswersTruly.answers (h : AnswersTruly client time high) :
    Answers client time high (fun _ => True) (fun _ _ => False) := by
  constructor
  intro n hn hle s
  lift n to ℕ using hn
  exact .inl ⟨h n hle s, trivial⟩

def CacheAgrees (time : ℕ → Instant) (l : Lookup σ) : Prop :=
  ∀ (n : ℕ) (t : Instant), l.cache n = some t → t = time n

theorem cacheAgrees_iff {l : Lookup σ} : CacheAgrees time l ↔ CacheTrue time (fun _ => True) l := by
  constructor
  · intro h n t hn ht
    lift n to ℕ using hn
    exact ⟨h n t ht, trivial⟩
  · intro h n t ht
    exact (h n t (by omega) ht).1

def AtOrAfter (time : ℕ → Instant) (target : Instant) (low high : ℤ) : Set ℤ :=
  {n | low ≤ n ∧ n ≤ high ∧ target ≤ timeAt time n}

def NondecreasingOn (time : ℕ → Instant) (low high : ℤ) : Prop :=
  ∀ a b, low ≤ a → a ≤ b → b ≤ high → timeAt time a ≤ timeAt time b

structure BoundaryFound (time : ℕ → Instant) (target : Instant) (low high r : ℤ) : Prop where
  low_le : low ≤ r
  le_high : r ≤ high + 1
  before : r = low ∨ timeAt time (r - 1) < target
  after : r = high + 1 ∨ target ≤ timeAt time r
  least : NondecreasingOn time low high → IsLeast (AtOrAfter time target low high) r ∨
    (r = high + 1 ∧ AtOrAfter time target low high = ∅)

theorem splits_found {target : Instant} {low r : ℤ}
    (h : Splits (fun n => target ≤ timeAt time n) low high r) :
    BoundaryFound time target low high r := by
  refine ⟨h.low_le, h.le_high, h.left.imp_right not_le.mp, h.right, ?_⟩
  intro hmono
  have hiff : ∀ n, low ≤ n → n ≤ high → (target ≤ timeAt time n ↔ r ≤ n) := fun n hln hnh =>
    h.iff_le (fun a b hla hab hbh ha => ha.trans (hmono a b hla hab hbh)) hln hnh
  rcases le_or_gt r high with hle | hgt
  · left
    constructor
    · exact ⟨h.low_le, hle, (hiff r h.low_le hle).mpr le_rfl⟩
    · rintro n ⟨hln, hnh, hn⟩
      exact (hiff n hln hnh).mp hn
  · right
    have hend := h.le_high
    constructor
    · omega
    · rw [Set.eq_empty_iff_forall_notMem]
      rintro n ⟨hln, hnh, hn⟩
      have := (hiff n hln hnh).mp hn
      omega

theorem findFirstBlockAtOrAfter_boundary (client : BlockLookupClient σ) (time : ℕ → Instant)
    (target : Datetime) (haware : target.isAware = true) (hrange : target.Representable)
    (low high : ℤ) (hlow : 0 ≤ low) (hle : low ≤ high) (l : Lookup σ)
    (hclient : AnswersTruly client time high) (hcache : CacheAgrees time l) :
    ∃ r l', findFirstBlockAtOrAfter client target low (some high) l = (.ok r, l') ∧
      BoundaryFound time target.instant low high r ∧ CacheAgrees time l' := by
  have hspec : Eff.wp (findFirstBlockAtOrAfter client target low (some high)) l
      (SearchedFirst time (fun _ => True) (fun _ _ => False) target.instant low high l) := by
    rw [findFirstBlock_aware haware hrange]
    exact findFirstBlock_spec hclient.answers hlow hle (cacheAgrees_iff.mp hcache)
  rw [Eff.wp_iff] at hspec
  rcases hrun : findFirstBlockAtOrAfter client target low (some high) l with ⟨e | r, l'⟩
  · rw [hrun] at hspec
    obtain ⟨n, -, -, hfalse⟩ := hspec.refused e rfl
    exact hfalse.elim
  · rw [hrun] at hspec
    exact ⟨r, l', rfl, splits_found (hspec.splits r rfl),
      cacheAgrees_iff.mpr hspec.progress.cacheTrue⟩

def disordered : ℕ → ℕ
  | 0 => 50
  | 1 => 20
  | 2 => 40
  | _ => 10

def disorderedTime (n : ℕ) : Instant := disordered n * microsPerSecond

def disorderedClient : BlockLookupClient Unit where
  ethGetBlockByNumber n := pure [("timestamp", .str (hex (disordered n.toNat)))]
  ethGetFinalizedBlock := throw intervalNotFinalized

theorem disorderedClient_answers : AnswersTruly disorderedClient disorderedTime 3 := by
  intro n hn s
  have hle : n ≤ 3 := by omega
  interval_cases n
  · exact ⟨_, rfl, by decide⟩
  · exact ⟨_, rfl, by decide⟩
  · exact ⟨_, rfl, by decide⟩
  · exact ⟨_, rfl, by decide⟩

theorem findFirstBlockAtOrAfter_boundary_disordered :
    ∃ r l', findFirstBlockAtOrAfter disorderedClient (.utc 30000000) 0 (some 3)
        ⟨(), fun _ => none⟩ = (.ok r, l') ∧
      BoundaryFound disorderedTime 30000000 0 3 r ∧ CacheAgrees disorderedTime l' :=
  findFirstBlockAtOrAfter_boundary disorderedClient disorderedTime (.utc 30000000) rfl
    (by decide) 0 3 (by decide) (by decide) ⟨(), fun _ => none⟩ disorderedClient_answers (fun _ _ h => by cases h)

end EthereumLogs.BlockRange
