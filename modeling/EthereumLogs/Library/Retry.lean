import Mathlib.Algebra.Order.Group.Nat
import Mathlib.Tactic.Common

namespace Retry

variable {again : ℕ → Bool} {i j n : ℕ}

def stopIndex (again : ℕ → Bool) : ℕ → ℕ
  | 0 => 0
  | n + 1 => if again 0 then stopIndex (fun i => again (i + 1)) n + 1 else 0

theorem stopIndex_le (again : ℕ → Bool) (n : ℕ) : stopIndex again n ≤ n := by
  induction n generalizing again with
  | zero => exact le_rfl
  | succ n ih =>
    rw [stopIndex]
    split_ifs
    · exact Nat.succ_le_succ (ih _)
    · exact Nat.zero_le _

theorem again_before (h : j < stopIndex again n) : again j = true := by
  induction n generalizing again j with
  | zero => exact absurd h (Nat.not_lt_zero j)
  | succ n ih =>
    rw [stopIndex] at h
    split_ifs at h with hagain
    · cases j with
      | zero => exact hagain
      | succ j =>
        have hrest : j < stopIndex (fun i => again (i + 1)) n := Nat.lt_of_succ_lt_succ h
        exact @ih (fun i => again (i + 1)) j hrest
    · exact absurd h (Nat.not_lt_zero j)

theorem stopped_or_exhausted (again : ℕ → Bool) (n : ℕ) :
    again (stopIndex again n) = false ∨ stopIndex again n = n := by
  induction n generalizing again with
  | zero => exact .inr rfl
  | succ n ih =>
    rw [stopIndex]
    split_ifs with hagain
    · rcases ih fun i => again (i + 1) with hstop | hend
      · exact .inl hstop
      · exact .inr (congrArg (· + 1) hend)
    · exact .inl (by simpa using hagain)

theorem stopIndex_first (hbefore : ∀ j < i, again j = true) (hstop : again i = false) :
    stopIndex again n = min i n := by
  have hle : stopIndex again n ≤ i := by
    by_contra hlt
    rw [again_before (not_le.mp hlt)] at hstop
    cases hstop
  rcases stopped_or_exhausted again n with hend | hend
  · have hge : i ≤ stopIndex again n := by
      by_contra hlt
      rw [hbefore _ (not_le.mp hlt)] at hend
      cases hend
    have := stopIndex_le again n
    omega
  · omega

theorem stopIndex_all (h : ∀ j < n, again j = true) : stopIndex again n = n := by
  rcases stopped_or_exhausted again n with hend | hend
  · by_contra hne
    have hlt := lt_of_le_of_ne (stopIndex_le again n) hne
    rw [h _ hlt] at hend
    cases hend
  · exact hend

theorem lt_stopIndex_iff : n < stopIndex again j ↔ n < j ∧ ∀ i ≤ n, again i = true := by
  refine ⟨fun h => ⟨h.trans_le (stopIndex_le again j), fun _ hi => again_before (hi.trans_lt h)⟩, ?_⟩
  rintro ⟨hlt, hall⟩
  by_contra hle
  rcases stopped_or_exhausted again j with hend | hend
  · rw [hall _ (not_lt.mp hle)] at hend
    cases hend
  · omega

end Retry
