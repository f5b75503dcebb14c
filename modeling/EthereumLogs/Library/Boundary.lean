import Mathlib.Order.Monotone.Basic
import Mathlib.Tactic.Linarith

namespace Boundary

structure Splits (p : ℤ → Prop) (low high r : ℤ) : Prop where
  low_le : low ≤ r
  le_high : r ≤ high + 1
  left : r = low ∨ ¬ p (r - 1)
  right : r = high + 1 ∨ p r

structure Bisecting (p : ℤ → Prop) (low high left right : ℤ) : Prop where
  low_le : low ≤ left
  le_high : right ≤ high
  open_le : left ≤ right + 1
  below : left = low ∨ ¬ p (left - 1)
  above : right = high ∨ p (right + 1)

variable {p : ℤ → Prop} {low high left right r : ℤ}

theorem Bisecting.start (h : low ≤ high + 1) : Bisecting p low high low high :=
  ⟨le_rfl, le_rfl, h, .inl rfl, .inl rfl⟩

theorem mid_bounds (h : left ≤ right) : left ≤ (left + right) / 2 ∧ (left + right) / 2 ≤ right := by
  omega

theorem Bisecting.take_lower (h : Bisecting p low high left right) (hle : left ≤ right)
    (hm : p ((left + right) / 2)) :
    Bisecting p low high left ((left + right) / 2 - 1) := by
  obtain ⟨h1, h2⟩ := mid_bounds hle
  have hr := h.le_high
  refine ⟨h.low_le, by omega, by omega, h.below, .inr ?_⟩
  rwa [sub_add_cancel]

theorem Bisecting.take_upper (h : Bisecting p low high left right) (hle : left ≤ right)
    (hm : ¬ p ((left + right) / 2)) :
    Bisecting p low high ((left + right) / 2 + 1) right := by
  obtain ⟨h1, h2⟩ := mid_bounds hle
  have hl := h.low_le
  refine ⟨by omega, h.le_high, by omega, .inr ?_, h.above⟩
  rwa [add_sub_cancel_right]

theorem Bisecting.splits (h : Bisecting p low high left right) (hlt : ¬ left ≤ right) :
    Splits p low high (right + 1) := by
  obtain ⟨hl, hh, ho, hb, ha⟩ := h
  have he : left = right + 1 := by omega
  subst he
  exact ⟨hl, by omega, hb, ha.imp (fun e => by rw [e]) id⟩

theorem Splits.iff_le (h : Splits p low high r)
    (mono : ∀ a b, low ≤ a → a ≤ b → b ≤ high → p a → p b) {n : ℤ}
    (hln : low ≤ n) (hnh : n ≤ high) : p n ↔ r ≤ n := by
  constructor
  · intro hn
    by_contra hlt
    rcases h.left with he | hleft
    · omega
    · exact hleft (mono n (r - 1) hln (by omega) (by have := h.le_high; omega) hn)
  · intro hrn
    rcases h.right with he | hright
    · omega
    · exact mono r n h.low_le hrn hnh hright

end Boundary
