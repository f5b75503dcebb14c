import Mathlib.Algebra.Order.Floor.Semiring
import Mathlib.Data.List.Chain
import Mathlib.Tactic.Linarith
import Mathlib.Tactic.Ring

namespace Spacing

variable {α : Type} [Field α] [LinearOrder α] {d a : α} {xs : List α} {i j : ℕ}

def Spaced (d : α) (xs : List α) : Prop := xs.IsChain fun x y => x + d ≤ y

theorem spaced_nil (d : α) : Spaced d [] := List.isChain_nil

theorem Spaced.append (h : Spaced d xs) (ha : ∀ x ∈ xs.getLast?, x + d ≤ a) : Spaced d (xs ++ [a]) := by
  rw [Spaced, List.isChain_append]
  refine ⟨h, List.isChain_singleton a, ?_⟩
  intro x hx y hy
  rw [List.head?_cons, Option.mem_some_iff] at hy
  rw [← hy]
  exact ha x hx

variable [IsStrictOrderedRing α]

theorem Spaced.getElem_le (h : Spaced d xs) (hij : i ≤ j) (hj : j < xs.length) :
    xs[i] + ((j : α) - i) * d ≤ xs[j] := by
  induction j, hij using Nat.le_induction with
  | base => simp
  | succ j hij ih =>
    have hprev := ih (Nat.lt_of_succ_lt hj)
    have hstep : xs[j] + d ≤ xs[j + 1] := List.isChain_iff_getElem.mp h j hj
    push_cast
    linarith

theorem Spaced.pairwise (hd : 0 ≤ d) (h : Spaced d xs) : xs.Pairwise fun x y => x + d ≤ y := by
  have htrans : IsTrans α fun x y => x + d ≤ y := ⟨fun x y z hxy hyz => by linarith⟩
  exact List.isChain_iff_pairwise.mp h

theorem Spaced.filter (hd : 0 ≤ d) (h : Spaced d xs) (p : α → Bool) : Spaced d (xs.filter p) :=
  ((h.pairwise hd).filter p).isChain

def within (a width : α) (xs : List α) : List α := xs.filter fun x => a ≤ x ∧ x ≤ a + width

theorem Spaced.within_length [FloorSemiring α] (hd : 0 < d) (h : Spaced d xs) (a width : α) :
    (within a width xs).length ≤ ⌊width / d⌋₊ + 1 := by
  have hspaced : Spaced d (within a width xs) := h.filter hd.le _
  rcases Nat.eq_zero_or_pos (within a width xs).length with hzero | hpos
  · omega
  · have hbounds (k : ℕ) (hk : k < (within a width xs).length) :
        a ≤ (within a width xs)[k] ∧ (within a width xs)[k] ≤ a + width := by
      have hmem := List.getElem_mem hk
      simpa using (List.mem_filter.mp hmem).2
    have hlast : (within a width xs).length - 1 < (within a width xs).length := by omega
    have hspan := hspaced.getElem_le (Nat.zero_le _) hlast
    have hfirst := (hbounds 0 hpos).1
    have hend := (hbounds _ hlast).2
    have hgap : (((within a width xs).length - 1 : ℕ) : α) * d ≤ width := by
      rw [Nat.cast_zero, sub_zero] at hspan
      linarith
    have hfloor := Nat.le_floor ((le_div_iff₀ hd).mpr hgap)
    omega

end Spacing
