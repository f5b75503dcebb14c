import Mathlib.Algebra.Order.BigOperators.Group.List
import Mathlib.Data.List.Basic
import Mathlib.Order.Interval.Set.OrdConnected

namespace Accumulator

variable {M : Type} [AddMonoid M] {fits : M → Prop} [DecidablePred fits] {total result : M}
  {amounts : List M}

section Fold

variable (fits)

def add (total amount : M) : Option M :=
  if fits (total + amount) then some (total + amount) else none

def sumFrom (total : M) (amounts : List M) : Option M := amounts.foldlM (add fits) total

end Fold

theorem sumFrom_cons (total amount : M) (amounts : List M) : sumFrom fits total (amount :: amounts) =
    if fits (total + amount) then sumFrom fits (total + amount) amounts else none := by
  rw [sumFrom, List.foldlM_cons, add]
  split_ifs with h
  · rfl
  · rfl

theorem sumFrom_exact (h : sumFrom fits total amounts = some result) :
    result = total + amounts.sum := by
  induction amounts generalizing total with
  | nil =>
    cases h
    rw [List.sum_nil, add_zero]
  | cons amount amounts ih =>
    rw [sumFrom_cons] at h
    split_ifs at h with hfits
    rw [ih h, List.sum_cons, add_assoc]

theorem sumFrom_of_prefixes (h : ∀ front, front <+: amounts → fits (total + front.sum)) :
    sumFrom fits total amounts = some (total + amounts.sum) := by
  induction amounts generalizing total with
  | nil => rw [List.sum_nil, add_zero]; rfl
  | cons amount amounts ih =>
    have hfits : fits (total + amount) := by
      have hone := h [amount] (List.prefix_append [amount] amounts)
      rwa [List.sum_singleton] at hone
    rw [sumFrom_cons, if_pos hfits, ih, List.sum_cons, add_assoc]
    intro front hfront
    have hlonger := h (amount :: front) ((List.prefix_cons_inj amount).mpr hfront)
    rwa [List.sum_cons, ← add_assoc] at hlonger

theorem sumFrom_fits (h0 : fits total) (h : sumFrom fits total amounts = some result) : fits result := by
  induction amounts generalizing total with
  | nil =>
    cases h
    exact h0
  | cons amount amounts ih =>
    rw [sumFrom_cons] at h
    split_ifs at h with hfits
    exact ih hfits h

end Accumulator

namespace Accumulator

variable {M : Type} [AddCommMonoid M] [PartialOrder M] [IsOrderedAddMonoid M] {fits : M → Prop}
  [DecidablePred fits] {total : M} {amounts : List M}

theorem sumFrom_nonneg (hconnected : {m | fits m}.OrdConnected) (h0 : fits total)
    (hamounts : ∀ amount ∈ amounts, 0 ≤ amount) : sumFrom fits total amounts =
      if fits (total + amounts.sum) then some (total + amounts.sum) else none := by
  split_ifs with hfits
  · apply sumFrom_of_prefixes
    intro front hfront
    refine hconnected.out h0 hfits ⟨?_, ?_⟩
    · exact le_add_of_nonneg_right
        (List.sum_nonneg fun amount ha => hamounts amount (hfront.subset ha))
    · obtain ⟨rest, rfl⟩ := hfront
      rw [List.sum_append, ← add_assoc]
      exact le_add_of_nonneg_right
        (List.sum_nonneg fun amount ha => hamounts amount (List.mem_append_right _ ha))
  · cases hsum : sumFrom fits total amounts with
    | none => rfl
    | some result => exact absurd (sumFrom_exact hsum ▸ sumFrom_fits h0 hsum) hfits

end Accumulator
