import EthereumLogs.Library.Effect
import Mathlib.Algebra.Order.Monoid.Defs
import Mathlib.Algebra.Order.Monoid.Unbundled.Pow

namespace Metering
open Effect

variable {σ ε α β κ C : Type} [AddCommMonoid C] [PartialOrder C] {Inv : σ → Prop}
  {measure : σ → C} {cost : C} {n m : ℕ} {s t u : σ}

structure Metered (Inv : σ → Prop) (measure : σ → C) (cost : C) (n : ℕ) (s t : σ) : Prop where
  keeps : Inv t
  paid : measure t ≤ measure s + n • cost

theorem metered_refl (h : Inv s) : Metered Inv measure cost 0 s s := ⟨h, by simp⟩

def Bills (Inv : σ → Prop) (measure : σ → C) (cost : C) (n : ℕ) (m : Eff σ ε α) : Prop :=
  ∀ s, Inv s → Metered Inv measure cost n s (m s).2

theorem bills_ofExcept (x : Except ε α) : Bills Inv measure cost 0 (Eff.ofExcept x) :=
  fun _ h => metered_refl h

variable [IsOrderedAddMonoid C]

theorem Metered.trans (h : Metered Inv measure cost n s t) (h' : Metered Inv measure cost m t u) :
    Metered Inv measure cost (n + m) s u := by
  refine ⟨h'.keeps, h'.paid.trans ?_⟩
  rw [add_nsmul, ← add_assoc]
  exact add_le_add_left h.paid _

theorem Metered.widen (hcost : 0 ≤ cost) (h : Metered Inv measure cost n s t) (hle : n ≤ m) :
    Metered Inv measure cost m s t :=
  ⟨h.keeps, h.paid.trans (add_le_add_right (nsmul_le_nsmul_left hcost hle) _)⟩

theorem Bills.widen {e : Eff σ ε α} (hcost : 0 ≤ cost) (h : Bills Inv measure cost n e) (hle : n ≤ m) :
    Bills Inv measure cost m e := fun s hs => (h s hs).widen hcost hle

theorem Bills.bind {e : Eff σ ε α} {f : α → Eff σ ε β} (hcost : 0 ≤ cost)
    (he : Bills Inv measure cost n e) (hf : ∀ a, Bills Inv measure cost m (f a)) :
    Bills Inv measure cost (n + m) (e >>= f) := by
  intro s hs
  have hfirst := he s hs
  rcases hrun : e s with ⟨err | a, t⟩
  · rw [hrun] at hfirst
    rw [Eff.bind_of_error hrun]
    exact hfirst.widen hcost (Nat.le_add_right n m)
  · rw [hrun] at hfirst
    rw [Eff.bind_of_ok hrun]
    exact hfirst.trans (hf a t hfirst.keeps)

theorem Bills.recorded {e : Eff σ ε α} (h : Bills Inv measure cost 1 e) (q : κ) (s₀ : σ) :
    Simulates (fun s (t : σ × Trace κ ε α) => s = t.1 ∧ Metered Inv measure cost t.2.length s₀ s)
      e (record q e) := by
  rintro s ⟨_, trace⟩ ⟨rfl, hmetered⟩
  refine ⟨rfl, rfl, ?_⟩
  have hnext := hmetered.trans (h s hmetered.keeps)
  simpa [record] using hnext

end Metering
