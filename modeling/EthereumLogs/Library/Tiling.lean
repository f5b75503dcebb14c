import Mathlib.Data.List.Nodup
import Mathlib.Data.List.Perm.Basic
import Mathlib.Tactic.Linarith

namespace Tiling

def span (a b : ℤ) : List ℤ := (List.range (b - a).toNat).map (fun k : ℕ => a + k)

theorem mem_span {a b n : ℤ} : n ∈ span a b ↔ a ≤ n ∧ n < b := by
  simp only [span, List.mem_map, List.mem_range]
  constructor
  · rintro ⟨k, hk, rfl⟩
    omega
  · rintro ⟨h1, h2⟩
    exact ⟨(n - a).toNat, by omega, by omega⟩

theorem span_nodup (a b : ℤ) : (span a b).Nodup := by
  apply List.nodup_range.map
  intro k k' hsame
  simpa using hsame

@[simp] theorem span_self (a : ℤ) : span a a = [] := by simp [span]

theorem span_append {a b c : ℤ} (hab : a ≤ b) (hbc : b ≤ c) : span a b ++ span b c = span a c := by
  have hlen : (c - a).toNat = (b - a).toNat + (c - b).toNat := by omega
  simp only [span, hlen, List.range_add, List.map_append, List.map_map]
  congr 1
  apply List.map_congr_left
  intro k _
  simp only [Function.comp_apply, Nat.cast_add]
  omega

inductive Tiles {ρ : Type} (first last : ρ → ℤ) : ℤ → ℤ → List ρ → Prop
  | nil (a : ℤ) : Tiles first last a a []
  | cons {b : ℤ} (r : ρ) (rs : List ρ) (hle : first r ≤ last r)
      (rest : Tiles first last (last r + 1) b rs) : Tiles first last (first r) b (r :: rs)

variable {ρ β : Type} {first last : ρ → ℤ} {a b c : ℤ} {rs ts : List ρ}

theorem Tiles.le (h : Tiles first last a b rs) : a ≤ b := by
  induction h with
  | nil => exact le_rfl
  | cons r rs hle _ ih => omega

theorem Tiles.length_le (h : Tiles first last a b rs) : (rs.length : ℤ) ≤ b - a := by
  induction h with
  | nil => simp
  | cons r rs hle _ ih =>
    rw [List.length_cons]
    push_cast
    omega

theorem Tiles.bounds (h : Tiles first last a b rs) {r : ρ} (hr : r ∈ rs) :
    a ≤ first r ∧ last r < b := by
  induction h with
  | nil => cases hr
  | cons r' rs hle rest ih =>
    have hlater := rest.le
    rcases List.mem_cons.mp hr with rfl | hr
    · omega
    · have hinside := ih hr
      omega

theorem Tiles.append (h : Tiles first last a b rs) (h' : Tiles first last b c ts) :
    Tiles first last a c (rs ++ ts) := by
  induction h with
  | nil => exact h'
  | cons r rs hle _ ih => exact .cons r _ hle (ih h')

theorem Tiles.single (r : ρ) (hle : first r ≤ last r) :
    Tiles first last (first r) (last r + 1) [r] := .cons r [] hle (.nil _)

theorem Tiles.flatMap_span (h : Tiles first last a b rs) (f : ℤ → List β) :
    rs.flatMap (fun r => (span (first r) (last r + 1)).flatMap f) = (span a b).flatMap f := by
  induction h with
  | nil => simp
  | cons r rs hle rest ih =>
    rw [List.flatMap_cons, ih, ← List.flatMap_append, span_append (by omega) rest.le]

theorem Tiles.flatMap_perm {g : ρ → List β} {f : ℤ → List β} (h : Tiles first last a b rs)
    (hg : ∀ r ∈ rs, (g r).Perm ((span (first r) (last r + 1)).flatMap f)) :
    (rs.flatMap g).Perm ((span a b).flatMap f) := by
  rw [← h.flatMap_span f]
  exact List.Perm.flatMap_left rs hg

theorem Tiles.flatMap_eq {g : ρ → List β} {f : ℤ → List β} (h : Tiles first last a b rs)
    (hg : ∀ r ∈ rs, g r = (span (first r) (last r + 1)).flatMap f) :
    rs.flatMap g = (span a b).flatMap f := by
  rw [← h.flatMap_span f]
  exact List.flatMap_congr hg

end Tiling
