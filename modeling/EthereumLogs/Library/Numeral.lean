import Mathlib.Data.List.Basic
import Mathlib.Data.List.Induction
import Mathlib.Tactic.Common
import Mathlib.Tactic.Ring

namespace Numeral

variable {b d n acc : ℕ} {ds es : List ℕ}

def value (b : ℕ) (ds : List ℕ) : ℕ := ds.foldl (fun acc d => b * acc + d) 0

@[simp] theorem value_nil : value b [] = 0 := rfl

@[simp] theorem value_concat : value b (ds ++ [d]) = b * value b ds + d := by simp [value]

theorem value_append : value b (ds ++ es) = value b ds * b ^ es.length + value b es := by
  induction es using List.reverseRecOn with
  | nil => simp
  | append_singleton es e ih =>
    rw [← List.append_assoc, value_concat, ih, value_concat, List.length_append, List.length_singleton]
    ring

theorem value_replicate_zero : value b (List.replicate n 0) = 0 := by
  induction n with
  | zero => rfl
  | succ n ih => rw [List.replicate_succ', value_concat, ih, mul_zero]

theorem foldl_value {α : Type} {digit : α → ℕ} {cs : List α} :
    cs.foldl (fun acc c => b * acc + digit c) 0 = value b (cs.map digit) := by
  rw [value, List.foldl_map]

theorem value_lt (h : ∀ d ∈ ds, d < b) : value b ds < b ^ ds.length := by
  induction ds using List.reverseRecOn with
  | nil => simp
  | append_singleton ds d ih =>
    have hd : d < b := h d (by simp)
    have hds : value b ds + 1 ≤ b ^ ds.length := ih fun e he => h e (by simp [he])
    rw [value_concat, List.length_append, List.length_singleton, pow_succ]
    calc b * value b ds + d < b * value b ds + b := by omega
      _ = (value b ds + 1) * b := by ring
      _ ≤ b ^ ds.length * b := Nat.mul_le_mul_right b hds

theorem leftpad_concat {k : ℕ} {c a : Char} {cs : List Char} :
    (cs ++ [c]).leftpad (k + 1) a = cs.leftpad k a ++ [c] := by
  simp only [List.leftpad, List.length_append, List.length_singleton, List.append_assoc]
  rw [Nat.add_sub_add_right]

theorem leftpad_toDigits (hb : 1 < b) (hne : ds ≠ []) (h : ∀ d ∈ ds, d < b) :
    (Nat.toDigits b (value b ds)).leftpad ds.length '0' = ds.map Nat.digitChar := by
  induction ds using List.reverseRecOn with
  | nil => exact absurd rfl hne
  | append_singleton ds d ih =>
    have hd : d < b := h d (by simp)
    have hds : ∀ e ∈ ds, e < b := fun e he => h e (by simp [he])
    rw [value_concat, List.length_append, List.length_singleton, List.map_append]
    rcases eq_or_ne ds [] with rfl | hne'
    · simp [Nat.toDigits_of_lt_base hd, List.leftpad]
    · rw [List.map_singleton, ← ih hne' hds, ← leftpad_concat]
      rcases Nat.eq_zero_or_pos (value b ds) with h0 | hpos
      · rw [h0, mul_zero, zero_add, Nat.toDigits_of_lt_base hd, Nat.toDigits_zero]
        simp only [List.leftpad, List.length_append, List.length_cons, List.length_nil]
        obtain ⟨k, hk⟩ := Nat.exists_eq_add_of_le (List.length_pos_iff.mpr hne')
        rw [hk, show 0 + 1 + k + 1 - (0 + 1) = k + 1 by omega,
          show 0 + 1 + k + 1 - (0 + 1 + (0 + 1)) = k by omega, List.replicate_succ']
        simp
      · rw [← Nat.toDigits_append_toDigits hb hpos hd, Nat.toDigits_of_lt_base hd]

theorem head_toDigits (hb : 1 < b) (hn : n ≠ 0) : (Nat.toDigits b n).head? ≠ some '0' := by
  induction n using Nat.strong_induction_on with
  | _ n ih =>
    rw [Nat.toDigits_eq_if hb]
    split_ifs with hlt
    · simpa using hn
    · have hpos : 0 < n / b := Nat.div_pos (by omega) (by omega)
      rw [List.head?_append_of_ne_nil _ Nat.toDigits_ne_nil]
      exact ih (n / b) (Nat.div_lt_self (by omega) hb) hpos.ne'

end Numeral
