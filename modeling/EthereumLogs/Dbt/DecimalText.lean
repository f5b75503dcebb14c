import EthereumLogs.Dbt.Duckdb
import EthereumLogs.Python.Digits

namespace EthereumLogs.Duckdb
open Python Numeral

variable {c : Char} {s t whole fraction : Text} {n k d : ℕ}

def AllDigits (s : Text) : Prop := ∀ c ∈ s, isDigit c = true

theorem isDigit_code : isDigit c = true ↔ 48 ≤ c.toNat ∧ c.toNat ≤ 57 := by
  simp only [isDigit, Bool.and_eq_true, decide_eq_true_eq, char_le_iff, Char.reduceToNat]

theorem digitsValue_eq (s : Text) : digitsValue s = value 10 (s.map fun c => c.toNat - 48) :=
  foldl_value

theorem digitsValue_append : digitsValue (s ++ t) = digitsValue s * 10 ^ t.length + digitsValue t := by
  rw [digitsValue_eq, List.map_append, value_append, List.length_map, ← digitsValue_eq,
    ← digitsValue_eq]

theorem digitsValue_zeros : digitsValue (List.replicate n '0') = 0 := by
  rw [digitsValue_eq, List.map_replicate]
  exact value_replicate_zero

theorem digitsValue_decimalText : digitsValue (decimalText n) = n := foldl_decimalText

theorem allDigits_decimalText : AllDigits (decimalText n) :=
  fun _ hc => isDigit_code.mpr (decimalText_code hc)

theorem canonical_decimalText : matchesCanonicalDecimal (decimalText n) = true := by
  rcases Nat.eq_zero_or_pos n with rfl | hn
  · rfl
  · have hhead := head_decimalText hn.ne'
    have hdigits := allDigits_decimalText (n := n)
    obtain ⟨c, cs, hcs⟩ := List.exists_cons_of_ne_nil (decimalText_ne_nil (n := n))
    rw [hcs] at hhead hdigits ⊢
    have hne : c ≠ '0' := by simpa using hhead
    rw [matchesCanonicalDecimal, if_neg hne, hdigits c (by simp)]
    exact List.all_eq_true.mpr fun x hx => hdigits x (by simp [hx])

theorem canonical_allDigits (h : matchesCanonicalDecimal t = true) : AllDigits t := by
  cases t with
  | nil => simp [AllDigits]
  | cons c cs =>
    rw [matchesCanonicalDecimal] at h
    split_ifs at h with hzero
    · have hnil : cs = [] := List.isEmpty_iff.mp h
      subst hzero hnil
      intro x hx
      rw [List.mem_singleton.mp hx]
      rfl
    · simp only [Bool.and_eq_true, List.all_eq_true] at h
      intro x hx
      rcases List.mem_cons.mp hx with rfl | hx
      · exact h.1
      · exact h.2 x hx

theorem takeWhile_digits (hs : AllDigits s) (hc : isDigit c = false) :
    (s ++ c :: t).takeWhile isDigit = s ∧ (s ++ c :: t).dropWhile isDigit = c :: t := by
  rw [List.takeWhile_append_of_pos hs, List.dropWhile_append_of_pos hs,
    List.takeWhile_cons_of_neg (by simp [hc]), List.dropWhile_cons_of_neg (by simp [hc])]
  simp

theorem tryCastDecimal_point (hw : AllDigits whole) (hf : AllDigits fraction) (hne : whole ≠ []) :
    tryCastDecimal d (whole ++ '.' :: fraction) =
      decimalOf d (digitsValue (whole ++ fraction)) fraction.length := by
  obtain ⟨htake, hdrop⟩ := takeWhile_digits (c := '.') (t := fraction) hw (by decide)
  rw [tryCastDecimal]
  rw [htake, hdrop]
  dsimp only
  rw [if_pos]
  refine ⟨rfl, List.all_eq_true.mpr hf, fun h => hne h.1⟩

theorem tryCastDecimal_whole (hs : AllDigits s) (hne : s ≠ []) :
    tryCastDecimal d s = decimalOf d (digitsValue s) 0 := by
  have htake : s.takeWhile isDigit = s := by
    rw [List.takeWhile_eq_self_iff]
    exact hs
  have hdrop : s.dropWhile isDigit = [] := by
    rw [List.dropWhile_eq_nil_iff]
    exact hs
  rw [tryCastDecimal]
  rw [htake, hdrop]
  exact if_neg hne

theorem decimalOf_exact (h : n < decimal38Limit) : decimalOf d n d = some (mkRat n (10 ^ d)) := by
  rw [decimalOf]
  rw [if_pos le_rfl, Nat.sub_self, pow_zero, mul_one, if_pos h]

end EthereumLogs.Duckdb
