import EthereumLogs.LogNormalizer.Uint256
import EthereumLogs.Python.Decimal

namespace EthereumLogs.LogNormalizer
open Python Effect

inductive AmountError where
  | exception (e : Exc)
  | signal (s : DecimalSignal)
deriving DecidableEq, Repr

def decodeUint256Int (dataRaw : Text) : Except Exc Int := do
  let normalized ← requiredHex (some dataRaw)
  if isUint256Word normalized then int16 normalized
  else .error (.valueError "uint256 data must be exactly 32 bytes.")

def decodeUint256Decimal (dataRaw : Text) : Except Exc Decimal :=
  (decodeUint256Int dataRaw).map Decimal.ofInt

def amountWithDecimals (rawAmount : Decimal) (decimals : Int) : Except AmountError Decimal :=
  if decimals < 0 then .error (.exception (.valueError "decimals must be non-negative."))
  else (do rawAmount.truediv (← Decimal.tenPow decimals.toNat)).mapError .signal

def decodedAmount (dataRaw : Text) (decimals : Int) : Except AmountError Decimal := do
  amountWithDecimals (← (decodeUint256Decimal dataRaw).mapError .exception) decimals

variable {w : HexWord} {d v : ℕ} {amount : Decimal}

theorem decodeUint256Decimal_hexWord (w : HexWord) :
    decodeUint256Decimal w.text = .ok ⟨false, w.value, 0⟩ := by
  have hint : int16 w.lowered.text = .ok (w.value : Int) := by
    rw [← w.lowered_value]
    exact int16_prefixed w.lowered.hex w.lowered.ne_nil
  rw [decodeUint256Decimal, decodeUint256Int, requiredHex_hexWord]
  change (if isUint256Word w.lowered.text = true then _ else _ : Except Exc Int).map _ = _
  rw [if_pos (isUint256Word_hexWord w.lowered), hint, ← Decimal.ofInt_natCast]
  rfl

theorem amountWithDecimals_natCast (raw : Decimal) (d : ℕ) :
    amountWithDecimals raw d = (do raw.truediv (← Decimal.tenPow d)).mapError .signal := by
  rw [amountWithDecimals, if_neg (by omega)]
  rfl

theorem decodedAmount_hexWord (w : HexWord) (d : ℕ) :
    decodedAmount w.text d =
      (do Decimal.truediv ⟨false, w.value, 0⟩ (← Decimal.tenPow d)).mapError .signal := by
  rw [decodedAmount, decodeUint256Decimal_hexWord]
  exact amountWithDecimals_natCast _ d

theorem decodedAmount_ok (h : decodedAmount w.text d = .ok amount) :
    d ≤ 999999 ∧ amount.coefficient < 10 ^ contextPrec := by
  rw [decodedAmount_hexWord] at h
  rcases Nat.lt_or_ge 999999 d with hd | hd
  · rw [Decimal.tenPow_overflow hd] at h
    cases h
  · refine ⟨hd, ?_⟩
    rw [Decimal.tenPow_ok hd] at h
    cases hdivision : Decimal.truediv ⟨false, w.value, 0⟩ ⟨false, 10 ^ min d 27, d - min d 27⟩ with
    | error s =>
      change (Decimal.truediv _ _).mapError _ = _ at h
      rw [hdivision] at h
      cases h
    | ok r =>
      change (Decimal.truediv _ _).mapError _ = _ at h
      rw [hdivision] at h
      cases h
      exact Decimal.truediv_coefficient_lt hdivision

theorem representable_of_toRat (hc : amount.coefficient < 10 ^ contextPrec)
    (h : amount.toRat = (v : Rat) / 10 ^ d) : Decimal.Representable v := by
  obtain ⟨negative, c, e⟩ := amount
  have hscaled : (if negative then -1 else 1) * ((c : Rat) * 10 ^ (e + d)) = v := by
    have hten : (10 : Rat) ^ d ≠ 0 := by positivity
    rw [zpow_add₀ (by norm_num), zpow_natCast, ← mul_assoc (c : Rat), ← mul_assoc]
    exact (eq_div_iff hten).mp h
  cases negative with
  | true =>
    have hnonneg : (0 : Rat) ≤ c * 10 ^ (e + d) :=
      mul_nonneg (Nat.cast_nonneg c) (zpow_nonneg (by norm_num) _)
    have hv : (v : Rat) ≤ 0 := by
      rw [← hscaled]
      simpa using hnonneg
    have hzero : v = 0 := by exact_mod_cast le_antisymm hv (Nat.cast_nonneg v)
    exact ⟨0, 0, by simpa using hzero, by decide⟩
  | false =>
    simp only [Bool.false_eq_true, if_false, one_mul] at hscaled
    rcases Int.le_total 0 (e + d) with hk | hk
    · obtain ⟨k, hk⟩ := Int.eq_ofNat_of_zero_le hk
      rw [hk, zpow_natCast] at hscaled
      exact ⟨c, k, by exact_mod_cast hscaled.symm, hc⟩
    · obtain ⟨k, hk⟩ := Int.eq_ofNat_of_zero_le (by omega : 0 ≤ -(e + d))
      have hinv : (10 : Rat) ^ (e + d) ≤ 1 := zpow_le_one_of_nonpos₀ (by norm_num) (by omega)
      have hle : (v : Rat) ≤ c := by
        rw [← hscaled]
        exact mul_le_of_le_one_right (by positivity) hinv
      exact ⟨v, 0, by simp, lt_of_le_of_lt (by exact_mod_cast hle) hc⟩

theorem truediv_zero {m : ℕ} {e : Int} :
    ∃ r, Decimal.truediv ⟨false, 0, 0⟩ ⟨false, 10 ^ m, e⟩ = .ok r ∧ r.toRat = 0 := by
  refine ⟨⟨false, 0, min (max (0 - e) contextEtiny) contextEmax⟩, ?_, by simp [Decimal.toRat]⟩
  simp only [Decimal.truediv]
  rw [if_neg (by positivity : (0 : ℕ) < 10 ^ m).ne', if_pos trivial]
  rfl

theorem decodedAmount_representable (hd : d ≤ 999999) (h : Decimal.Representable w.value) :
    ∃ amount, decodedAmount w.text d = .ok amount ∧ amount.toRat = (w.value : Rat) / 10 ^ d := by
  have hok (r : Decimal) (hr : Decimal.truediv ⟨false, w.value, 0⟩
      ⟨false, 10 ^ min d 27, d - min d 27⟩ = .ok r) : decodedAmount w.text d = .ok r := by
    rw [decodedAmount_hexWord, Decimal.tenPow_ok hd]
    change (Decimal.truediv _ _).mapError _ = _
    rw [hr]
    rfl
  rcases Nat.eq_zero_or_pos w.value with hzero | hpos
  · obtain ⟨r, hr, hvalue⟩ := truediv_zero (m := min d 27) (e := d - min d 27)
    refine ⟨r, hok r (hzero ▸ hr), ?_⟩
    rw [hvalue, hzero]
    simp
  · have hdigits : numDigits w.value ≤ 78 := by
      rw [numDigits_le_iff (by decide)]
      exact w.value_lt.trans (by decide)
    have hone := numDigits_pos (c := w.value)
    obtain ⟨r, hr, hvalue⟩ := Decimal.truediv_tenPow_exact (m := min d 27) (e := d - min d 27)
      hpos h (by simp only [contextEmin]; omega) (by simp only [contextEmax]; omega)
    refine ⟨r, hok r hr, ?_⟩
    rw [hvalue, add_sub_cancel, zpow_natCast]

theorem decodedAmount_exact_iff (w : HexWord) (d : ℕ) :
    (∃ amount, decodedAmount w.text d = .ok amount ∧ amount.toRat = (w.value : Rat) / 10 ^ d) ↔
      d ≤ 999999 ∧ Decimal.Representable w.value := by
  constructor
  · rintro ⟨amount, hamount, hexact⟩
    obtain ⟨hd, hc⟩ := decodedAmount_ok hamount
    exact ⟨hd, representable_of_toRat hc hexact⟩
  · rintro ⟨hd, hrep⟩
    exact decodedAmount_representable hd hrep

end EthereumLogs.LogNormalizer
