import EthereumLogs.Library.Numeral
import EthereumLogs.Python.Text
import Mathlib.Algebra.Field.Rat
import Mathlib.Algebra.Order.Ring.Rat
import Mathlib.Tactic.FieldSimp
import Mathlib.Tactic.Positivity
import Mathlib.Tactic.Ring

namespace EthereumLogs.Python

-- decimal.Decimal without its special values
structure Decimal where
  negative : Bool
  coefficient : ℕ
  exponent : Int
deriving DecidableEq, Repr

-- the signals that the default context traps
inductive DecimalSignal where
  | overflow | divisionByZero | divisionUndefined
deriving DecidableEq, Repr

def contextPrec : ℕ := 28
def contextEmax : Int := 999999
def contextEmin : Int := -999999
def contextEtiny : Int := contextEmin - contextPrec + 1
def contextEtop : Int := contextEmax - contextPrec + 1

def numDigits (n : ℕ) : ℕ := (Nat.toDigits 10 n).length

-- ROUND_HALF_EVEN: the digits of c above its last k
def roundHalfEven (c k : ℕ) : ℕ :=
  if 10 ^ k < 2 * (c % 10 ^ k) ∨ (2 * (c % 10 ^ k) = 10 ^ k ∧ c / 10 ^ k % 2 = 1) then
    c / 10 ^ k + 1
  else c / 10 ^ k

section Digits

variable {c k n : ℕ}

theorem numDigits_le_iff (hk : 0 < k) : numDigits c ≤ k ↔ c < 10 ^ k :=
  Nat.length_toDigits_le_iff (by decide) hk

theorem lt_numDigits_iff (hk : 0 < k) : k < numDigits c ↔ 10 ^ k ≤ c := by
  rw [← not_le, numDigits_le_iff hk, not_lt]

theorem numDigits_pos : 0 < numDigits c := by
  rw [numDigits, List.length_pos_iff]
  exact Nat.toDigits_ne_nil

theorem numDigits_eq (hlower : 10 ^ n ≤ c) (hupper : c < 10 ^ (n + 1)) : numDigits c = n + 1 := by
  have hle : numDigits c ≤ n + 1 := (numDigits_le_iff (Nat.succ_pos n)).mpr hupper
  rcases Nat.eq_zero_or_pos n with rfl | hn
  · have := numDigits_pos (c := c)
    omega
  · have := (lt_numDigits_iff hn).mpr hlower
    omega

theorem numDigits_bounds (hc : 0 < c) : 10 ^ (numDigits c - 1) ≤ c ∧ c < 10 ^ numDigits c := by
  refine ⟨?_, (numDigits_le_iff numDigits_pos).mp le_rfl⟩
  rcases Nat.eq_zero_or_pos (numDigits c - 1) with hzero | hpos
  · rw [hzero]
    exact hc
  · exact (lt_numDigits_iff hpos).mp (by omega)

theorem numDigits_scaled (hc : 0 < c) : numDigits (c * 10 ^ k) = numDigits c + k := by
  obtain ⟨hlower, hupper⟩ := numDigits_bounds hc
  have hpos := numDigits_pos (c := c)
  have hpow : 0 < 10 ^ k := by positivity
  have heq : numDigits (c * 10 ^ k) = numDigits c - 1 + k + 1 := by
    apply numDigits_eq
    · rw [pow_add]
      exact Nat.mul_le_mul_right _ hlower
    · calc c * 10 ^ k < 10 ^ numDigits c * 10 ^ k := Nat.mul_lt_mul_of_pos_right hupper hpow
        _ = 10 ^ (numDigits c - 1 + k + 1) := by
          rw [← pow_add]
          congr 1
          omega
  omega

theorem numDigits_tenPow : numDigits (10 ^ n) = n + 1 := by
  rw [← one_mul (10 ^ n), numDigits_scaled Nat.one_pos, Nat.add_comm]
  rfl

theorem roundHalfEven_exact : roundHalfEven (c * 10 ^ k) k = c := by
  have hpow : 0 < 10 ^ k := by positivity
  rw [roundHalfEven, Nat.mul_mod_left, Nat.mul_div_left c hpow, if_neg]
  omega

theorem roundHalfEven_le : roundHalfEven c k ≤ c / 10 ^ k + 1 := by
  rw [roundHalfEven]
  split_ifs
  · exact le_rfl
  · exact Nat.le_succ _

theorem roundHalfEven_le_pow (h : numDigits c ≤ n + k) (hn : 0 < n) :
    roundHalfEven c k ≤ 10 ^ n := by
  have hc : c < 10 ^ (n + k) := (numDigits_le_iff (by omega)).mp h
  rw [pow_add] at hc
  have hdiv : c / 10 ^ k < 10 ^ n := Nat.div_lt_of_lt_mul (by rwa [Nat.mul_comm])
  exact roundHalfEven_le.trans hdiv

end Digits

namespace Decimal

def ofInt (n : Int) : Decimal := ⟨decide (n < 0), n.natAbs, 0⟩

def expMin (x : Decimal) : Int := numDigits x.coefficient + x.exponent - contextPrec

def roundTo (x : Decimal) (expMin : Int) : Except DecimalSignal Decimal :=
  let coefficient := roundHalfEven x.coefficient (expMin - x.exponent).toNat
  let carried := contextPrec < numDigits coefficient
  let exponent := if carried then expMin + 1 else expMin
  if contextEtop < exponent then .error .overflow
  else .ok ⟨x.negative, if carried then coefficient / 10 else coefficient, exponent⟩

def fix (x : Decimal) : Except DecimalSignal Decimal :=
  if x.coefficient = 0 then
    .ok { x with exponent := min (max x.exponent contextEtiny) contextEmax }
  else if contextEtop < x.expMin then .error .overflow
  else if x.exponent < max x.expMin contextEtiny then x.roundTo (max x.expMin contextEtiny)
  else .ok x

-- while exp < ideal_exp and coeff % 10 == 0, counted by ideal_exp - exp
def stripZeros : ℕ → Decimal → Decimal
  | 0, x => x
  | n + 1, x =>
    if x.coefficient % 10 = 0 then
      stripZeros n { x with coefficient := x.coefficient / 10, exponent := x.exponent + 1 }
    else x

def truediv (x y : Decimal) : Except DecimalSignal Decimal :=
  let negative := x.negative ^^ y.negative
  if y.coefficient = 0 then
    .error (if x.coefficient = 0 then .divisionUndefined else .divisionByZero)
  else if x.coefficient = 0 then fix ⟨negative, 0, x.exponent - y.exponent⟩
  else
    let shift : Int := numDigits y.coefficient - numDigits x.coefficient + contextPrec + 1
    let exponent := x.exponent - y.exponent - shift
    let numerator := x.coefficient * 10 ^ shift.toNat
    let denominator := y.coefficient * 10 ^ (-shift).toNat
    let coefficient := numerator / denominator
    if numerator % denominator ≠ 0 then
      fix ⟨negative, if coefficient % 5 = 0 then coefficient + 1 else coefficient, exponent⟩
    else fix (stripZeros shift.toNat ⟨negative, coefficient, exponent⟩)

-- Decimal(10) ** n
def tenPow (n : ℕ) : Except DecimalSignal Decimal := fix ⟨false, 10 ^ n, 0⟩

def toRat (x : Decimal) : Rat :=
  (if x.negative then -1 else 1) * (x.coefficient * 10 ^ x.exponent)

variable {x y r : Decimal} {n : ℕ} {e : Int}

theorem ofInt_natCast : ofInt (n : Int) = ⟨false, n, 0⟩ := by
  rw [ofInt, decide_eq_false (by omega), Int.natAbs_natCast]

def Representable (c : ℕ) : Prop := ∃ m k, c = m * 10 ^ k ∧ m < 10 ^ contextPrec

theorem Representable.of_mul {c i : ℕ} (h : Representable (c * 10 ^ i)) : Representable c := by
  obtain ⟨m, k, heq, hm⟩ := h
  rcases Nat.le_total i k with hik | hki
  · refine ⟨m, k - i, ?_, hm⟩
    rw [← Nat.sub_add_cancel hik, pow_add, ← mul_assoc] at heq
    exact Nat.eq_of_mul_eq_mul_right (by positivity) heq
  · refine ⟨c, 0, by simp, lt_of_le_of_lt ?_ hm⟩
    rw [← Nat.sub_add_cancel hki, pow_add, ← mul_assoc] at heq
    rw [← Nat.eq_of_mul_eq_mul_right (by positivity) heq]
    exact Nat.le_mul_of_pos_right _ (by positivity)

theorem toRat_scaled {b : Bool} {c k : ℕ} :
    toRat ⟨b, c * 10 ^ k, e⟩ = toRat ⟨b, c, e + k⟩ := by
  simp only [toRat]
  rw [zpow_add₀ (by norm_num), zpow_natCast]
  push_cast
  ring

theorem roundTo_coefficient_lt (h : x.expMin ≤ e) (hle : x.exponent ≤ e)
    (hr : x.roundTo e = .ok r) : r.coefficient < 10 ^ contextPrec := by
  have hdigits : numDigits x.coefficient ≤ contextPrec + (e - x.exponent).toNat := by
    unfold expMin at h
    omega
  have hpow := roundHalfEven_le_pow hdigits (by decide)
  unfold roundTo at hr
  by_cases hcarried : contextPrec < numDigits (roundHalfEven x.coefficient (e - x.exponent).toNat)
  · simp only [if_pos hcarried] at hr
    split_ifs at hr with hoverflow
    cases hr
    refine lt_of_le_of_lt (Nat.div_le_div_right hpow) ?_
    decide
  · simp only [if_neg hcarried] at hr
    split_ifs at hr with hoverflow
    cases hr
    exact (numDigits_le_iff (by decide)).mp (not_lt.mp hcarried)

theorem fix_coefficient_lt (h : x.fix = .ok r) : r.coefficient < 10 ^ contextPrec := by
  unfold fix at h
  by_cases hzero : x.coefficient = 0
  · rw [if_pos hzero] at h
    cases h
    simp only [hzero]
    decide
  · rw [if_neg hzero] at h
    by_cases hoverflow : contextEtop < x.expMin
    · rw [if_pos hoverflow] at h
      cases h
    · rw [if_neg hoverflow] at h
      by_cases hround : x.exponent < max x.expMin contextEtiny
      · rw [if_pos hround] at h
        exact roundTo_coefficient_lt (le_max_left _ _) hround.le h
      · rw [if_neg hround] at h
        cases h
        have hfits : x.expMin ≤ x.exponent := (le_max_left _ _).trans (not_lt.mp hround)
        unfold expMin at hfits
        exact (numDigits_le_iff (by decide)).mp (by omega)

def adjusted (x : Decimal) : Int := numDigits x.coefficient + x.exponent - 1

structure Normal (x : Decimal) : Prop where
  nonzero : 0 < x.coefficient
  lower : contextEmin ≤ x.adjusted
  upper : x.adjusted ≤ contextEmax

theorem Normal.expMin_le (h : x.Normal) : x.expMin ≤ contextEtop ∧ contextEtiny ≤ x.expMin := by
  have hlower := h.lower
  have hupper := h.upper
  unfold adjusted contextEmin contextEmax at *
  rw [expMin, contextEtop, contextEtiny, contextEmin, contextEmax, contextPrec]
  omega

theorem roundTo_exact {b : Bool} {c k : ℕ} (hc : numDigits c ≤ contextPrec)
    (hetop : e + k ≤ contextEtop) :
    roundTo ⟨b, c * 10 ^ k, e⟩ (e + k) = .ok ⟨b, c, e + k⟩ := by
  have hdropped : (e + k - e).toNat = k := by omega
  simp only [roundTo]
  rw [hdropped, roundHalfEven_exact, if_neg (not_lt.mpr hc), if_neg (not_lt.mpr hc),
    if_neg (not_lt.mpr hetop)]

theorem fix_exact (h : x.Normal) (hrep : Representable x.coefficient) :
    ∃ r, x.fix = .ok r ∧ r.toRat = x.toRat := by
  obtain ⟨hetop, hetiny⟩ := h.expMin_le
  rw [fix, if_neg h.nonzero.ne', if_neg (not_lt.mpr hetop), max_eq_left hetiny]
  by_cases hfits : x.exponent < x.expMin
  · rw [if_pos hfits]
    obtain ⟨b, c, e⟩ := x
    obtain ⟨m, k, rfl, hm⟩ := hrep
    have hmpos : 0 < m := Nat.pos_of_mul_pos_right h.nonzero
    have hmdigits : numDigits m ≤ contextPrec := (numDigits_le_iff (by decide)).mpr hm
    have hdigits : numDigits (m * 10 ^ k) = numDigits m + k := numDigits_scaled hmpos
    obtain ⟨j, hj⟩ : ∃ j, numDigits m + k = contextPrec + j := by
      refine ⟨numDigits m + k - contextPrec, ?_⟩
      simp only [expMin, hdigits] at hfits
      omega
    have hjk : j ≤ k := by omega
    have hexp : expMin ⟨b, m * 10 ^ k, e⟩ = e + j := by
      simp only [expMin, hdigits]
      omega
    have hsplit : m * 10 ^ k = m * 10 ^ (k - j) * 10 ^ j := by
      rw [mul_assoc, ← pow_add, Nat.sub_add_cancel hjk]
    have hkept : numDigits (m * 10 ^ (k - j)) ≤ contextPrec := by
      rw [numDigits_scaled hmpos]
      omega
    rw [hexp] at hetop ⊢
    rw [hsplit]
    exact ⟨_, roundTo_exact hkept hetop, toRat_scaled.symm⟩
  · rw [if_neg hfits]
    exact ⟨x, rfl, rfl⟩

theorem stripZeros_scaled (n : ℕ) (x : Decimal) :
    ∃ c i : ℕ, x.coefficient = c * 10 ^ i ∧ stripZeros n x = ⟨x.negative, c, x.exponent + i⟩ := by
  induction n generalizing x with
  | zero => exact ⟨x.coefficient, 0, by simp, by simp [stripZeros]⟩
  | succ n ih =>
    rw [stripZeros]
    split_ifs with hzero
    · obtain ⟨c, i, hc, hstrip⟩ := ih ⟨x.negative, x.coefficient / 10, x.exponent + 1⟩
      refine ⟨c, i + 1, ?_, ?_⟩
      · have hten : x.coefficient = x.coefficient / 10 * 10 := by omega
        rw [hten, pow_succ, ← mul_assoc]
        exact congrArg (· * 10) hc
      · rw [hstrip]
        simp only [Decimal.mk.injEq, true_and]
        push_cast
        omega
    · exact ⟨x.coefficient, 0, by simp, by simp⟩

theorem adjusted_scaled {b : Bool} {c k : ℕ} (hc : 0 < c) :
    adjusted ⟨b, c * 10 ^ k, e⟩ = adjusted ⟨b, c, e + k⟩ := by
  simp only [adjusted, numDigits_scaled hc]
  push_cast
  ring

theorem fix_stripZeros_exact (h : x.Normal) (hrep : Representable x.coefficient) (n : ℕ) :
    ∃ r, (stripZeros n x).fix = .ok r ∧ r.toRat = x.toRat := by
  obtain ⟨c, i, hc, hstrip⟩ := stripZeros_scaled n x
  obtain ⟨b, coefficient, e⟩ := x
  simp only at hc
  subst hc
  have hpos : 0 < c := Nat.pos_of_mul_pos_right h.nonzero
  have hnormal : Normal ⟨b, c, e + i⟩ :=
    ⟨hpos, adjusted_scaled hpos ▸ h.lower, adjusted_scaled hpos ▸ h.upper⟩
  rw [hstrip, toRat_scaled]
  exact fix_exact hnormal hrep.of_mul

theorem truediv_coefficient_lt (h : truediv x y = .ok r) :
    r.coefficient < 10 ^ contextPrec := by
  unfold truediv at h
  simp only at h
  split_ifs at h
  · exact fix_coefficient_lt h
  · exact fix_coefficient_lt h
  · exact fix_coefficient_lt h
  · exact fix_coefficient_lt h

theorem tenPow_ok {d : ℕ} (h : d ≤ 999999) :
    tenPow d = .ok ⟨false, 10 ^ min d 27, d - min d 27⟩ := by
  have hexp : expMin ⟨false, 10 ^ d, 0⟩ = (d : Int) - 27 := by
    simp only [expMin, numDigits_tenPow, contextPrec]
    push_cast
    ring
  have hetiny : contextEtiny ≤ (d : Int) - 27 := by
    simp only [contextEtiny, contextEmin, contextPrec]
    omega
  have hetop : (d : Int) - 27 ≤ contextEtop := by
    simp only [contextEtop, contextEmax, contextPrec]
    omega
  rw [tenPow, fix, if_neg (by positivity : (0 : ℕ) < 10 ^ d).ne', hexp, if_neg (not_lt.mpr hetop),
    max_eq_left hetiny]
  rcases Nat.le_total d 27 with hd | hd
  · rw [if_neg (by simp only; omega), Nat.min_eq_left hd, sub_self]
  · rcases Nat.eq_or_lt_of_le hd with rfl | hlt
    · rfl
    · obtain ⟨j, rfl⟩ := Nat.exists_eq_add_of_le hd
      have hj : ((27 + j : ℕ) : Int) - 27 = 0 + (j : ℕ) := by omega
      rw [if_pos (by simp only; omega), hj, pow_add,
        roundTo_exact (numDigits_tenPow.le) (hj ▸ hetop), Nat.min_eq_right hd]
      simp only [Except.ok.injEq, Decimal.mk.injEq, true_and]
      omega

theorem tenPow_overflow {d : ℕ} (h : 999999 < d) : tenPow d = .error .overflow := by
  have hexp : contextEtop < expMin ⟨false, 10 ^ d, 0⟩ := by
    simp only [expMin, numDigits_tenPow, contextPrec, contextEtop, contextEmax]
    push_cast
    omega
  rw [tenPow, fix, if_neg (by positivity : (0 : ℕ) < 10 ^ d).ne', if_pos hexp]

theorem truediv_exact {shift : Int} {c : ℕ} (hx : x.coefficient ≠ 0) (hy : 0 < y.coefficient)
    (hshift : shift = numDigits y.coefficient - numDigits x.coefficient + contextPrec + 1)
    (hc : x.coefficient * 10 ^ shift.toNat = c * (y.coefficient * 10 ^ (-shift).toNat)) :
    truediv x y = fix (stripZeros shift.toNat
      ⟨x.negative ^^ y.negative, c, x.exponent - y.exponent - shift⟩) := by
  subst hshift
  have hpos : 0 < y.coefficient * 10 ^ (-((numDigits y.coefficient : Int) -
      numDigits x.coefficient + contextPrec + 1)).toNat := by positivity
  simp only [truediv]
  rw [if_neg hy.ne', if_neg hx, hc, Nat.mul_mod_left, if_neg (by simp), Nat.mul_div_left _ hpos]

theorem quotient_tenPow {a k m s : ℕ} {shift : Int} (hs : (s : Int) = 30 - numDigits a)
    (hshift : shift = m + 30 - numDigits a - k) :
    a * 10 ^ k * 10 ^ shift.toNat = a * 10 ^ s * (10 ^ m * 10 ^ (-shift).toNat) := by
  have hexp : k + shift.toNat = s + (m + (-shift).toNat) := by omega
  rw [mul_assoc, mul_assoc, ← pow_add, ← pow_add, ← pow_add, hexp]

theorem truediv_tenPow_exact {v m : ℕ} (hv : 0 < v) (hrep : Representable v)
    (hlower : contextEmin ≤ numDigits v - 1 - (m + e))
    (hupper : numDigits v - 1 - (m + e) ≤ contextEmax) :
    ∃ r, truediv ⟨false, v, 0⟩ ⟨false, 10 ^ m, e⟩ = .ok r ∧
      r.toRat = v / (10 : Rat) ^ (m + e : Int) := by
  obtain ⟨a, k, rfl, ha⟩ := hrep
  have hapos : 0 < a := Nat.pos_of_mul_pos_right hv
  have hadigits : numDigits a ≤ contextPrec := (numDigits_le_iff (by decide)).mpr ha
  have hvdigits : numDigits (a * 10 ^ k) = numDigits a + k := numDigits_scaled hapos
  obtain ⟨s, hs⟩ : ∃ s : ℕ, (s : Int) = 30 - numDigits a :=
    ⟨30 - numDigits a, by simp only [contextPrec] at hadigits; omega⟩
  obtain ⟨shift, hshift⟩ : ∃ shift : Int,
      shift = numDigits (10 ^ m) - numDigits (a * 10 ^ k) + contextPrec + 1 := ⟨_, rfl⟩
  have hshift' : shift = m + 30 - numDigits a - k := by
    rw [hshift, numDigits_tenPow, hvdigits, contextPrec]
    push_cast
    ring
  have hquotient := quotient_tenPow hs hshift'
  have hnormal : Normal ⟨false, a * 10 ^ s, 0 - e - shift⟩ := by
    refine ⟨by positivity, ?_, ?_⟩
    · rw [adjusted, numDigits_scaled hapos, hshift']
      rw [hvdigits] at hlower
      push_cast at hlower ⊢
      omega
    · rw [adjusted, numDigits_scaled hapos, hshift']
      rw [hvdigits] at hupper
      push_cast at hupper ⊢
      omega
  obtain ⟨r, hr, hvalue⟩ := fix_stripZeros_exact hnormal ⟨a, s, rfl, ha⟩ shift.toNat
  refine ⟨r, ?_, ?_⟩
  · have htenPow : 0 < (⟨false, 10 ^ m, e⟩ : Decimal).coefficient := by positivity
    have hdivision : truediv ⟨false, a * 10 ^ k, 0⟩ ⟨false, 10 ^ m, e⟩ =
        fix (stripZeros shift.toNat ⟨false, a * 10 ^ s, 0 - e - shift⟩) :=
      truediv_exact hv.ne' htenPow hshift hquotient
    rw [hdivision]
    exact hr
  · rw [hvalue, toRat_scaled]
    have hexp : 0 - e - shift + s = k - (m + e) := by omega
    rw [hexp]
    simp only [toRat, Bool.false_eq_true, if_false, one_mul]
    rw [zpow_sub₀ (by norm_num), zpow_natCast]
    push_cast
    ring

-- str(Decimal)
def str (x : Decimal) : Text :=
  let digits := decimalText x.coefficient
  let leftDigits : Int := x.exponent + digits.length
  let dotPlace : Int := if x.exponent ≤ 0 ∧ -6 < leftDigits then leftDigits else 1
  let number :=
    if dotPlace ≤ 0 then "0.".toList ++ List.replicate (-dotPlace).toNat '0' ++ digits
    else if digits.length ≤ dotPlace then
      digits ++ List.replicate (dotPlace - digits.length).toNat '0'
    else digits.take dotPlace.toNat ++ '.' :: digits.drop dotPlace.toNat
  let power := leftDigits - dotPlace
  let exponent := if power = 0 then []
    else 'E' :: (if power < 0 then '-' else '+') :: decimalText power.natAbs
  (if x.negative then ['-'] else []) ++ number ++ exponent

example : str ⟨false, 12345, -3⟩ = "12.345".toList ∧ str ⟨true, 5, -8⟩ = "-5E-8".toList ∧
    str ⟨false, 12, 3⟩ = "1.2E+4".toList ∧ str ⟨false, 7, -5⟩ = "0.00007".toList := by decide

theorem str_ofInt {n : Int} (h : 0 ≤ n) : str (ofInt n) = decimalText n.toNat := by
  have hne : decimalText n.toNat ≠ [] := Nat.toDigits_ne_nil
  have hpos := List.length_pos_iff.mpr hne
  have hcoefficient : n.natAbs = n.toNat := by omega
  have hplain : (0 : Int) ≤ 0 ∧ (-6 : Int) < (decimalText n.toNat).length := by omega
  simp [str, ofInt, hcoefficient, hplain, hne, not_lt.mpr h]

end Decimal

end EthereumLogs.Python
