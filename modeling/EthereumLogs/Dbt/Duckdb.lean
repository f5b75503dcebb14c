import EthereumLogs.Library.Accumulator
import EthereumLogs.Python.Datetime
import Mathlib.Algebra.Order.Ring.Rat
import Mathlib.Data.Rat.Floor
import Mathlib.Tactic.Linarith
import Mathlib.Tactic.Positivity

namespace EthereumLogs.Duckdb
open Python

def lpad (s : Text) (length : Nat) (fill : Char) : Text :=
  if length ≤ s.length then s.take length else List.replicate (length - s.length) fill ++ s

def left (s : Text) (count : Nat) : Text := s.take count

def right (s : Text) (count : Nat) : Text := s.drop (s.length - count)

def isDigit (c : Char) : Bool := '0' ≤ c && c ≤ '9'

def isLowerHexDigit (c : Char) : Bool := isDigit c || ('a' ≤ c && c ≤ 'f')

-- '^0x[0-9a-f]{digits}$'
def matchesHexWord (digits : Nat) (s : Text) : Bool :=
  startsWith0x s && (s.drop 2).length == digits && (s.drop 2).all isLowerHexDigit

-- '^(0|[1-9][0-9]*)$'
def matchesCanonicalDecimal : Text → Bool
  | [] => false
  | c :: cs => if c = '0' then cs.isEmpty else isDigit c && cs.all isDigit

def digitsValue (s : Text) : Nat := s.foldl (fun acc c => 10 * acc + (c.toNat - '0'.toNat)) 0

def decimal38Limit : Nat := 10 ^ 38

-- digits beyond the scale are rounded half up
def decimalOf (scale digits fractionLength : Nat) : Option Rat :=
  let unscaled := if fractionLength ≤ scale then digits * 10 ^ (scale - fractionLength)
    else (digits + 10 ^ (fractionLength - scale) / 2) / 10 ^ (fractionLength - scale)
  if unscaled < decimal38Limit then some (mkRat unscaled (10 ^ scale)) else none

-- try_cast(s as decimal(38, scale)) of an unsigned literal without exponent
def tryCastDecimal (scale : Nat) (s : Text) : Option Rat :=
  let whole := s.takeWhile isDigit
  match s.dropWhile isDigit with
  | [] => if whole = [] then none else decimalOf scale (digitsValue whole) 0
  | c :: fraction =>
    if c = '.' ∧ fraction.all isDigit ∧ ¬ (whole = [] ∧ fraction = []) then
      decimalOf scale (digitsValue (whole ++ fraction)) fraction.length
    else none

-- a decimal(38, scale) value is stored as a HUGEINT of 10^-scale units
def FitsHugeint (scale : Nat) (value : Rat) : Prop :=
  -2 ^ 127 ≤ value * 10 ^ scale ∧ value * 10 ^ scale < 2 ^ 127

instance (scale : Nat) (value : Rat) : Decidable (FitsHugeint scale value) :=
  inferInstanceAs (Decidable (_ ∧ _))

-- sum() over decimal(38, scale) adds up in HUGEINT and raises when an addition leaves it
def sumDecimal (scale : Nat) (amounts : List Rat) : Option Rat :=
  Accumulator.sumFrom (FitsHugeint scale) 0 amounts

-- decimal(38, left) and decimal(38, right) meet in the type with the larger integer part
def commonScale (left right : Nat) : Nat := 38 - max (38 - left) (38 - right)

-- a cast to a smaller scale rounds half away from zero
def castScale (source target : Nat) (value : Rat) : Rat :=
  if source ≤ target then value
  else (if value < 0 then -1 else 1) * ⌊|value| * 10 ^ target + 1 / 2⌋ / 10 ^ target

def dateTruncHour (t : Instant) : Instant := t / microsPerHour * microsPerHour

example : tryCastDecimal 6 "1.250000".toList = some (mkRat 5 4) ∧
    tryCastDecimal 0 "12".toList = some 12 ∧ tryCastDecimal 0 "1e3".toList = none := by
  decide +kernel

example : castScale 8 (commonScale 8 6) (mkRat 12345650 (10 ^ 8)) = mkRat 123457 (10 ^ 6) ∧
    castScale 2 (commonScale 2 6) (mkRat 125 100) = mkRat 5 4 := by
  decide +kernel

section Sums

variable {scale source target : Nat} {value total : Rat} {amounts : List Rat}

theorem fitsHugeint_zero (scale : Nat) : FitsHugeint scale 0 := by
  simp [FitsHugeint]

theorem fitsHugeint_iff (h : 0 ≤ value) : FitsHugeint scale value ↔ value * 10 ^ scale < 2 ^ 127 := by
  refine and_iff_right ?_
  have hnonneg : 0 ≤ value * 10 ^ scale := by positivity
  linarith

theorem fitsHugeint_connected (scale : Nat) : {value | FitsHugeint scale value}.OrdConnected := by
  refine ⟨fun low hlow high hhigh value hvalue => ⟨?_, ?_⟩⟩
  · exact hlow.1.trans (mul_le_mul_of_nonneg_right hvalue.1 (by positivity))
  · exact (mul_le_mul_of_nonneg_right hvalue.2 (by positivity)).trans_lt hhigh.2

theorem sumDecimal_exact (h : sumDecimal scale amounts = some total) : total = amounts.sum := by
  rw [Accumulator.sumFrom_exact h, zero_add]

theorem sumDecimal_fits (h : (sumDecimal scale amounts).isSome = true) :
    FitsHugeint scale amounts.sum := by
  obtain ⟨total, htotal⟩ := Option.isSome_iff_exists.mp h
  rw [← sumDecimal_exact htotal]
  exact Accumulator.sumFrom_fits (fitsHugeint_zero scale) htotal

theorem sumDecimal_nonneg (h : ∀ amount ∈ amounts, 0 ≤ amount) : sumDecimal scale amounts =
    if FitsHugeint scale amounts.sum then some amounts.sum else none := by
  have hsum := Accumulator.sumFrom_nonneg (fitsHugeint_connected scale) (fitsHugeint_zero scale) h
  rwa [zero_add] at hsum

theorem sumDecimal_isSome (h : ∀ amount ∈ amounts, 0 ≤ amount) :
    (sumDecimal scale amounts).isSome = true ↔ FitsHugeint scale amounts.sum := by
  rw [sumDecimal_nonneg h]
  split_ifs with hfits
  · exact iff_of_true rfl hfits
  · exact iff_of_false Bool.false_ne_true hfits

theorem sumDecimal_of_prefixes (h : ∀ front, front <+: amounts → FitsHugeint scale front.sum) :
    sumDecimal scale amounts = some amounts.sum := by
  rw [sumDecimal, Accumulator.sumFrom_of_prefixes, zero_add]
  intro front hfront
  rw [zero_add]
  exact h front hfront

theorem castScale_zero (source target : Nat) : castScale source target 0 = 0 := by
  have hhalf : ⌊(1 / 2 : Rat)⌋ = 0 := by norm_num
  rw [castScale, abs_zero, zero_mul, zero_add, hhalf, Int.cast_zero, mul_zero, zero_div, ite_self]

theorem castScale_nonneg (h : 0 ≤ value) : 0 ≤ castScale source target value := by
  rw [castScale]
  split_ifs with hle hneg
  · exact h
  · exact absurd h (not_le.mpr hneg)
  · have hunits : 0 ≤ ⌊|value| * 10 ^ target + 1 / 2⌋ := Int.floor_nonneg.mpr (by positivity)
    have hcast : (0 : Rat) ≤ ⌊|value| * 10 ^ target + 1 / 2⌋ := Int.cast_nonneg hunits
    positivity

theorem castScale_same (h : source ≤ target) (value : Rat) : castScale source target value = value :=
  if_pos h

theorem commonScale_le (left right : Nat) : commonScale left right ≤ left := by
  rw [commonScale]
  omega

theorem commonScale_of_le {left right : Nat} (h : left ≤ right) (hright : right ≤ 38) :
    commonScale left right = left := by
  rw [commonScale]
  omega

theorem castScale_fits (htarget : target ≤ source) (h0 : 0 ≤ value) (h : FitsHugeint source value) :
    FitsHugeint target (castScale source target value) := by
  rw [castScale]
  split_ifs with hle hneg
  · rwa [← le_antisymm hle htarget]
  · exact absurd h0 (not_le.mpr hneg)
  · rw [abs_of_nonneg h0, one_mul]
    have hunits : 0 ≤ ⌊value * 10 ^ target + 1 / 2⌋ := Int.floor_nonneg.mpr (by positivity)
    have hcast : (0 : Rat) ≤ ⌊value * 10 ^ target + 1 / 2⌋ := Int.cast_nonneg hunits
    rw [fitsHugeint_iff (by positivity), div_mul_cancel₀ _ (by positivity)]
    have hshift : value * 10 ^ target * 10 ≤ value * 10 ^ source := by
      rw [mul_assoc, ← pow_succ]
      exact mul_le_mul_of_nonneg_left (pow_le_pow_right₀ (by norm_num) (by omega)) h0
    have hfloor := Int.floor_le (value * 10 ^ target + 1 / 2)
    linarith [h.2]

end Sums

theorem dateTruncHour_eq_iff {t h : Instant} (hh : h % microsPerHour = 0) :
    dateTruncHour t = h ↔ h ≤ t ∧ t < h + microsPerHour := by
  simp only [dateTruncHour, microsPerHour, microsPerSecond, Instant] at *
  omega

theorem dateTruncHour_mod (t : Instant) : dateTruncHour t % microsPerHour = 0 := by
  simp only [dateTruncHour, microsPerHour, microsPerSecond, Instant]
  omega

end EthereumLogs.Duckdb
