import EthereumLogs.Dbt.Build
import EthereumLogs.Dbt.DecimalText
import EthereumLogs.LogNormalizer.Uint256
import Mathlib.Algebra.Order.Ring.Rat
import Mathlib.Tactic.FieldSimp

namespace EthereumLogs.Dbt
open Python Duckdb LogNormalizer

variable {d v : ℕ} {t whole fraction : Text} {vars : DbtVars} {log : LogRow}
  {transfer : Erc20Transfer}

structure FixedPoint (d v : ℕ) (whole fraction : Text) : Prop where
  wholeDigits : AllDigits whole
  fractionDigits : AllDigits fraction
  nonempty : whole ≠ []
  noLeadingZero : whole = ['0'] ∨ whole.head? ≠ some '0'
  places : fraction.length = d
  digits : digitsValue (whole ++ fraction) = v

theorem canonical_head (h : matchesCanonicalDecimal t = true) : t = ['0'] ∨ t.head? ≠ some '0' := by
  cases t with
  | nil => cases h
  | cons c cs =>
    rw [matchesCanonicalDecimal] at h
    split_ifs at h with hzero
    · left
      rw [hzero, List.isEmpty_iff.mp h]
    · right
      simpa using hzero

theorem canonical_ne_nil (h : matchesCanonicalDecimal t = true) : t ≠ [] := by
  rintro rfl
  cases h

theorem allDigits_zeros (n : ℕ) : AllDigits (List.replicate n '0') := by
  intro c hc
  rw [List.eq_of_mem_replicate hc]
  rfl

theorem lpad_eq (h : t.length ≤ d) : lpad t d '0' = List.replicate (d - t.length) '0' ++ t := by
  rw [lpad]
  split_ifs with hle
  · have heq : d = t.length := Nat.le_antisymm hle h
    rw [heq, List.take_length, Nat.sub_self]
    rfl
  · rfl

theorem shiftDecimalPoint_padded (h : AllDigits t) (hlength : t.length ≤ d) :
    shiftDecimalPoint d t = ['0'] ++ '.' :: lpad t d '0' ∧
      FixedPoint d (digitsValue t) ['0'] (lpad t d '0') := by
  constructor
  · rw [shiftDecimalPoint, if_pos hlength]
    rfl
  · rw [lpad_eq hlength]
    refine ⟨by simp [AllDigits, Duckdb.isDigit], ?_, by simp, .inl rfl, ?_, ?_⟩
    · intro c hc
      rcases List.mem_append.mp hc with hc | hc
      · exact allDigits_zeros _ c hc
      · exact h c hc
    · rw [List.length_append, List.length_replicate]
      omega
    · rw [← List.append_assoc, digitsValue_append]
      change digitsValue (List.replicate (d - t.length + 1) '0') * _ + _ = _
      rw [digitsValue_zeros, zero_mul, zero_add]

theorem shiftDecimalPoint_cut (h : matchesCanonicalDecimal t = true) (hlength : d < t.length) :
    shiftDecimalPoint d t = left t (t.length - d) ++ '.' :: right t d ∧
      FixedPoint d (digitsValue t) (left t (t.length - d)) (right t d) := by
  have hdigits := canonical_allDigits h
  have hne : left t (t.length - d) ≠ [] := by
    intro hnil
    have := congrArg List.length hnil
    simp only [left, List.length_take, List.length_nil] at this
    omega
  constructor
  · rw [shiftDecimalPoint, if_neg (by omega)]
    simp
  · refine ⟨fun c hc => hdigits c (List.mem_of_mem_take hc),
      fun c hc => hdigits c (List.mem_of_mem_drop hc), hne, ?_, ?_, ?_⟩
    · rcases canonical_head h with rfl | hhead
      · left
        have hzero : d = 0 := by simpa using hlength
        rw [hzero]
        rfl
      · right
        intro he
        apply hhead
        rw [← List.take_append_drop (t.length - d) t]
        exact (List.head?_append_of_ne_nil _ hne).trans he
    · simp only [right, List.length_drop]
      omega
    · rw [left, right, List.take_append_drop]

theorem shiftDecimalPoint_fixedPoint (d : ℕ) (h : matchesCanonicalDecimal t = true) :
    ∃ whole fraction, shiftDecimalPoint d t = whole ++ '.' :: fraction ∧
      FixedPoint d (digitsValue t) whole fraction := by
  rcases Nat.lt_or_ge d t.length with hlength | hlength
  · exact ⟨_, _, shiftDecimalPoint_cut h hlength⟩
  · exact ⟨_, _, shiftDecimalPoint_padded (canonical_allDigits h) hlength⟩

theorem tryCast_shifted (h : matchesCanonicalDecimal t = true) (hmax : digitsValue t ≤ decimal38Max) :
    tryCastDecimal d (shiftDecimalPoint d t) = some (mkRat (digitsValue t) (10 ^ d)) := by
  obtain ⟨whole, fraction, hshift, hfixed⟩ := shiftDecimalPoint_fixedPoint d h
  rw [hshift, tryCastDecimal_point hfixed.wholeDigits hfixed.fractionDigits hfixed.nonempty,
    hfixed.digits, hfixed.places, decimalOf_exact]
  rw [decimal38Max] at hmax
  rw [decimal38Limit]
  omega

theorem tryCast_integer (h : matchesCanonicalDecimal t = true) (hmax : digitsValue t ≤ decimal38Max) :
    tryCastDecimal 0 t = some (digitsValue t : Rat) := by
  rw [tryCastDecimal_whole (canonical_allDigits h) (canonical_ne_nil h), decimalOf_exact]
  · simp [Rat.mkRat_one]
  · rw [decimal38Max] at hmax
    rw [decimal38Limit]
    omega

def fixedPointValue (whole fraction : Text) : Rat :=
  digitsValue (whole ++ fraction) / 10 ^ fraction.length

theorem mkRat_scaled (v d : ℕ) : mkRat v (10 ^ d) * 10 ^ d = v := by
  rw [Rat.mkRat_eq_div]
  push_cast
  field_simp

theorem decodeTransfer_amounts (h : decodeTransfer vars log = some transfer) :
    transfer.contractAddress = log.contractAddress ∧
      transfer.rawAmountDecimalText = log.dataUint256DecimalText ∧
      transfer.amountNumericStatus = log.dataUint256DecodeStatus ∧
      transfer.rawAmountDecimal =
        rawAmountDecimal log.dataUint256DecodeStatus log.dataUint256DecimalText ∧
      transfer.amountUsdtDecimalText = amountUsdtDecimalText vars log.contractAddress
        log.dataUint256DecodeStatus log.dataUint256DecimalText ∧
      transfer.amountUsdt = transfer.amountUsdtDecimalText.bind (tryCastDecimal vars.usdtDecimals) := by
  obtain ⟨fromAddress, -, h⟩ := Option.bind_eq_some_iff.mp h
  obtain ⟨toAddress, -, h⟩ := Option.bind_eq_some_iff.mp h
  cases h
  exact ⟨rfl, rfl, rfl, rfl, rfl, rfl⟩

structure ExactAmounts (d v : ℕ) (raw amount : Option Rat) : Prop where
  rawValue : raw = some (v : Rat)
  amountValue : amount = some ((v : Rat) / 10 ^ d)
  scaled : ∀ r a, raw = some r → amount = some a → a * 10 ^ d = r

theorem exactAmounts (d : ℕ) (h : matchesCanonicalDecimal t = true)
    (hmax : digitsValue t ≤ decimal38Max) :
    ExactAmounts d (digitsValue t) (tryCastDecimal 0 t) (tryCastDecimal d (shiftDecimalPoint d t)) := by
  refine ⟨tryCast_integer h hmax, ?_, ?_⟩
  · rw [tryCast_shifted h hmax, Rat.mkRat_eq_div]
    push_cast
    rfl
  · intro r a hr ha
    rw [tryCast_integer h hmax] at hr
    rw [tryCast_shifted h hmax] at ha
    cases hr
    cases ha
    exact mkRat_scaled _ _

structure ShiftedExactly (d : ℕ) (t : Text) : Prop where
  fixedPoint : ∃ whole fraction, shiftDecimalPoint d t = whole ++ '.' :: fraction ∧
    FixedPoint d (digitsValue t) whole fraction ∧
    fixedPointValue whole fraction = (digitsValue t : Rat) / 10 ^ d
  casts : ExactAmounts d (digitsValue t) (tryCastDecimal 0 t)
    (tryCastDecimal d (shiftDecimalPoint d t))

theorem shiftedExactly (d : ℕ) (h : matchesCanonicalDecimal t = true)
    (hmax : digitsValue t ≤ decimal38Max) : ShiftedExactly d t := by
  obtain ⟨whole, fraction, hshift, hfixed⟩ := shiftDecimalPoint_fixedPoint d h
  refine ⟨⟨whole, fraction, hshift, hfixed, ?_⟩, exactAmounts d h hmax⟩
  rw [fixedPointValue, hfixed.digits, hfixed.places]

structure AvailableText (log : LogRow) (t : Text) : Prop where
  text : log.dataUint256DecimalText = some t
  status : log.dataUint256DecodeStatus = uint256StatusDecimal38Available
  canonical : matchesCanonicalDecimal t = true
  fits : digitsValue t ≤ decimal38Max

theorem AvailableText.amounts (h : AvailableText log t) (hdecoded : decodeTransfer vars log = some transfer)
    (hcontract : transfer.contractAddress = lower vars.usdtContractAddress) :
    ExactAmounts vars.usdtDecimals (digitsValue t) transfer.rawAmountDecimal transfer.amountUsdt ∧
      transfer.rawAmountDecimalText = some t ∧
      transfer.amountNumericStatus = uint256StatusDecimal38Available ∧
      transfer.amountUsdtDecimalText = some (shiftDecimalPoint vars.usdtDecimals t) := by
  obtain ⟨hsame, htext, hstatus, hraw, hamountText, hamount⟩ := decodeTransfer_amounts hdecoded
  have hshifted : transfer.amountUsdtDecimalText = some (shiftDecimalPoint vars.usdtDecimals t) := by
    rw [hamountText, amountUsdtDecimalText, if_pos ⟨hsame ▸ hcontract, h.status⟩, h.text]
    rfl
  rw [htext, hstatus, hamount, hshifted, hraw, rawAmountDecimal, if_pos h.status, h.text]
  exact ⟨exactAmounts _ h.canonical h.fits, rfl, h.status, rfl⟩

theorem usdtAmountNumericNotNull_passes (h : AvailableText log t)
    (hdecoded : decodeTransfer vars log = some transfer) :
    usdtAmountNumericNotNull vars transfer = false := by
  by_cases hcontract : transfer.contractAddress = lower vars.usdtContractAddress
  · obtain ⟨hexact, htext, hstatus, hshifted⟩ := h.amounts hdecoded hcontract
    simp [usdtAmountNumericNotNull, htext, hstatus, hshifted, hexact.rawValue, hexact.amountValue]
  · simp [usdtAmountNumericNotNull, hcontract]

theorem usdt_decimal_shift_exact (t : Text) (hcanonical : matchesCanonicalDecimal t = true)
    (hfits : digitsValue t ≤ decimal38Max) (vars : DbtVars) :
    ShiftedExactly vars.usdtDecimals t ∧ ∀ log transfer, log.dataUint256DecimalText = some t →
      log.dataUint256DecodeStatus = uint256StatusDecimal38Available →
      decodeTransfer vars log = some transfer →
      usdtAmountNumericNotNull vars transfer = false ∧
        (transfer.contractAddress = lower vars.usdtContractAddress →
          transfer.amountUsdtDecimalText = some (shiftDecimalPoint vars.usdtDecimals t) ∧
          ExactAmounts vars.usdtDecimals (digitsValue t) transfer.rawAmountDecimal
            transfer.amountUsdt) := by
  refine ⟨shiftedExactly _ hcanonical hfits, ?_⟩
  intro log transfer htext hstatus hdecoded
  have hlog : AvailableText log t := ⟨htext, hstatus, hcanonical, hfits⟩
  refine ⟨usdtAmountNumericNotNull_passes hlog hdecoded, fun hcontract => ?_⟩
  obtain ⟨hexact, -, -, hshifted⟩ := hlog.amounts hdecoded hcontract
  exact ⟨hshifted, hexact⟩

def usdtVars : DbtVars := ⟨usdtContractAddress, tetherTreasuryAddress, 6⟩

def addressTopic : Text := '0' :: 'x' :: List.replicate 64 '1'

def usdtLog : LogRow where
  chainId := 1
  blockNumber := 1
  blockHash := "0xb1".toList
  transactionHash := "0xaa".toList
  transactionIndex := none
  logIndex := 0
  contractAddress := usdtContractAddress
  topic0 := some transferTopic0
  topic1 := some addressTopic
  topic2 := some addressTopic
  topic3 := none
  dataRaw := uint256Hex 1250000
  dataUint256DecimalText := some "1250000".toList
  dataUint256DecodeStatus := uint256StatusDecimal38Available
  removed := none
  blockTimestampUtc := 0
  blockDateUtc := 0
  intervalStartUtc := 0
  intervalEndUtc := 1
  ingestedAtUtc := 0

theorem usdt_decimal_shift_exact_million : ShiftedExactly 6 "1250000".toList ∧
    ∃ transfer, decodeTransfer usdtVars usdtLog = some transfer ∧
      usdtAmountNumericNotNull usdtVars transfer = false ∧
      transfer.amountUsdtDecimalText = some "1.250000".toList := by
  obtain ⟨hshift, hrows⟩ := usdt_decimal_shift_exact "1250000".toList (by decide) (by decide) usdtVars
  have hdecoded : (decodeTransfer usdtVars usdtLog).isSome = true := by decide +kernel
  obtain ⟨transfer, htransfer⟩ := Option.isSome_iff_exists.mp hdecoded
  obtain ⟨hpasses, husdt⟩ := hrows usdtLog transfer rfl rfl htransfer
  have hcontract : transfer.contractAddress = lower usdtVars.usdtContractAddress :=
    (decodeTransfer_amounts htransfer).1.trans (by decide)
  exact ⟨hshift, transfer, htransfer, hpasses, (husdt hcontract).1⟩

end EthereumLogs.Dbt
