import EthereumLogs.Dbt.Uint256Thresholds
import EthereumLogs.LogNormalizer.Amounts

namespace EthereumLogs.Dbt
open Python Duckdb LogNormalizer

variable {vars : DbtVars} {log : LogRow} {transfer : Erc20Transfer} {w : HexWord} {v d : ℕ} {a : Rat}

def StoresWord (log : LogRow) (w : HexWord) : Prop :=
  decodeUint256DataRaw (some w.text) =
    .ok ⟨log.dataUint256DecimalText, log.dataUint256DecodeStatus⟩

theorem StoresWord.columns (h : StoresWord log w) : WordColumns log w.value := by
  rw [StoresWord, decode_hexWord, wordResult] at h
  obtain ⟨htext, hstatus⟩ := Uint256DecodeResult.mk.inj (Except.ok.inj h)
  exact ⟨htext.symm, hstatus.symm⟩

theorem amountUsdt_word (h : WordColumns log v) (hdecoded : decodeTransfer vars log = some transfer)
    (ha : transfer.amountUsdt = some a) : a = (v : Rat) / 10 ^ vars.usdtDecimals := by
  obtain ⟨htext, hstatus⟩ := h
  obtain ⟨hsame, -, -, -, hamountText, hamount⟩ := decodeTransfer_amounts hdecoded
  by_cases husdt : log.contractAddress = lower vars.usdtContractAddress ∧
      log.dataUint256DecodeStatus = uint256StatusDecimal38Available
  · have hfits : digitsValue (decimalText v) ≤ decimal38Max := by
      rw [digitsValue_decimalText]
      exact statusOf_available.mp (hstatus ▸ husdt.2)
    have hlog : AvailableText log (decimalText v) :=
      ⟨htext, husdt.2, canonical_decimalText, hfits⟩
    obtain ⟨hexact, -, -, -⟩ := hlog.amounts hdecoded (hsame ▸ husdt.1)
    have hvalue := hexact.amountValue
    rw [ha, digitsValue_decimalText] at hvalue
    exact Option.some.inj hvalue
  · rw [amountUsdtDecimalText, if_neg husdt] at hamountText
    rw [hamount, hamountText] at ha
    cases ha

structure AgreesWithSilver (w : HexWord) (d : ℕ) (amount : Decimal) : Prop where
  exact : amount.toRat = (w.value : Rat) / 10 ^ d
  silver : ∀ vars log transfer a, vars.usdtDecimals = d → StoresWord log w →
    decodeTransfer vars log = some transfer → transfer.amountUsdt = some a → amount.toRat = a

theorem agreesWithSilver {amount : Decimal} (h : amount.toRat = (w.value : Rat) / 10 ^ d) :
    AgreesWithSilver w d amount := by
  refine ⟨h, ?_⟩
  rintro vars log transfer a rfl hlog hdecoded ha
  rw [h, amountUsdt_word hlog.columns hdecoded ha]

theorem amount_with_decimals_exact_iff (w : HexWord) (d : ℕ) :
    (∃ amount, decodedAmount w.text d = .ok amount ∧ AgreesWithSilver w d amount) ↔
      d ≤ 999999 ∧ ∃ m k, w.value = m * 10 ^ k ∧ m < 10 ^ 28 := by
  rw [show (∃ m k, w.value = m * 10 ^ k ∧ m < 10 ^ 28) = Decimal.Representable w.value from rfl,
    ← decodedAmount_exact_iff]
  constructor
  · rintro ⟨amount, hamount, hagrees⟩
    exact ⟨amount, hamount, hagrees.exact⟩
  · rintro ⟨amount, hamount, hexact⟩
    exact ⟨amount, hamount, agreesWithSilver hexact⟩

def preciseWord : HexWord where
  digits := (uint256Hex (10 ^ 28 + 1)).drop 2
  hex := List.all_eq_true.mp (by decide +kernel)
  length := by decide +kernel

def preciseLog : LogRow :=
  { usdtLog with
    dataRaw := preciseWord.text
    dataUint256DecimalText := some (decimalText (10 ^ 28 + 1)) }

theorem amount_with_decimals_rounds :
    decodedAmount preciseWord.text 6 = .ok ⟨false, 10 ^ 27, -5⟩ ∧
      StoresWord preciseLog preciseWord ∧
      (decodeTransfer usdtVars preciseLog).bind (·.amountUsdt) = some ((10 ^ 28 + 1) / 10 ^ 6) ∧
      ¬ ∃ amount, decodedAmount preciseWord.text 6 = .ok amount ∧
        AgreesWithSilver preciseWord 6 amount := by
  have hamount : decodedAmount preciseWord.text 6 = .ok ⟨false, 10 ^ 27, -5⟩ := by decide +kernel
  refine ⟨hamount, ?_, by decide +kernel, ?_⟩
  · rw [StoresWord]
    decide +kernel
  · rintro ⟨amount, hok, hagrees⟩
    rw [hamount] at hok
    cases hok
    have hvalue : preciseWord.value = 10 ^ 28 + 1 := by decide +kernel
    have hexact := hagrees.exact
    rw [hvalue] at hexact
    norm_num [Decimal.toRat] at hexact

end EthereumLogs.Dbt
