import EthereumLogs.Dbt.Amounts
import EthereumLogs.DeltaWriter.Uint256Gate

namespace EthereumLogs.Dbt
open Python Duckdb LogNormalizer DeltaWriter

variable {vars : DbtVars} {log : LogRow} {transfer : Erc20Transfer} {v : ℕ}

def WordColumns (log : LogRow) (v : ℕ) : Prop :=
  log.dataUint256DecimalText = some (decimalText v) ∧ log.dataUint256DecodeStatus = statusOf v

theorem statusOf_length (v : ℕ) :
    ((decimalText v).length ≤ 38 ∧ statusOf v = uint256StatusDecimal38Available) ∨
      (38 < (decimalText v).length ∧ statusOf v = uint256StatusOutsideDecimal38Range) := by
  rcases Nat.lt_or_ge 38 (decimalText v).length with hlong | hshort
  · exact .inr ⟨hlong, statusOf_outside.mpr (by rw [le_decimal38Max_iff]; omega)⟩
  · exact .inl ⟨hshort, statusOf_available.mpr (le_decimal38Max_iff.mpr hshort)⟩

theorem ethereumLogsUint256Contract_passes (h : WordColumns log v) :
    ethereumLogsUint256Contract log = false := by
  obtain ⟨htext, hstatus⟩ := h
  rcases statusOf_length v with ⟨hlength, he⟩ | ⟨hlength, he⟩
  · simp [ethereumLogsUint256Contract, htext, hstatus, he, canonical_decimalText, hlength,
      statuses_ne.symm, word_statuses_ne.1]
  · simp [ethereumLogsUint256Contract, htext, hstatus, he, canonical_decimalText, hlength,
      statuses_ne, word_statuses_ne.2]

theorem rawAmountDecimal_word (h : WordColumns log v)
    (hdecoded : decodeTransfer vars log = some transfer) :
    transfer.rawAmountDecimal =
      if (decimalText v).length ≤ 38 then some (v : Rat) else none := by
  obtain ⟨htext, hstatus⟩ := h
  obtain ⟨-, -, -, hraw, -, -⟩ := decodeTransfer_amounts hdecoded
  rw [hraw, hstatus, htext, rawAmountDecimal]
  rcases statusOf_length v with ⟨hlength, he⟩ | ⟨hlength, he⟩
  · have hcast := tryCast_integer (canonical_decimalText (n := v))
      (by rw [digitsValue_decimalText]; exact le_decimal38Max_iff.mpr hlength)
    rw [digitsValue_decimalText] at hcast
    rw [if_pos he, if_pos hlength]
    exact hcast
  · rw [if_neg (by rw [he]; exact statuses_ne), if_neg (by omega)]

theorem erc20AmountNumericStatusIntegrity_passes (h : WordColumns log v)
    (hdecoded : decodeTransfer vars log = some transfer) :
    erc20AmountNumericStatusIntegrity transfer = false := by
  have hraw := rawAmountDecimal_word h hdecoded
  obtain ⟨htext, hstatus⟩ := h
  obtain ⟨-, htext', hstatus', -, -, -⟩ := decodeTransfer_amounts hdecoded
  have hnonneg : ¬ ((v : Rat) < 0) := not_lt.mpr (by positivity)
  rcases statusOf_length v with ⟨hlength, he⟩ | ⟨hlength, he⟩
  · rw [if_pos hlength] at hraw
    simp [erc20AmountNumericStatusIntegrity, hstatus', hstatus, he, htext', htext, hraw, hnonneg,
      statuses_ne.symm, hlength]
  · rw [if_neg (by omega)] at hraw
    simp [erc20AmountNumericStatusIntegrity, hstatus', hstatus, he, htext', htext, hraw,
      statuses_ne, hlength]

structure LosslessDecoding (s t status : Text) (n : ℕ) : Prop where
  denotes : intBase10 t = some (n : Int)
  roundTrip : uint256Hex n = lower s
  canonical : matchesCanonicalDecimal t = true
  short : t.length ≤ 78
  normalizer : status = uint256StatusDecimal38Available ↔ n ≤ decimal38Max
  writer : status = uint256StatusDecimal38Available ↔ intOfDecimal t ≤ decimal38Max
  dbt : status = uint256StatusDecimal38Available ↔ t.length ≤ 38
  outside : status = uint256StatusOutsideDecimal38Range ↔
    status ≠ uint256StatusDecimal38Available

theorem losslessDecoding (w : HexWord) :
    LosslessDecoding w.text (decimalText w.value) (statusOf w.value) w.value := by
  have hshort : (decimalText w.value).length ≤ 78 :=
    (length_decimalText_le_iff (by decide)).mpr (w.value_lt.trans (by decide))
  refine ⟨int10_decimalText (by omega), uint256Hex_value w, canonical_decimalText, hshort,
    statusOf_available, ?_, ?_, ?_⟩
  · rw [intOfDecimal_decimalText]
    exact statusOf_available
  · rw [statusOf_available, le_decimal38Max_iff]
  · rw [statusOf_outside, ne_eq, statusOf_available]

theorem uint256_decoding_lossless (w : HexWord) :
    (∃ t status n, decodeUint256DataRaw (some w.text) = .ok ⟨some t, status⟩ ∧
      LosslessDecoding w.text t status n) ∧
    ∀ rawLog ts chainId start stop ingested row, JsonObject.get rawLog "data" = some (.str w.text) →
      normalizeLog rawLog ts chainId start stop ingested = .ok row →
      ethereumLogsUint256Contract (stagedLog row) = false ∧
        ∀ vars transfer, decodeTransfer vars (stagedLog row) = some transfer →
          erc20AmountNumericStatusIntegrity transfer = false := by
  refine ⟨⟨_, _, _, decode_hexWord w, losslessDecoding w⟩, ?_⟩
  intro rawLog ts chainId start stop ingested row hdata hrow
  have hfields := normalizeLog_fields hrow
  have hraw := hfields.data
  rw [hdata] at hraw
  change requiredHex (some w.text) = _ at hraw
  rw [requiredHex_hexWord] at hraw
  have hdecoded := hfields.decoded
  rw [← Except.ok.inj hraw, decode_hexWord] at hdecoded
  have hresult := Except.ok.inj hdecoded
  simp only [wordResult, Uint256DecodeResult.mk.injEq] at hresult
  have hcolumns : WordColumns (stagedLog row) w.lowered.value :=
    ⟨hresult.1.symm, hresult.2.symm⟩
  exact ⟨ethereumLogsUint256Contract_passes hcolumns,
    fun vars transfer h => erc20AmountNumericStatusIntegrity_passes hcolumns h⟩

end EthereumLogs.Dbt
