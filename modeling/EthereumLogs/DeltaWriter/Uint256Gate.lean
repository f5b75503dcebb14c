import EthereumLogs.NormalizedRows
import EthereumLogs.LogNormalizer.Uint256

namespace EthereumLogs.DeltaWriter
open Python Effect LogNormalizer

variable {row : PyRow} {v : ℕ} {decoded : Uint256DecodeResult}

theorem isDecimal_decimalText : isDecimal (decimalText v) = true := by
  have hall : (decimalText v).all (fun c => (decimalValue c).isSome) = true := by
    rw [List.all_eq_true]
    intro c hc
    rw [decimalValue_code (decimalText_code hc)]
    rfl
  simp [isDecimal, hall, decimalText_ne_nil]

theorem intOfDecimal_decimalText : intOfDecimal (decimalText v) = v := by
  refine Eq.trans ?_ (foldl_decimalText (n := v))
  apply List.foldl_ext
  intro acc c hc
  rw [decimalValue_code (decimalText_code hc)]
  rfl

theorem isCanonical_decimalText :
    isCanonicalNonNegativeDecimalText (.str (decimalText v)) = true := by
  rw [isCanonicalNonNegativeDecimalText, isDecimal_decimalText, Bool.true_and]
  rcases Nat.eq_zero_or_pos v with rfl | hv
  · rfl
  · simp [head_decimalText hv.ne']

theorem statusOf_cases (v : ℕ) :
    (v ≤ decimal38Max ∧ statusOf v = uint256StatusDecimal38Available) ∨
      (¬ v ≤ decimal38Max ∧ statusOf v = uint256StatusOutsideDecimal38Range) := by
  by_cases h : v ≤ decimal38Max
  · exact .inl ⟨h, statusOf_available.mpr h⟩
  · exact .inr ⟨h, statusOf_outside.mpr h⟩

theorem inDecimalRange_word (v : ℕ) : InDecimalRange (.str (decimalText v)) (statusOf v) := by
  have hvalue : intOfDecimal ((PyVal.str (decimalText v)).asStr.getD []) = v :=
    intOfDecimal_decimalText
  refine ⟨isCanonical_decimalText, ?_, ?_⟩
  · rintro ⟨hstatus, hgt⟩
    rw [hvalue] at hgt
    exact absurd (statusOf_available.mp hstatus) (by omega)
  · rintro ⟨hstatus, hle⟩
    rw [hvalue] at hle
    exact absurd hle (statusOf_outside.mp hstatus)

theorem statusOf_mem (v : ℕ) : statusOf v ∈ uint256DecodeStatuses := by
  rcases statusOf_cases v with ⟨-, he⟩ | ⟨-, he⟩
  · rw [he]
    simp [uint256DecodeStatuses]
  · rw [he]
    simp [uint256DecodeStatuses]

theorem decoded_contract {status : Text}
    (hstatus : row.item "data_uint256_decode_status" = .str status)
    (htext : row.item "data_uint256_decimal_text" = .ofOptionalText decoded.decimalText)
    (hdecoded : decodeUint256DataRaw (row.item "data_raw").asStr = .ok decoded)
    (hsame : status = decoded.status) : Uint256Contract row status decoded := by
  subst hsame
  refine ⟨by rw [hstatus]; rfl, ?_, hdecoded, htext, rfl, ?_⟩
  · rcases decode_ok hdecoded with rfl | ⟨v, rfl⟩
    · simp [notWord, uint256DecodeStatuses]
    · exact statusOf_mem v
  · rcases decode_ok hdecoded with rfl | ⟨v, rfl⟩
    · exact .inl rfl
    · right
      rw [htext]
      exact inDecimalRange_word v

theorem ofOptionalText_inj {a b : Option Text} (h : PyVal.ofOptionalText a = .ofOptionalText b) :
    a = b := by
  cases a <;> cases b <;> cases h <;> rfl

theorem validateUint256Contract_accepts {text : Option Text} {status : Text} (i : ℕ)
    (hstatus : row.item "data_uint256_decode_status" = .str status)
    (htext : row.item "data_uint256_decimal_text" = .ofOptionalText text) :
    validateUint256Contract row i = .ok () ↔
      decodeUint256DataRaw (row.item "data_raw").asStr = .ok ⟨text, status⟩ := by
  rw [validateUint256Contract_ok_iff]
  constructor
  · rintro ⟨status', decoded, hcontract⟩
    have hs := hcontract.isStatus
    rw [hstatus] at hs
    cases hs
    have ht := hcontract.sameText
    rw [htext] at ht
    rw [hcontract.decodes, ofOptionalText_inj ht, hcontract.sameStatus]
  · intro hdecoded
    exact ⟨status, ⟨text, status⟩, decoded_contract hstatus htext hdecoded rfl⟩

def firstCharacter : Exc → Option Char
  | .deltaWriteError message => message.toList.head?
  | _ => none

theorem firstCharacter_append {a b : String} {c : Char} (h : a.toList.head? = some c) :
    firstCharacter (.deltaWriteError (a ++ b)) = some c := by
  simp [firstCharacter, h]

theorem validateDecimalRange_error {e : Exc} {decimalText : PyVal} {status : Text} {i : ℕ}
    (h : validateDecimalRange decimalText status i = .error e) :
    firstCharacter e = some 'u' ∨ firstCharacter e = some 'D' ∨ firstCharacter e = some 'O' := by
  unfold validateDecimalRange at h
  dsimp only at h
  split at h
  · cases h
    exact .inl (firstCharacter_append (by rfl))
  · split at h
    · cases h
      exact .inr (.inl (firstCharacter_append (by rfl)))
    · split at h
      · cases h
        exact .inr (.inr (firstCharacter_append (by rfl)))
      · cases h

theorem validateUint256Contract_error {e : Exc} {status : Text} {i : ℕ}
    (hstatus : row.item "data_uint256_decode_status" = .str status)
    (h : validateUint256Contract row i = .error e) :
    firstCharacter e = some 'U' ∨ firstCharacter e = some 'd' := by
  have hnot : validateUint256Contract row i ≠ .ok () := by simp [h]
  unfold validateUint256Contract at h
  rw [hstatus] at h
  dsimp only at h
  rw [if_neg (by simp [PyVal.isHashable])] at h
  change (if status ∉ uint256DecodeStatuses then _ else _) = _ at h
  split at h
  · cases h
    exact .inl (firstCharacter_append (by rfl))
  · split at h
    · cases h
      exact .inr (firstCharacter_append (by rfl))
    · rename_i decoded hdecoded
      split at h
      · cases h
        exact .inr (firstCharacter_append (by rfl))
      · rename_i hsame
        rw [not_or, not_not, not_not] at hsame
        have hcontract := decoded_contract hstatus hsame.1 hdecoded hsame.2
        exact absurd ((validateUint256Contract_ok_iff i).mpr ⟨status, decoded, hcontract⟩) hnot

structure GateExact (row : PyRow) (i : ℕ) (text : Option Text) (status : Text) : Prop where
  accepts : validateUint256Contract row i = .ok () ↔
    decodeUint256DataRaw (row.item "data_raw").asStr = .ok ⟨text, status⟩
  unreachable : ∀ e decimalText status', validateDecimalRange decimalText status' i = .error e →
    validateUint256Contract row i ≠ .error e

theorem gateExact {text : Option Text} {status : Text} (i : ℕ)
    (hstatus : row.item "data_uint256_decode_status" = .str status)
    (htext : row.item "data_uint256_decimal_text" = .ofOptionalText text) :
    GateExact row i text status := by
  refine ⟨validateUint256Contract_accepts i hstatus htext, ?_⟩
  intro e decimalText status' hrange h
  have hearly := validateUint256Contract_error hstatus h
  have hlate := validateDecimalRange_error hrange
  rcases hearly with hu | hd
  · simp [hu] at hlate
  · simp [hd] at hlate

def Normalized (row : LogRow) : Prop :=
  ∃ rawLog ts chainId start stop ingested,
    normalizeLog rawLog ts chainId start stop ingested = .ok row

structure CanonicalRow (row : LogRow) : Prop where
  columns : row.toDict.columns = ethereumLogsSchema.map SchemaField.name
  lowered : lower row.dataRaw = row.dataRaw
  redecoded : decodeUint256DataRaw (some row.dataRaw) =
    .ok ⟨row.dataUint256DecimalText, row.dataUint256DecodeStatus⟩

theorem Normalized.canonicalRow {row : LogRow} (h : Normalized row) : CanonicalRow row := by
  obtain ⟨rawLog, ts, chainId, start, stop, ingested, hrow⟩ := h
  have hfields := normalizeLog_fields hrow
  exact ⟨rfl, requiredHex_lowered hfields.data, hfields.decoded⟩

theorem CanonicalRow.valid {row : LogRow} (h : CanonicalRow row) : ValidRow row.toDict := by
  have hcontract : Uint256Contract row.toDict row.dataUint256DecodeStatus
      ⟨row.dataUint256DecimalText, row.dataUint256DecodeStatus⟩ :=
    decoded_contract rfl rfl h.redecoded rfl
  refine ⟨?_, ?_, _, _, hcontract⟩
  · intro field hfield
    rw [h.columns]
    exact List.mem_map_of_mem hfield
  · intro column hcolumn
    rwa [h.columns] at hcolumn

theorem uint256_gate_exact :
    (∀ row i text status, PyRow.item row "data_uint256_decode_status" = .str status →
      PyRow.item row "data_uint256_decimal_text" = .ofOptionalText text →
      GateExact row i text status) ∧
    ∀ rows : List LogRow, (∀ row ∈ rows, Normalized row) →
      validateInputRows (rows.map LogRow.toDict) 0 = .ok () ∧ ∀ row ∈ rows, CanonicalRow row := by
  constructor
  · intro row i text status hstatus htext
    exact gateExact i hstatus htext
  · intro rows hrows
    refine ⟨(validateInputRows_ok_iff 0).mpr ?_, fun row hrow => (hrows row hrow).canonicalRow⟩
    intro dict hdict
    obtain ⟨row, hrow, rfl⟩ := List.mem_map.mp hdict
    exact (hrows row hrow).canonicalRow.valid

end EthereumLogs.DeltaWriter
