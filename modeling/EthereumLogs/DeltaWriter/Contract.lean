import EthereumLogs.DeltaWriter.Write

namespace EthereumLogs.DeltaWriter
open Python Effect Keyed LogNormalizer

variable {row : PyRow} {rows : List PyRow} {s : LogRow} {faults : StoreFaults}
  {table : Option DeltaTable}

structure Converted (row : PyRow) (s : LogRow) : Prop where
  chainId : row.item "chain_id" = .int s.chainId
  transactionHash : row.item "transaction_hash" = .str s.transactionHash
  logIndex : row.item "log_index" = .int s.logIndex
  dataRaw : (row.item "data_raw").asStr = some s.dataRaw
  decimalText : nullable stringColumn (row.item "data_uint256_decimal_text") =
    some s.dataUint256DecimalText
  status : (row.item "data_uint256_decode_status").asStr = some s.dataUint256DecodeStatus

theorem int64Column_eq {v : PyVal} {i : Int} (h : int64Column v = some i) : v = .int i := by
  cases v with
  | int j =>
    simp only [int64Column] at h
    split at h
    · cases h
      rfl
    · cases h
  | _ => simp [int64Column] at h

theorem stringColumn_eq {v : PyVal} {t : Text} (h : stringColumn v = some t) : v = .str t := by
  cases v with
  | str u =>
    cases h
    rfl
  | _ => simp [stringColumn, PyVal.asStr] at h

structure ArrowColumns (row : PyRow) (s : LogRow) : Prop where
  chainId : int64Column (row.item "chain_id") = some s.chainId
  blockNumber : int64Column (row.item "block_number") = some s.blockNumber
  blockHash : stringColumn (row.item "block_hash") = some s.blockHash
  transactionHash : stringColumn (row.item "transaction_hash") = some s.transactionHash
  transactionIndex : nullable int64Column (row.item "transaction_index") = some s.transactionIndex
  logIndex : int64Column (row.item "log_index") = some s.logIndex
  contractAddress : stringColumn (row.item "contract_address") = some s.contractAddress
  topic0 : nullable stringColumn (row.item "topic0") = some s.topic0
  topic1 : nullable stringColumn (row.item "topic1") = some s.topic1
  topic2 : nullable stringColumn (row.item "topic2") = some s.topic2
  topic3 : nullable stringColumn (row.item "topic3") = some s.topic3
  dataRaw : stringColumn (row.item "data_raw") = some s.dataRaw
  dataUint256DecimalText : nullable stringColumn (row.item "data_uint256_decimal_text") =
    some s.dataUint256DecimalText
  dataUint256DecodeStatus : stringColumn (row.item "data_uint256_decode_status") =
    some s.dataUint256DecodeStatus
  removed : nullable boolColumn (row.item "removed") = some s.removed
  blockTimestampUtc : timestampColumn (row.item "block_timestamp_utc") = some s.blockTimestampUtc
  blockDateUtc : date32Column (row.item "block_date_utc") = some s.blockDateUtc
  intervalStartUtc : timestampColumn (row.item "interval_start_utc") = some s.intervalStartUtc
  intervalEndUtc : timestampColumn (row.item "interval_end_utc") = some s.intervalEndUtc
  ingestedAtUtc : timestampColumn (row.item "ingested_at_utc") = some s.ingestedAtUtc

theorem arrowRow_columns (h : arrowRow row = some s) : ArrowColumns row s := by
  unfold arrowRow at h
  obtain ⟨_, h1, h⟩ := Option.bind_eq_some_iff.mp h
  obtain ⟨_, h2, h⟩ := Option.bind_eq_some_iff.mp h
  obtain ⟨_, h3, h⟩ := Option.bind_eq_some_iff.mp h
  obtain ⟨_, h4, h⟩ := Option.bind_eq_some_iff.mp h
  obtain ⟨_, h5, h⟩ := Option.bind_eq_some_iff.mp h
  obtain ⟨_, h6, h⟩ := Option.bind_eq_some_iff.mp h
  obtain ⟨_, h7, h⟩ := Option.bind_eq_some_iff.mp h
  obtain ⟨_, h8, h⟩ := Option.bind_eq_some_iff.mp h
  obtain ⟨_, h9, h⟩ := Option.bind_eq_some_iff.mp h
  obtain ⟨_, h10, h⟩ := Option.bind_eq_some_iff.mp h
  obtain ⟨_, h11, h⟩ := Option.bind_eq_some_iff.mp h
  obtain ⟨_, h12, h⟩ := Option.bind_eq_some_iff.mp h
  obtain ⟨_, h13, h⟩ := Option.bind_eq_some_iff.mp h
  obtain ⟨_, h14, h⟩ := Option.bind_eq_some_iff.mp h
  obtain ⟨_, h15, h⟩ := Option.bind_eq_some_iff.mp h
  obtain ⟨_, h16, h⟩ := Option.bind_eq_some_iff.mp h
  obtain ⟨_, h17, h⟩ := Option.bind_eq_some_iff.mp h
  obtain ⟨_, h18, h⟩ := Option.bind_eq_some_iff.mp h
  obtain ⟨_, h19, h⟩ := Option.bind_eq_some_iff.mp h
  obtain ⟨_, h20, h⟩ := Option.bind_eq_some_iff.mp h
  cases h
  exact ⟨h1, h2, h3, h4, h5, h6, h7, h8, h9, h10, h11, h12, h13, h14, h15,
    h16, h17, h18, h19, h20⟩

theorem arrowRow_converted (h : arrowRow row = some s) : Converted row s := by
  have columns := arrowRow_columns h
  exact ⟨int64Column_eq columns.chainId, stringColumn_eq columns.transactionHash,
    int64Column_eq columns.logIndex, columns.dataRaw, columns.dataUint256DecimalText,
    columns.dataUint256DecodeStatus⟩

theorem Converted.key (h : Converted row s) : storedKey s = rowKey row := by
  simp [storedKey, rowKey, naturalKeyColumns, h.chainId, h.transactionHash, h.logIndex, PyVal.canon]

def Decoded (s : LogRow) : Prop :=
  decodeUint256DataRaw (some s.dataRaw) = .ok ⟨s.dataUint256DecimalText, s.dataUint256DecodeStatus⟩

structure InDecimalRange (decimalText : PyVal) (status : Text) : Prop where
  canonical : isCanonicalNonNegativeDecimalText decimalText = true
  available : ¬ (status = uint256StatusDecimal38Available ∧
    intOfDecimal (decimalText.asStr.getD []) > decimal38Max)
  outside : ¬ (status = uint256StatusOutsideDecimal38Range ∧
    intOfDecimal (decimalText.asStr.getD []) ≤ decimal38Max)

theorem validateDecimalRange_ok_iff {decimalText : PyVal} {status : Text} (i : Nat) :
    validateDecimalRange decimalText status i = .ok () ↔ InDecimalRange decimalText status := by
  rw [validateDecimalRange]
  constructor
  · intro h
    dsimp only at h
    split_ifs at h with hcanonical havailable houtside
    exact ⟨by simpa using hcanonical, havailable, houtside⟩
  · rintro ⟨hcanonical, havailable, houtside⟩
    rw [if_neg (by simp [hcanonical]), if_neg havailable, if_neg houtside]

structure Uint256Contract (row : PyRow) (status : Text) (decoded : Uint256DecodeResult) : Prop where
  isStatus : (row.item "data_uint256_decode_status").asStr = some status
  known : status ∈ uint256DecodeStatuses
  decodes : decodeUint256DataRaw (row.item "data_raw").asStr = .ok decoded
  sameText : row.item "data_uint256_decimal_text" = .ofOptionalText decoded.decimalText
  sameStatus : status = decoded.status
  range : status = uint256StatusNotUint256Word ∨
    InDecimalRange (row.item "data_uint256_decimal_text") status

theorem isHashable_of_asStr {v : PyVal} {t : Text} (h : v.asStr = some t) :
    v.isHashable = true := by
  cases v with
  | unhashable tag => cases h
  | _ => rfl

theorem validateUint256Contract_ok_iff (i : Nat) :
    validateUint256Contract row i = .ok () ↔ ∃ status decoded, Uint256Contract row status decoded := by
  unfold validateUint256Contract
  constructor
  · intro h
    dsimp only at h
    split at h
    · cases h
    · split at h
      · cases h
      · rename_i status hstatus
        split at h
        · cases h
        · rename_i hknown
          split at h
          · cases h
          · rename_i decoded hdecoded
            split at h
            · cases h
            · rename_i hsame
              rw [not_or, not_not, not_not] at hsame
              refine ⟨status, decoded, hstatus, not_not.mp hknown, hdecoded, hsame.1, hsame.2, ?_⟩
              split at h
              · rename_i hnot
                exact .inl hnot
              · exact .inr ((validateDecimalRange_ok_iff i).mp h)
  · rintro ⟨status, decoded, hstatus, hknown, hdecoded, htext, hsame, hrange⟩
    dsimp only
    rw [if_neg (by simp [isHashable_of_asStr hstatus]), hstatus]
    dsimp only
    rw [if_neg (not_not.mpr hknown), hdecoded]
    dsimp only
    rw [if_neg (by simp [htext, hsame])]
    split
    · rfl
    · rename_i hnot
      exact (validateDecimalRange_ok_iff i).mpr (hrange.resolve_left hnot)

structure ValidRow (row : PyRow) : Prop where
  complete : ∀ field ∈ ethereumLogsSchema, field.name ∈ row.columns
  exact : ∀ column ∈ row.columns, column ∈ ethereumLogsSchema.map SchemaField.name
  contract : ∃ status decoded, Uint256Contract row status decoded

theorem validateInputRow_ok_iff (i : Nat) : validateInputRow row i = .ok () ↔ ValidRow row := by
  have hcomplete : (ethereumLogsSchema.map SchemaField.name).filter
      (fun column => column ∉ row.columns) = [] ↔
      ∀ field ∈ ethereumLogsSchema, field.name ∈ row.columns := by simp [List.filter_eq_nil_iff]
  have hexact : row.columns.filter
      (fun column => column ∉ ethereumLogsSchema.map SchemaField.name) = [] ↔
      ∀ column ∈ row.columns, column ∈ ethereumLogsSchema.map SchemaField.name := by
    simp [List.filter_eq_nil_iff]
  unfold validateInputRow
  constructor
  · intro h
    dsimp only at h
    split at h
    · cases h
    · rename_i hcolumns
      rw [not_or, not_not, not_not] at hcolumns
      exact ⟨hcomplete.mp hcolumns.1, hexact.mp hcolumns.2,
        (validateUint256Contract_ok_iff i).mp h⟩
  · rintro ⟨hc, he, hcontract⟩
    dsimp only
    rw [if_neg]
    · exact (validateUint256Contract_ok_iff i).mpr hcontract
    · rw [not_or, not_not, not_not]
      exact ⟨hcomplete.mpr hc, hexact.mpr he⟩

theorem validateInputRows_ok_iff (i : Nat) :
    validateInputRows rows i = .ok () ↔ ∀ row ∈ rows, ValidRow row := by
  induction rows generalizing i with
  | nil => simp [validateInputRows]
  | cons row rows ih =>
    rw [validateInputRows, List.forall_mem_cons, ← ih (i + 1)]
    cases hrow : validateInputRow row i with
    | error e =>
      have hnot : ¬ ValidRow row := fun h => by
        rw [(validateInputRow_ok_iff i).mpr h] at hrow
        cases hrow
      simp [hnot, Except.bind]
    | ok u => simp [(validateInputRow_ok_iff i).mp hrow, Except.bind]

theorem nullable_ofOptionalText {t u : Option Text}
    (h : nullable stringColumn (.ofOptionalText t) = some u) : t = u := by
  cases t with
  | none =>
    cases h
    rfl
  | some t =>
    cases h
    rfl

theorem ValidRow.decoded (h : ValidRow row) (hs : Converted row s) : Decoded s := by
  obtain ⟨status, decoded, hcontract⟩ := h.contract
  have htext := hs.decimalText
  rw [hcontract.sameText] at htext
  have hstatus := hs.status
  rw [hcontract.isStatus, hcontract.sameStatus] at hstatus
  rw [Decoded, ← hs.dataRaw, hcontract.decodes, ← nullable_ofOptionalText htext,
    ← Option.some.inj hstatus]

def payload (row : PyRow) : List PyVal := immutableLogColumns.map fun column => (row.item column).canon

theorem sameImmutable_iff (left right : PyRow) :
    sameImmutableLogPayload left right = true ↔ payload left = payload right := by
  simp [sameImmutableLogPayload, payload, PyVal.eq, List.all_eq_true, List.map_inj_left]

structure Agrees (seen rows : List PyRow) : Prop where
  hashable : ∀ row ∈ rows, keyIsHashable row = true
  payloads : ∀ a ∈ seen ++ rows, ∀ b ∈ rows, rowKey a = rowKey b → payload a = payload b

variable {seen : List PyRow}

def seenEntries (seen : List PyRow) : List (Key × PyRow) := seen.map fun prior => (rowKey prior, prior)

theorem lookup_seen_none {k : Key} (h : (seenEntries seen).lookup k = none) :
    k ∉ seen.map rowKey := by
  intro hmem
  obtain ⟨prior, hprior, rfl⟩ := List.mem_map.mp hmem
  have := List.lookup_eq_none_iff.mp h (rowKey prior, prior) (List.mem_map.mpr ⟨prior, hprior, rfl⟩)
  simp at this

theorem lookup_seen_some {k : Key} {prior : PyRow} (h : (seenEntries seen).lookup k = some prior) :
    prior ∈ seen ∧ rowKey prior = k := by
  induction seen with
  | nil => cases h
  | cons head seen ih =>
    simp only [seenEntries, List.map_cons, List.lookup_cons] at h
    by_cases hk : k = rowKey head
    · subst hk
      simp only [BEq.rfl, Option.some.injEq] at h
      exact ⟨by simp [h], by rw [h]⟩
    · have hne : (k == rowKey head) = false := by simpa using hk
      rw [hne] at h
      obtain ⟨hmem, he⟩ := ih h
      exact ⟨List.mem_cons_of_mem _ hmem, he⟩

theorem Agrees.of_new {row : PyRow} (hnew : rowKey row ∉ seen.map rowKey)
    (hrow : keyIsHashable row = true) (h : Agrees (row :: seen) rows) :
    Agrees seen (row :: rows) := by
  refine ⟨List.forall_mem_cons.mpr ⟨hrow, h.hashable⟩, ?_⟩
  intro a ha b hb he
  rcases List.mem_cons.mp hb with rfl | hb'
  · rcases List.mem_append.mp ha with hseen | hrows
    · exact absurd (he ▸ List.mem_map_of_mem hseen) hnew
    · rcases List.mem_cons.mp hrows with rfl | hrows'
      · rfl
      · exact (h.payloads b (by simp) a hrows' he.symm).symm
  · refine h.payloads a ?_ b hb' he
    simp only [List.mem_append, List.mem_cons] at ha ⊢
    tauto

theorem Agrees.weaken {seen' rows' : List PyRow} (h : Agrees seen rows)
    (hall : ∀ a ∈ seen' ++ rows', a ∈ seen ++ rows) (hrows : ∀ b ∈ rows', b ∈ rows) :
    Agrees seen' rows' :=
  ⟨fun b hb => h.hashable b (hrows b hb),
    fun a ha b hb he => h.payloads a (hall a ha) b (hrows b hb) he⟩

theorem Agrees.to_new {row : PyRow} (h : Agrees seen (row :: rows)) : Agrees (row :: seen) rows := by
  refine h.weaken ?_ fun b => List.mem_cons_of_mem row
  intro a ha
  simp only [List.mem_append, List.mem_cons] at ha ⊢
  tauto

theorem Agrees.of_repeated {row prior : PyRow} (hprior : prior ∈ seen)
    (hkey : rowKey prior = rowKey row) (hpayload : payload prior = payload row)
    (hnodup : (seen.map rowKey).Nodup) (hrow : keyIsHashable row = true) (h : Agrees seen rows) :
    Agrees seen (row :: rows) := by
  refine ⟨List.forall_mem_cons.mpr ⟨hrow, h.hashable⟩, ?_⟩
  intro a ha b hb he
  rcases List.mem_cons.mp hb with rfl | hb'
  · rcases List.mem_append.mp ha with hseen | hrows
    · rw [eq_of_key_eq rowKey hnodup hseen hprior (he.trans hkey.symm), hpayload]
    · rcases List.mem_cons.mp hrows with rfl | hrows'
      · rfl
      · rw [← hpayload]
        exact (h.payloads prior (by simp [hprior]) a hrows' (hkey.trans he.symm)).symm
  · rcases List.mem_append.mp ha with hseen | hrows
    · exact h.payloads a (by simp [hseen]) b hb' he
    · rcases List.mem_cons.mp hrows with rfl | hrows'
      · rw [← hpayload]
        exact h.payloads prior (by simp [hprior]) b hb' (hkey.trans he)
      · exact h.payloads a (by simp [hrows']) b hb' he

theorem Agrees.tail {row : PyRow} (h : Agrees seen (row :: rows)) : Agrees seen rows := by
  refine h.weaken ?_ fun b => List.mem_cons_of_mem row
  intro a ha
  simp only [List.mem_append, List.mem_cons] at ha ⊢
  tauto

theorem dedupeLoop_ok (seen : List PyRow) {result : List PyRow} {duplicates : Nat}
    (hnodup : (seen.map rowKey).Nodup)
    (h : dedupeLoop (seenEntries seen) rows = .ok (result, duplicates)) :
    Agrees seen rows ∧ result = firsts rowKey (seen.map rowKey) rows ∧
      result.length + duplicates = rows.length := by
  induction rows generalizing seen result duplicates with
  | nil =>
    cases h
    exact ⟨⟨by simp, by simp⟩, rfl, rfl⟩
  | cons row rows ih =>
    rw [dedupeLoop] at h
    split at h
    · cases h
    · rename_i hhash
      have hrow : keyIsHashable row = true := by simpa using hhash
      split at h
      · rename_i hlookup
        have hnew := lookup_seen_none hlookup
        obtain ⟨⟨rest, n⟩, hrest, he⟩ := except_map_ok h
        cases he
        obtain ⟨hagrees, rfl, hlength⟩ := ih (row :: seen)
          (List.nodup_cons.mpr ⟨hnew, hnodup⟩) hrest
        refine ⟨hagrees.of_new hnew hrow, ?_, ?_⟩
        · rw [firsts, if_neg hnew, List.map_cons]
        · simp only [List.length_cons] at hlength ⊢
          omega
      · rename_i prior hlookup
        obtain ⟨hprior, hkey⟩ := lookup_seen_some hlookup
        split at h
        · cases h
        · rename_i hsame
          have hpayload := (sameImmutable_iff prior row).mp (by simpa using hsame)
          obtain ⟨⟨rest, n⟩, hrest, he⟩ := except_map_ok h
          cases he
          obtain ⟨hagrees, rfl, hlength⟩ := ih seen hnodup hrest
          refine ⟨hagrees.of_repeated hprior hkey hpayload hnodup hrow, ?_, ?_⟩
          · rw [firsts, if_pos (hkey ▸ List.mem_map_of_mem hprior)]
          · simp only [List.length_cons]
            omega

theorem dedupeLoop_of_agrees (seen : List PyRow) (hnodup : (seen.map rowKey).Nodup)
    (h : Agrees seen rows) : ∃ r, dedupeLoop (seenEntries seen) rows = .ok r := by
  induction rows generalizing seen with
  | nil => exact ⟨_, rfl⟩
  | cons row rows ih =>
    rw [dedupeLoop, if_neg (by simp [h.hashable row (by simp)])]
    split
    · rename_i hlookup
      have hnew := lookup_seen_none hlookup
      obtain ⟨r, hr⟩ := ih (row :: seen) (List.nodup_cons.mpr ⟨hnew, hnodup⟩) h.to_new
      exact ⟨_, congrArg (Except.map _) hr⟩
    · rename_i prior hlookup
      obtain ⟨hprior, hkey⟩ := lookup_seen_some hlookup
      have hpayload := h.payloads prior (by simp [hprior]) row (by simp) hkey
      rw [if_neg (by simp [(sameImmutable_iff prior row).mpr hpayload])]
      obtain ⟨r, hr⟩ := ih seen hnodup h.tail
      exact ⟨_, congrArg (Except.map _) hr⟩

theorem dedupeRows_ok {result : List PyRow} {duplicates : Nat}
    (h : dedupeRows rows = .ok (result, duplicates)) :
    Agrees [] rows ∧ result = firsts rowKey [] rows ∧ result.length + duplicates = rows.length :=
  dedupeLoop_ok [] (by simp) h

theorem dedupeRows_of_agrees (h : Agrees [] rows) :
    dedupeRows rows =
      .ok (firsts rowKey [] rows, rows.length - (firsts rowKey [] rows).length) := by
  obtain ⟨⟨result, duplicates⟩, hr⟩ := dedupeLoop_of_agrees [] (by simp) h
  have hr' : dedupeRows rows = .ok (result, duplicates) := hr
  obtain ⟨-, rfl, hlength⟩ := dedupeRows_ok hr'
  rw [hr', ← hlength, Nat.add_sub_cancel_left]

end EthereumLogs.DeltaWriter
