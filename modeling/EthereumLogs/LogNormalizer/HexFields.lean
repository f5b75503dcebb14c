import EthereumLogs.NormalizedRows
import EthereumLogs.LogNormalizer.Uint256
import EthereumLogs.Dbt.DecimalText

namespace EthereumLogs.LogNormalizer
open Python Effect

variable {s column : Text} {v : Option Text} {rawLog : JsonObject} {event : LogEvent}

-- '^0x[0-9a-fA-F]*$'
def isHexString (s : Text) : Bool := startsWith0x s && (s.drop 2).all isHexDigit

-- '^0x[0-9a-fA-F]+$'
def isHexQuantity (s : Text) : Bool := isHexString s && s.drop 2 ≠ []

structure WiderLiteral (s : Text) : Prop where
  prefixed : startsWith0x s = true
  notHex : isHexString s = false
  literal : BaseSixteenLiteral (s.drop 2) ∨ BaseSixteenLiteral s

structure AcceptsExactlyHex (s : Text) : Prop where
  required : (∃ hex, requiredHex (some s) = .ok hex) ↔ isHexString s = true
  quantity : (∃ n, hexQuantityToInt (some s) = .ok n) ↔ isHexQuantity s = true
  requiredRejects : ∀ e, requiredHex (some s) = .error e → e.isValueError = true
  quantityRejects : ∀ e, hexQuantityToInt (some s) = .error e → e.isValueError = true

theorem isHexString_iff :
    isHexString s = true ↔ startsWith0x s = true ∧ ∀ c ∈ s.drop 2, isHexDigit c = true := by
  rw [isHexString, Bool.and_eq_true, List.all_eq_true]

theorem startsWith0x_split (h : startsWith0x s = true) : s = '0' :: 'x' :: s.drop 2 := by
  obtain ⟨rest, rfl⟩ := List.isPrefixOf_iff_prefix.mp h
  rfl

theorem hexDigits_literal {cs : Text} (h : ∀ c ∈ cs, isHexDigit c = true) (hne : cs ≠ []) :
    BaseSixteenLiteral cs := int16_ok_iff.mp ⟨_, int16_hexDigits h hne⟩

theorem requiredHex_ok_iff : (∃ hex, requiredHex (some s) = .ok hex) ↔
    startsWith0x s = true ∧ (s.drop 2 = [] ∨ BaseSixteenLiteral (s.drop 2)) := by
  constructor
  · rintro ⟨hex, h⟩
    simp only [requiredHex] at h
    split at h
    · rename_i hstarts
      obtain ⟨n, hn, -⟩ := except_map_ok h
      refine ⟨hstarts, ?_⟩
      by_cases hnil : s.drop 2 = []
      · exact .inl hnil
      · rw [if_neg hnil] at hn
        exact .inr (int16_ok_iff.mp ⟨n, hn⟩)
    · cases h
  · rintro ⟨hstarts, hbody⟩
    have hint : ∃ n, int16 (if s.drop 2 = [] then ['0'] else s.drop 2) = .ok n := by
      by_cases hnil : s.drop 2 = []
      · rw [if_pos hnil]
        exact ⟨0, rfl⟩
      · rw [if_neg hnil]
        exact int16_ok_iff.mpr (hbody.resolve_left hnil)
    obtain ⟨n, hn⟩ := hint
    exact ⟨lower s, by simp only [requiredHex, hstarts, if_true, hn]; rfl⟩

theorem hexQuantityToInt_ok_iff : (∃ n, hexQuantityToInt (some s) = .ok n) ↔
    startsWith0x s = true ∧ BaseSixteenLiteral s := by
  rw [← int16_ok_iff]
  simp only [hexQuantityToInt]
  by_cases hstarts : startsWith0x s = true
  · simp [hstarts]
  · simp [hstarts]

theorem isHexQuantity_literal (h : isHexQuantity s = true) : BaseSixteenLiteral s := by
  rw [isHexQuantity, Bool.and_eq_true, isHexString_iff, decide_eq_true_eq] at h
  obtain ⟨⟨hstarts, hdigits⟩, hne⟩ := h
  rw [startsWith0x_split hstarts]
  exact int16_ok_iff.mp ⟨_, int16_prefixed hdigits hne⟩

theorem requiredHex_error {e : Exc} (h : requiredHex v = .error e) : e.isValueError = true := by
  unfold requiredHex at h
  split at h
  · rename_i text
    split at h
    · cases hint : int16 (if text.drop 2 = [] then ['0'] else text.drop 2) with
      | ok n =>
        rw [hint] at h
        cases h
      | error e' =>
        rw [hint] at h
        cases h
        cases int16_error hint
        rfl
    · cases h
      rfl
  · cases h
    rfl

theorem hexQuantityToInt_error {e : Exc} (h : hexQuantityToInt v = .error e) :
    e.isValueError = true := by
  unfold hexQuantityToInt at h
  split at h
  · split at h
    · cases int16_error h
      rfl
    · cases h
      rfl
  · cases h
    rfl

theorem not_literal_prefix : ¬ BaseSixteenLiteral ['0', 'x'] := by
  rw [← intBase16_isSome_iff]
  decide

theorem acceptsExactlyHex_iff : AcceptsExactlyHex s ↔ ¬ WiderLiteral s := by
  constructor
  · rintro ⟨hrequired, hquantity, -, -⟩ ⟨hstarts, hnot, hbody | hwhole⟩
    · have := hrequired.mp (requiredHex_ok_iff.mpr ⟨hstarts, .inr hbody⟩)
      simp [hnot] at this
    · have := hquantity.mp (hexQuantityToInt_ok_iff.mpr ⟨hstarts, hwhole⟩)
      simp [isHexQuantity, hnot] at this
  · intro h
    have hhex : startsWith0x s = true →
        BaseSixteenLiteral (s.drop 2) ∨ BaseSixteenLiteral s → isHexString s = true := by
      intro hstarts hliteral
      by_contra hnot
      exact h ⟨hstarts, by simpa using hnot, hliteral⟩
    refine ⟨?_, ?_, fun e => requiredHex_error, fun e => hexQuantityToInt_error⟩
    · rw [requiredHex_ok_iff]
      constructor
      · rintro ⟨hstarts, hnil | hbody⟩
        · rw [isHexString, hstarts, hnil]
          rfl
        · exact hhex hstarts (.inl hbody)
      · intro hs
        obtain ⟨hstarts, hdigits⟩ := isHexString_iff.mp hs
        refine ⟨hstarts, ?_⟩
        by_cases hnil : s.drop 2 = []
        · exact .inl hnil
        · exact .inr (hexDigits_literal hdigits hnil)
    · rw [hexQuantityToInt_ok_iff]
      constructor
      · rintro ⟨hstarts, hliteral⟩
        have hs := hhex hstarts (.inr hliteral)
        rw [isHexQuantity, hs, Bool.true_and, decide_eq_true_eq]
        intro hnil
        rw [startsWith0x_split hstarts, hnil] at hliteral
        exact not_literal_prefix hliteral
      · intro hs
        have hstarts : startsWith0x s = true := by
          simp only [isHexQuantity, isHexString, Bool.and_eq_true] at hs
          exact hs.1.1
        exact ⟨hstarts, isHexQuantity_literal hs⟩

section Rows

variable {row : LogRow} {topics : List Json} {topic : Option Text} {index : ℕ}

structure HexColumns (row : LogRow) : Prop where
  blockHash : isHexString row.blockHash = true
  transactionHash : isHexString row.transactionHash = true
  contractAddress : isHexString row.contractAddress = true
  topics : ∀ topic ∈ [row.topic0, row.topic1, row.topic2, row.topic3], ∀ t ∈ topic,
    isHexString t = true
  dataRaw : isHexString row.dataRaw = true
  word : row.dataUint256DecodeStatus ≠ uint256StatusNotUint256Word →
    Duckdb.matchesHexWord 64 row.dataRaw = true

def topicValues (rawLog : JsonObject) : List Json :=
  match topicsOf rawLog with
  | .ok topics => topics.take 4
  | .error _ => []

def hexTexts (rawLog : JsonObject) : List Text :=
  ([rawLog.get "blockHash", rawLog.get "transactionHash", rawLog.get "address",
    some ((rawLog.get "data").getD (.str ['0', 'x']))] ++ (topicValues rawLog).map some).filterMap
    fun value => value.bind Json.asStr

theorem isHexString_lower (hstarts : startsWith0x s = true) :
    isHexString (lower s) = isHexString s := by
  have hlowered : startsWith0x (lower s) = true := by
    rw [startsWith0x_split hstarts]
    rfl
  have hdrop : (lower s).drop 2 = lower (s.drop 2) := List.map_drop.symm
  rw [Bool.eq_iff_iff, isHexString_iff, isHexString_iff, hdrop, all_hexDigits_lower]
  simp [hstarts, hlowered]

theorem requiredHex_eq (h : requiredHex (some s) = .ok column) :
    startsWith0x s = true ∧ column = lower s := by
  simp only [requiredHex] at h
  split at h
  · rename_i hstarts
    obtain ⟨-, -, rfl⟩ := except_map_ok h
    exact ⟨hstarts, rfl⟩
  · cases h

theorem column_hex_iff (h : requiredHex (some s) = .ok column) :
    isHexString column = true ↔ ¬ WiderLiteral s := by
  obtain ⟨hstarts, rfl⟩ := requiredHex_eq h
  rw [isHexString_lower hstarts]
  constructor
  · rintro hs ⟨-, hnot, -⟩
    simp [hs] at hnot
  · intro hplain
    obtain ⟨-, hnil | hbody⟩ := requiredHex_ok_iff.mp ⟨_, h⟩
    · rw [isHexString, hstarts, hnil]
      rfl
    · by_contra hnot
      exact hplain ⟨hstarts, by simpa using hnot, .inl hbody⟩

def Plain (value : Option Json) : Prop := ∀ s, value.bind Json.asStr = some s → ¬ WiderLiteral s

theorem asStr_of_requiredHex {value : Json} (h : requiredHex value.asStr = .ok column) :
    ∃ s, value.asStr = some s ∧ requiredHex (some s) = .ok column := by
  cases hs : value.asStr with
  | none =>
    rw [hs] at h
    cases h
  | some s => exact ⟨s, rfl, hs ▸ h⟩

theorem plain_iff {value : Json} (h : requiredHex value.asStr = .ok column) :
    Plain (some value) ↔ isHexString column = true := by
  obtain ⟨s, hs, hok⟩ := asStr_of_requiredHex h
  rw [column_hex_iff hok]
  simp [Plain, hs]

theorem hexField_plain_iff {key : String} (h : HexField rawLog key column) :
    Plain (rawLog.get key) ↔ isHexString column = true := by
  obtain ⟨value, hvalue, hok⟩ := h
  rw [hvalue]
  exact plain_iff hok

theorem topic_plain_iff (h : topicOrNone topics index = .ok topic) :
    Plain topics[index]? ↔ ∀ t ∈ topic, isHexString t = true := by
  unfold topicOrNone at h
  split at h
  · rename_i hnone
    cases h
    simp [Plain, hnone]
  · rename_i hnull
    cases h
    simp [Plain, hnull, Json.asStr]
  · rename_i value _ hvalue
    obtain ⟨t, ht, rfl⟩ := except_map_ok h
    rw [hvalue, plain_iff ht]
    simp

theorem hexTexts_plain_iff (htopics : topicsOf rawLog = .ok topics) :
    (∀ s ∈ hexTexts rawLog, ¬ WiderLiteral s) ↔
      Plain (rawLog.get "blockHash") ∧ Plain (rawLog.get "transactionHash") ∧
        Plain (rawLog.get "address") ∧ Plain (some ((rawLog.get "data").getD (.str ['0', 'x']))) ∧
        Plain topics[0]? ∧ Plain topics[1]? ∧ Plain topics[2]? ∧ Plain topics[3]? := by
  have hvalues : ∀ values : List (Option Json),
      (∀ s ∈ values.filterMap (fun value => value.bind Json.asStr), ¬ WiderLiteral s) ↔
        ∀ value ∈ values, Plain value := by
    intro values
    simp only [List.mem_filterMap, Plain]
    exact ⟨fun h value hvalue s hs => h s ⟨value, hvalue, hs⟩,
      fun h s ⟨value, hvalue, hs⟩ => h value hvalue s hs⟩
  have htaken : (∀ value ∈ (topics.take 4).map some, Plain value) ↔
      Plain topics[0]? ∧ Plain topics[1]? ∧ Plain topics[2]? ∧ Plain topics[3]? := by
    have hnone : Plain none := by simp [Plain]
    rcases topics with _ | ⟨a, _ | ⟨b, _ | ⟨c, _ | ⟨d, rest⟩⟩⟩⟩ <;> simp [hnone]
  rw [hexTexts, hvalues, topicValues, htopics, ← htaken]
  simp only [List.forall_mem_append, List.forall_mem_cons, List.not_mem_nil, false_implies,
    implies_true, and_true, and_assoc]

theorem decode_word_length {decoded : Uint256DecodeResult}
    (h : decodeUint256DataRaw (some s) = .ok decoded) (hlower : lower s = s)
    (hword : decoded.status ≠ uint256StatusNotUint256Word) : s.length = 66 := by
  obtain ⟨hex, hhex, h⟩ := except_bind_ok h
  obtain ⟨-, rfl⟩ := requiredHex_eq hhex
  rw [hlower] at h
  split at h
  · rename_i hisWord
    rw [isUint256Word] at hisWord
    rw [hlower] at hhex
    rw [hhex] at hisWord
    exact of_decide_eq_true hisWord
  · cases h
    exact absurd rfl hword

theorem isLowerHexDigit_of_lowered {c : Char} (h : isHexDigit c = true) (hlower : c.toLower = c) :
    Duckdb.isLowerHexDigit c = true := by
  obtain ⟨d, hd⟩ := Option.isSome_iff_exists.mp h
  have hcode := (hexDigit_code hd).code
  have hnat := congrArg Char.toNat hlower
  rw [toNat_toLower] at hnat
  simp only [Duckdb.isLowerHexDigit, Duckdb.isDigit, Bool.or_eq_true, Bool.and_eq_true,
    decide_eq_true_eq, char_le_iff, Char.reduceToNat]
  split_ifs at hnat <;> omega

theorem matchesHexWord_of_hex (hs : isHexString s = true) (hlower : lower s = s)
    (hlength : s.length = 66) : Duckdb.matchesHexWord 64 s = true := by
  obtain ⟨hstarts, hdigits⟩ := isHexString_iff.mp hs
  have hchars : ∀ c ∈ s, c.toLower = c := by
    exact List.map_inj_left.mp (hlower.trans (List.map_id s).symm)
  rw [Duckdb.matchesHexWord, hstarts, Bool.true_and, Bool.and_eq_true, List.all_eq_true]
  refine ⟨by simp [hlength], ?_⟩
  intro c hc
  exact isLowerHexDigit_of_lowered (hdigits c hc) (hchars c (List.mem_of_mem_drop hc))

theorem hexColumns_iff (h : FieldsFrom rawLog row.toLogEvent) :
    HexColumns row ↔ ∀ s ∈ hexTexts rawLog, ¬ WiderLiteral s := by
  obtain ⟨topics, htopics⟩ := h.topics
  rw [hexTexts_plain_iff htopics.isList, hexField_plain_iff h.blockHash,
    hexField_plain_iff h.transactionHash, hexField_plain_iff h.contractAddress, plain_iff h.data,
    topic_plain_iff htopics.topic0, topic_plain_iff htopics.topic1, topic_plain_iff htopics.topic2,
    topic_plain_iff htopics.topic3]
  constructor
  · rintro ⟨hblock, htransaction, haddress, htopic, hdata, -⟩
    exact ⟨hblock, htransaction, haddress, hdata, htopic _ (by simp), htopic _ (by simp),
      htopic _ (by simp), htopic _ (by simp)⟩
  · rintro ⟨hblock, htransaction, haddress, hdata, h0, h1, h2, h3⟩
    refine ⟨hblock, htransaction, haddress, ?_, hdata, ?_⟩
    · simp only [List.forall_mem_cons, List.not_mem_nil, false_implies, implies_true, and_true]
      exact ⟨h0, h1, h2, h3⟩
    · intro hword
      have hlower := requiredHex_lowered h.data
      exact matchesHexWord_of_hex hdata hlower (decode_word_length h.decoded hlower hword)

end Rows

theorem hex_validators_exact_iff (s : Text) (rawLog : JsonObject)
    (blockTimestampsUtc : Int → Option Datetime) (chainId : Int)
    (intervalStartUtc intervalEndUtc ingestedAtUtc : Datetime) :
    (AcceptsExactlyHex s ↔ ¬ WiderLiteral s) ∧
      ∀ row, normalizeLog rawLog blockTimestampsUtc chainId intervalStartUtc intervalEndUtc
          ingestedAtUtc = .ok row →
        (HexColumns row ↔ ∀ text ∈ hexTexts rawLog, ¬ WiderLiteral text) :=
  ⟨acceptsExactlyHex_iff, fun _ h => hexColumns_iff (normalizeLog_fields h)⟩

def underscoredWord : Text := "0x0_".toList ++ List.replicate 61 '0' ++ ['1']

def underscoredLog : JsonObject :=
  [("blockNumber", .str "0x1".toList), ("blockHash", .str "0xB1".toList),
   ("transactionHash", .str "0xAA".toList), ("logIndex", .str "0x0".toList),
   ("address", .str "0xCC".toList), ("data", .str underscoredWord)]

def normalizeUnderscoredLog : Except Exc LogRow :=
  normalizeLog underscoredLog (fun _ => some (.utc 0)) 1 (.utc 0) (.utc 3600000000) (.utc 0)

theorem hex_validators_exact_iff_underscored : ¬ AcceptsExactlyHex underscoredWord ∧
    ∃ row, normalizeUnderscoredLog = .ok row ∧ ¬ HexColumns row := by
  have hwider : WiderLiteral underscoredWord :=
    ⟨by decide, by decide, .inl (intBase16_isSome_iff.mp (by decide +kernel))⟩
  have hok : normalizeUnderscoredLog.isOk = true := by decide +kernel
  cases hrow : normalizeUnderscoredLog with
  | error e =>
    rw [hrow] at hok
    cases hok
  | ok row =>
    obtain ⟨haccepts, hcolumns⟩ := hex_validators_exact_iff underscoredWord underscoredLog
      (fun _ => some (.utc 0)) 1 (.utc 0) (.utc 3600000000) (.utc 0)
    refine ⟨fun h => haccepts.mp h hwider, row, rfl, fun h => ?_⟩
    have htext : underscoredWord ∈ hexTexts underscoredLog := by decide
    exact (hcolumns row hrow).mp h underscoredWord htext hwider

theorem required_hex_reads_underscores : ¬ AcceptsExactlyHex "0x1_0".toList ∧
    decodeUint256DataRaw (some underscoredWord) = .ok ⟨some ['1'], uint256StatusDecimal38Available⟩ ∧
    Duckdb.matchesHexWord 64 underscoredWord = false := by
  refine ⟨fun h => ?_, by decide +kernel, by decide⟩
  have hok : requiredHex (some "0x1_0".toList) = .ok "0x1_0".toList := by decide
  have hhex : isHexString "0x1_0".toList = true := h.required.mp ⟨_, hok⟩
  revert hhex
  decide

end EthereumLogs.LogNormalizer
