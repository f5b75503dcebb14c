import EthereumLogs.Dbt.Checks
import EthereumLogs.LogNormalizer.Transfers
import EthereumLogs.Pipeline.HourlyTotals

namespace EthereumLogs.SmokeValidation
open Python Effect LogNormalizer Dbt

def truthy : Json → Bool
  | .null => false
  | .bool b => b
  | .int i => i ≠ 0
  | .float q => q ≠ 0
  | .str s => s ≠ []
  | .arr xs => !xs.isEmpty
  | .obj fields => !fields.isEmpty

-- other is str() of a value that is neither a string nor None
def pyStr (other : Json → Text) : Json → Text
  | .str s => s
  | .null => "None".toList
  | value => other value

def firstItem : Json → Except Exc Json
  | .arr (x :: _) => .ok x
  | .str (c :: _) => .ok (.str [c])
  | .obj _ => .error (.keyError "0")
  | _ => .error (.typeError "object is not subscriptable")

def isTransferLog (other : Json → Text) (log : JsonObject) : Except Exc Bool :=
  match log.get "topics" with
  | some topics =>
    if truthy topics then
      (firstItem topics).map fun topic => isErc20TransferTopic (some (pyStr other topic))
    else .ok false
  | none => .ok false

structure TransferSample where
  fromAddress : Option Text
  toAddress : Option Text
  rawAmount : Option Text
deriving DecidableEq, Repr

def addressAt (topics : List Json) (index : ℕ) : Except Exc (Option Text) :=
  match topics[index]? with
  | some topic => topicToAddress topic
  | none => .ok none

def sampleAmount (other : Json → Text) (log : JsonObject) : Except Exc (Option Text) :=
  let data := (log.get "data").getD .null
  if truthy data then (decodeUint256Decimal (pyStr other data)).map fun amount => some amount.str
  else .ok none

def decodeTransferSample (other : Json → Text) (log : JsonObject) :
    Except Exc (Option TransferSample) :=
  match (log.get "topics").getD (.arr []) with
  | .arr topics => do
    let fromAddress ← addressAt topics 1
    let toAddress ← addressAt topics 2
    let rawAmount ← sampleAmount other log
    pure (some { fromAddress, toAddress, rawAmount })
  | _ => .ok none

def touchesTreasury (log : JsonObject) : Except Exc Bool :=
  match (log.get "topics").getD (.arr []) with
  | .arr (_ :: fromTopic :: toTopic :: _) => do
    let fromAddress ← topicToAddress fromTopic
    let toAddress ← topicToAddress toTopic
    pure (some (lower tetherTreasuryAddress) ∈ [fromAddress, toAddress])
  | _ => .ok false

def countTreasurySamples : List JsonObject → Except Exc ℕ
  | [] => .ok 0
  | log :: logs => do
    let hit ← touchesTreasury log
    let count ← countTreasurySamples logs
    pure (if hit then count + 1 else count)

variable {vars : DbtVars} {other : Json → Text} {rawLog : JsonObject} {event : LogEvent} {row : LogRow}
  {topics : List Json} {topic : Option Text} {index : ℕ} {s column address : Text}

theorem isHexDigit_of_lower {c : Char} (h : Duckdb.isLowerHexDigit c = true) : isHexDigit c = true := by
  rw [Duckdb.isLowerHexDigit, Duckdb.isDigit, Bool.or_eq_true] at h
  rw [isHexDigit, hexDigit]
  rcases h with hdigit | hlower
  · rw [if_pos (by simpa using hdigit)]
    rfl
  · have hletter : 'a' ≤ c ∧ c ≤ 'f' := by simpa using hlower
    by_cases hdigit : '0' ≤ c ∧ c ≤ '9'
    · rw [if_pos hdigit]
      rfl
    · rw [if_neg hdigit, if_pos hletter]
      rfl

theorem matchesHexWord_lowered (hlower : lower s = s) :
    Duckdb.matchesHexWord 64 s = true ↔ isHexString s = true ∧ s.length = uint256WordHexLength := by
  constructor
  · intro h
    obtain ⟨body, rfl, hlength, hdigits⟩ := matchesHexWord_iff.mp h
    refine ⟨isHexString_iff.mpr ⟨rfl, fun c hc => isHexDigit_of_lower (hdigits c hc)⟩, ?_⟩
    rw [List.length_cons, List.length_cons, hlength]
    rfl
  · rintro ⟨hhex, hlength⟩
    exact matchesHexWord_of_hex hhex hlower hlength

theorem topicToAddress_str (h : requiredHex (some s) = .ok column) :
    topicToAddress (.str s) = if column.length ≠ uint256WordHexLength then
      .error (.valueError "indexed address topic must be 32 bytes.")
      else .ok (some ("0x".toList ++ column.drop (column.length - 40))) := by
  change (requiredHex (some s) >>= _) = _
  rw [h]
  rfl

-- a topic that is not plain hexadecimal is an address to the script and null to silver
theorem topicToAddress_agrees (h : requiredHex (some s) = .ok column) :
    decodeEthereumAddress (some (lower column)) = some address ↔
      topicToAddress (.str s) = .ok (some address) ∧ ¬ WiderLiteral s := by
  obtain ⟨hstarts, rfl⟩ := requiredHex_eq h
  have hlowers : lower (lower s) = lower s := lower_lower s
  have hcut : lower ("0x".toList ++ Duckdb.right (lower s) 40) =
      "0x".toList ++ (lower s).drop ((lower s).length - 40) := by
    have hdrop : lower ((lower s).drop ((lower s).length - 40)) =
        (lower (lower s)).drop ((lower s).length - 40) := List.map_drop
    rw [Duckdb.right, lower, List.map_append, ← lower, ← lower, hdrop, hlowers]
    rfl
  rw [topicToAddress_str h, ← column_hex_iff h, decodeEthereumAddress, hlowers, hlowers, hcut]
  by_cases hword : Duckdb.matchesHexWord 64 (lower s) = true
  · obtain ⟨hhex, hlength⟩ := (matchesHexWord_lowered hlowers).mp hword
    rw [if_pos hword, if_neg (not_not.mpr hlength), Option.some_inj, Except.ok.injEq, Option.some_inj]
    exact ⟨fun he => ⟨he, hhex⟩, And.left⟩
  · rw [if_neg hword]
    constructor
    · intro h
      cases h
    · rintro ⟨haddress, hhex⟩
      split_ifs at haddress with hlength
      exact absurd ((matchesHexWord_lowered hlowers).mpr ⟨hhex, not_not.mp hlength⟩) hword

theorem str_of_asStr {value : Json} (h : value.asStr = some s) : value = .str s := by
  cases value with
  | str text => exact congrArg Json.str (Option.some.inj h)
  | null => cases h
  | bool b => cases h
  | int i => cases h
  | float q => cases h
  | arr xs => cases h
  | obj fields => cases h

theorem topic_cases (h : topicOrNone topics index = .ok topic) :
    (topic = none ∧ (topics[index]? = none ∨ topics[index]? = some .null)) ∨
      ∃ s, topics[index]? = some (.str s) ∧ topic = some (lower s) ∧
        requiredHex (some s) = .ok (lower s) := by
  unfold topicOrNone at h
  split at h
  · rename_i hnone
    cases h
    exact .inl ⟨rfl, .inl hnone⟩
  · rename_i hnull
    cases h
    exact .inl ⟨rfl, .inr hnull⟩
  · rename_i value _ hvalue
    obtain ⟨column, hcolumn, rfl⟩ := except_map_ok h
    obtain ⟨s, hs, hok⟩ := asStr_of_requiredHex hcolumn
    obtain ⟨-, rfl⟩ := requiredHex_eq hok
    exact .inr ⟨s, str_of_asStr hs ▸ hvalue, rfl, hok⟩

theorem topic_lowered (h : topicOrNone topics index = .ok topic) : topic.map lower = topic := by
  rcases topic_cases h with ⟨rfl, -⟩ | ⟨s, -, rfl, -⟩
  · rfl
  · exact congrArg some (lower_lower s)

theorem addressAt_agrees (h : topicOrNone topics index = .ok topic) :
    decodeEthereumAddress (topic.map lower) = some address ↔
      addressAt topics index = .ok (some address) ∧ Plain topics[index]? := by
  rw [addressAt]
  rcases topic_cases h with ⟨rfl, hnone | hnull⟩ | ⟨s, hs, rfl, hok⟩
  · rw [hnone]
    simp [decodeEthereumAddress]
  · rw [hnull]
    simp [decodeEthereumAddress, topicToAddress]
  · rw [hs, Option.map_some, topicToAddress_agrees hok]
    simp [Plain, Json.asStr]

theorem isTransferLog_agrees (other : Json → Text) (h : topicsOf rawLog = .ok topics)
    (h0 : topicOrNone topics 0 = .ok topic) :
    isTransferLog other rawLog = .ok true ↔ topic = some transferTopic0 := by
  have hnone : "None".toList.map Char.toLower ≠ transferTopic0 := by decide
  unfold topicsOf at h
  unfold isTransferLog
  split at h
  · rename_i hmissing
    cases h
    cases h0
    simp [hmissing]
  · rename_i topics' hlist
    cases h
    rw [hlist]
    dsimp only
    cases topics with
    | nil =>
      cases h0
      simp [truthy]
    | cons t rest =>
      have htruthy : truthy (.arr (t :: rest)) = true := rfl
      rw [if_pos htruthy]
      change Except.ok (isErc20TransferTopic (some (pyStr other t))) = _ ↔ _
      rw [Except.ok.injEq, isErc20TransferTopic, decide_eq_true_eq]
      rcases topic_cases h0 with ⟨rfl, hmissing | hnull⟩ | ⟨s, hs, rfl, -⟩
      · cases hmissing
      · cases hnull
        simpa [pyStr, lower] using hnone
      · cases hs
        rfl
  · cases h

theorem decodeUint256Decimal_agrees {text : Text} {decoded : Uint256DecodeResult}
    (h : requiredHex (some s) = .ok (lower s))
    (hdecoded : decodeUint256DataRaw (some (lower s)) = .ok decoded) :
    (decodeUint256Decimal s).map (fun amount => some amount.str) = .ok (some text) ↔
      decoded.decimalText = some text := by
  obtain ⟨normalized, hnormalized, hdecoded⟩ := except_bind_ok hdecoded
  obtain ⟨-, rfl⟩ := requiredHex_eq hnormalized
  rw [lower_lower] at hdecoded
  have hint : decodeUint256Decimal s = (if isUint256Word (lower s) then int16 (lower s)
      else .error (.valueError "uint256 data must be exactly 32 bytes.")).map Decimal.ofInt := by
    rw [decodeUint256Decimal, decodeUint256Int, h]
    rfl
  rw [hint]
  by_cases hword : isUint256Word (lower s) = true
  · rw [if_pos hword] at hdecoded ⊢
    obtain ⟨n, hn, hdecoded⟩ := except_bind_ok hdecoded
    have hnonneg := int16_prefixed_nonneg (requiredHex_prefixed h) hn
    cases hdecoded
    rw [hn]
    simp [Except.map, Decimal.str_ofInt hnonneg]
  · rw [if_neg hword] at hdecoded ⊢
    cases hdecoded
    simp [Except.map]

theorem sampleAmount_agrees (other : Json → Text) (h : FieldsFrom rawLog event) {text : Text} :
    sampleAmount other rawLog = .ok (some text) ↔ event.dataUint256DecimalText = some text := by
  have hdecoded := h.decoded
  obtain ⟨s, hs, hok⟩ := asStr_of_requiredHex h.data
  obtain ⟨hstarts, hlower⟩ := requiredHex_eq hok
  rw [hlower] at hok hdecoded
  rw [sampleAmount]
  cases hdata : rawLog.get "data" with
  | none =>
    rw [hdata] at hs
    cases hs
    have hnot : decodeUint256DataRaw (some (lower ['0', 'x'])) = .ok notWord := by decide
    have htext : event.dataUint256DecimalText = none :=
      congrArg Uint256DecodeResult.decimalText (Except.ok.inj (hdecoded.symm.trans hnot))
    simp [truthy, htext]
  | some value =>
    rw [hdata] at hs
    obtain rfl : value = .str s := str_of_asStr hs
    have htruthy : truthy (.str s) = true := by
      rw [startsWith0x_split hstarts]
      rfl
    rw [Option.getD_some, if_pos htruthy]
    exact decodeUint256Decimal_agrees hok hdecoded

def sampleOf (transfer : Erc20Transfer) : TransferSample :=
  ⟨some transfer.fromAddress, some transfer.toAddress, transfer.rawAmountDecimalText⟩

theorem decodeTransfer_sample {log : LogRow} {sample : TransferSample} :
    (decodeTransfer vars log).map sampleOf = some sample ↔
      ∃ fromAddress toAddress, decodeEthereumAddress log.topic1 = some fromAddress ∧
        decodeEthereumAddress log.topic2 = some toAddress ∧
        sample = ⟨some fromAddress, some toAddress, log.dataUint256DecimalText⟩ := by
  rw [decodeTransfer]
  cases decodeEthereumAddress log.topic1 with
  | none => simp
  | some fromAddress =>
    cases decodeEthereumAddress log.topic2 with
    | none => simp
    | some toAddress => simp [sampleOf, eq_comm]

structure ReadsTransfer (other : Json → Text) (rawLog : JsonObject) (row : LogRow)
    (sample : TransferSample) : Prop where
  transferLog : isTransferLog other rawLog = .ok true
  sampled : decodeTransferSample other rawLog = .ok (some sample)
  complete : sample.fromAddress ≠ none ∧ sample.toAddress ≠ none ∧ sample.rawAmount ≠ none
  threeTopics : row.topic3 = none
  kept : row.removed ≠ some true
  plain : ∀ topics, topicsOf rawLog = .ok topics → Plain topics[1]? ∧ Plain topics[2]?

theorem decodeTransferSample_eq (other : Json → Text) (h : topicsOf rawLog = .ok topics) :
    decodeTransferSample other rawLog = (do
      let fromAddress ← addressAt topics 1
      let toAddress ← addressAt topics 2
      let rawAmount ← sampleAmount other rawLog
      pure (some { fromAddress, toAddress, rawAmount })) := by
  unfold topicsOf at h
  split at h
  · rename_i hmissing
    cases h
    rw [decodeTransferSample, hmissing]
    rfl
  · rename_i hlist
    cases h
    rw [decodeTransferSample, hlist]
    rfl
  · cases h

theorem wordStatus_iff (h : FieldsFrom rawLog event) :
    event.dataUint256DecodeStatus ∈
        [uint256StatusDecimal38Available, uint256StatusOutsideDecimal38Range] ↔
      event.dataUint256DecimalText ≠ none := by
  rcases decode_ok h.decoded with hnot | ⟨v, hword⟩
  · obtain ⟨htext, hstatus⟩ := Uint256DecodeResult.mk.inj hnot
    simp [htext, hstatus, word_statuses_ne.1.symm, word_statuses_ne.2.symm]
  · obtain ⟨htext, hstatus⟩ := Uint256DecodeResult.mk.inj hword
    rcases DeltaWriter.statusOf_cases v with ⟨-, h⟩ | ⟨-, h⟩
    · simp [htext, hstatus, h]
    · simp [htext, hstatus, h]

theorem hasTransferShape_iff {topics : List Json} (h : FieldsFrom rawLog row.toLogEvent)
    (htopics : TopicFields rawLog row.toLogEvent topics) :
    HasTransferShape (stagedLog row) ↔ row.topic0 = some transferTopic0 ∧ row.topic1 ≠ none ∧
      row.topic2 ≠ none ∧ row.topic3 = none ∧ row.dataUint256DecimalText ≠ none ∧
      row.removed ≠ some true := by
  have h0 : (stagedLog row).topic0 = row.topic0 := topic_lowered htopics.topic0
  have h1 : (stagedLog row).topic1 = row.topic1 := topic_lowered htopics.topic1
  have h2 : (stagedLog row).topic2 = row.topic2 := topic_lowered htopics.topic2
  have h3 : (stagedLog row).topic3 = row.topic3 := topic_lowered htopics.topic3
  have hremoved : row.removed.getD false = false ↔ row.removed ≠ some true := by
    cases row.removed with
    | none => simp
    | some b => simp
  have hstatus : (stagedLog row).dataUint256DecodeStatus = row.dataUint256DecodeStatus := rfl
  rw [HasTransferShape, h0, h1, h2, h3, hstatus, wordStatus_iff h, ← hremoved]
  rfl

section Sample

variable {sample : TransferSample} (hfields : FieldsFrom rawLog row.toLogEvent)
  (htopics : TopicFields rawLog row.toLogEvent topics)
include hfields htopics

theorem readsTransfer_of_silver (other : Json → Text)
    (h : (transferOf vars row).map sampleOf = some sample) : ReadsTransfer other rawLog row sample := by
  rw [transferOf] at h
  split_ifs at h with hstaged
  · obtain ⟨fromAddress, toAddress, hfrom, hto, rfl⟩ := decodeTransfer_sample.mp h
    obtain ⟨hfrom, hplain1⟩ := (addressAt_agrees htopics.topic1).mp hfrom
    obtain ⟨hto, hplain2⟩ := (addressAt_agrees htopics.topic2).mp hto
    obtain ⟨htopic0, -, -, hthree, hword, hkept⟩ := (hasTransferShape_iff hfields htopics).mp hstaged
    obtain ⟨text, htext⟩ := Option.ne_none_iff_exists'.mp hword
    have htransfer := isTransferLog_agrees other htopics.isList htopics.topic0
    refine ⟨htransfer.mpr htopic0, ?_, ⟨by simp, by simp, hword⟩, hthree, hkept, ?_⟩
    · rw [decodeTransferSample_eq other htopics.isList, hfrom, hto,
        (sampleAmount_agrees other hfields).mpr htext]
      exact congrArg (fun amount => Except.ok (some (TransferSample.mk _ _ amount))) htext.symm
    · intro topics' htopics'
      cases htopics.isList.symm.trans htopics'
      exact ⟨hplain1, hplain2⟩
  · cases h

theorem silver_of_readsTransfer (vars : DbtVars) (h : ReadsTransfer other rawLog row sample) :
    (transferOf vars row).map sampleOf = some sample := by
  obtain ⟨hlog, hsampled, ⟨hfrom, hto, hamount⟩, hthree, hkept, hplain⟩ := h
  rw [decodeTransferSample_eq other htopics.isList] at hsampled
  obtain ⟨fromAddress, hfromAt, hsampled⟩ := except_bind_ok hsampled
  obtain ⟨toAddress, htoAt, hsampled⟩ := except_bind_ok hsampled
  obtain ⟨rawAmount, hamountAt, hsampled⟩ := except_bind_ok hsampled
  cases hsampled
  obtain ⟨fromText, rfl⟩ := Option.ne_none_iff_exists'.mp hfrom
  obtain ⟨toText, rfl⟩ := Option.ne_none_iff_exists'.mp hto
  obtain ⟨amountText, rfl⟩ := Option.ne_none_iff_exists'.mp hamount
  obtain ⟨hplain1, hplain2⟩ := hplain topics htopics.isList
  have hfromRow := (addressAt_agrees htopics.topic1).mpr ⟨hfromAt, hplain1⟩
  have htoRow := (addressAt_agrees htopics.topic2).mpr ⟨htoAt, hplain2⟩
  have htext := (sampleAmount_agrees other hfields).mp hamountAt
  have htopic0 := (isTransferLog_agrees other htopics.isList htopics.topic0).mp hlog
  have hstaged : HasTransferShape (stagedLog row) := by
    refine (hasTransferShape_iff hfields htopics).mpr ⟨htopic0, ?_, ?_, hthree, by simp [htext], hkept⟩
    · intro hnone
      rw [hnone] at hfromRow
      cases hfromRow
    · intro hnone
      rw [hnone] at htoRow
      cases htoRow
  rw [transferOf, if_pos hstaged, decodeTransfer_sample]
  exact ⟨fromText, toText, hfromRow, htoRow, by rw [← htext]; rfl⟩

end Sample

theorem smoke_sample_agrees (vars : DbtVars) (other : Json → Text) (rawLog : JsonObject)
    (blockTimestampsUtc : Int → Option Datetime) (chainId : Int)
    (intervalStartUtc intervalEndUtc ingestedAtUtc : Datetime) (row : LogRow)
    (hrow : normalizeLog rawLog blockTimestampsUtc chainId intervalStartUtc intervalEndUtc
      ingestedAtUtc = .ok row) (sample : TransferSample) :
    (transferOf vars row).map sampleOf = some sample ↔ ReadsTransfer other rawLog row sample := by
  have hfields := normalizeLog_fields hrow
  obtain ⟨topics, htopics⟩ := hfields.topics
  exact ⟨readsTransfer_of_silver hfields htopics other, silver_of_readsTransfer hfields htopics vars⟩

def normalizedDeposit : Except Exc LogRow :=
  normalizeLog (Pipeline.depositLog 7) (fun _ => some (.utc 0)) 1 (.utc 0) (.utc microsPerHour) (.utc 0)

def depositSample : TransferSample :=
  ⟨some "0x00000000000000000000000000000000000000aa".toList, some tetherTreasuryAddress,
    some "1000000".toList⟩

theorem smoke_sample_agrees_deposit : ∃ row, normalizedDeposit = .ok row ∧
    ReadsTransfer (fun _ => []) (Pipeline.depositLog 7) row depositSample := by
  have hdecoded : (normalizedDeposit.toOption.bind fun row =>
      (transferOf Pipeline.projectVars row).map sampleOf) = some depositSample := by
    decide +kernel
  obtain ⟨row, hrow, htransfer⟩ := Option.bind_eq_some_iff.mp hdecoded
  cases hnormalized : normalizedDeposit with
  | error e =>
    rw [hnormalized] at hrow
    cases hrow
  | ok row' =>
    rw [hnormalized] at hrow
    cases hrow
    exact ⟨row, rfl, (smoke_sample_agrees Pipeline.projectVars (fun _ => []) (Pipeline.depositLog 7)
      (fun _ => some (.utc 0)) 1 (.utc 0) (.utc microsPerHour) (.utc 0) row hnormalized
      depositSample).mp htransfer⟩

end EthereumLogs.SmokeValidation
