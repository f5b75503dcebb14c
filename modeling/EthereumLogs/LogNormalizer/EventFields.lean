import EthereumLogs.LogNormalizer

namespace EthereumLogs.LogNormalizer
open Python Effect

variable {rawLog : JsonObject} {ts : Int → Option Datetime} {chainId n : Int} {t : Instant}
  {event : LogEvent} {row : LogRow} {start stop ingested : Datetime}

theorem item_get {key : String} {v : Json} (h : rawLog.item key = .ok v) :
    rawLog.get key = some v := by
  unfold JsonObject.item at h
  split at h
  · cases h
    assumption
  · cases h

def HexField (rawLog : JsonObject) (key : String) (column : Text) : Prop :=
  ∃ v, rawLog.get key = some v ∧ requiredHex v.asStr = .ok column

structure TopicFields (rawLog : JsonObject) (event : LogEvent) (topics : List Json) : Prop where
  isList : topicsOf rawLog = .ok topics
  topic0 : topicOrNone topics 0 = .ok event.topic0
  topic1 : topicOrNone topics 1 = .ok event.topic1
  topic2 : topicOrNone topics 2 = .ok event.topic2
  topic3 : topicOrNone topics 3 = .ok event.topic3

structure FieldsFrom (rawLog : JsonObject) (event : LogEvent) : Prop where
  topics : ∃ topics, TopicFields rawLog event topics
  data : requiredHex ((rawLog.get "data").getD (.str ['0', 'x'])).asStr = .ok event.dataRaw
  decoded : decodeUint256DataRaw (some event.dataRaw) =
    .ok ⟨event.dataUint256DecimalText, event.dataUint256DecodeStatus⟩
  blockHash : HexField rawLog "blockHash" event.blockHash
  transactionHash : HexField rawLog "transactionHash" event.transactionHash
  logIndex : ∃ v, rawLog.get "logIndex" = some v ∧ hexQuantityToInt v.asStr = .ok event.logIndex
  contractAddress : HexField rawLog "address" event.contractAddress

theorem eventFields_from (h : eventFields rawLog chainId n t = .ok event) :
    FieldsFrom rawLog event := by
  obtain ⟨topics, htopics, h⟩ := except_bind_ok h
  obtain ⟨topic0, h0, h⟩ := except_bind_ok h
  obtain ⟨topic1, h1, h⟩ := except_bind_ok h
  obtain ⟨topic2, h2, h⟩ := except_bind_ok h
  obtain ⟨topic3, h3, h⟩ := except_bind_ok h
  obtain ⟨dataRaw, hdata, h⟩ := except_bind_ok h
  obtain ⟨decoded, hdecoded, h⟩ := except_bind_ok h
  obtain ⟨v, hv, h⟩ := except_bind_ok h
  obtain ⟨blockHash, hblock, h⟩ := except_bind_ok h
  obtain ⟨v', hv', h⟩ := except_bind_ok h
  obtain ⟨transactionHash, htransaction, h⟩ := except_bind_ok h
  obtain ⟨transactionIndex, -, h⟩ := except_bind_ok h
  obtain ⟨i, hi, h⟩ := except_bind_ok h
  obtain ⟨logIndex, hindex, h⟩ := except_bind_ok h
  obtain ⟨v'', hv'', h⟩ := except_bind_ok h
  obtain ⟨address, haddress, h⟩ := except_bind_ok h
  cases h
  exact ⟨⟨topics, htopics, h0, h1, h2, h3⟩, hdata, hdecoded, ⟨v, item_get hv, hblock⟩,
    ⟨v', item_get hv', htransaction⟩, ⟨i, item_get hi, hindex⟩, ⟨v'', item_get hv'', haddress⟩⟩

theorem normalizeEvent_fields (h : normalizeEvent rawLog ts chainId = .ok event) :
    FieldsFrom rawLog event := by
  obtain ⟨_, -, h⟩ := except_bind_ok h
  obtain ⟨_, -, h⟩ := except_bind_ok h
  obtain ⟨_, -, h⟩ := except_bind_ok h
  exact eventFields_from h

theorem normalizeLog_event (h : normalizeLog rawLog ts chainId start stop ingested = .ok row) :
    normalizeEvent rawLog ts chainId = .ok row.toLogEvent := by
  obtain ⟨event, hevent, h⟩ := except_bind_ok h
  obtain ⟨_, -, h⟩ := except_bind_ok h
  obtain ⟨_, -, h⟩ := except_bind_ok h
  obtain ⟨_, -, h⟩ := except_bind_ok h
  cases h
  exact hevent

theorem normalizeLog_fields (h : normalizeLog rawLog ts chainId start stop ingested = .ok row) :
    FieldsFrom rawLog row.toLogEvent := normalizeEvent_fields (normalizeLog_event h)

end EthereumLogs.LogNormalizer
