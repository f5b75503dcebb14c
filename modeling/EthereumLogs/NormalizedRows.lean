import EthereumLogs.DeltaWriter.Contract
import EthereumLogs.LogNormalizer.EventFields

namespace EthereumLogs.LogNormalizer
open Python Effect

variable {rawLog : JsonObject} {ts ts' : Int → Option Datetime} {chainId n : Int} {t : Instant}
  {event : LogEvent} {row : LogRow}

theorem eventFields_block (h : eventFields rawLog chainId n t = .ok event) :
    event.chainId = chainId ∧ event.blockNumber = n ∧ event.blockTimestampUtc = t := by
  unfold eventFields at h
  repeat obtain ⟨_, -, h⟩ := except_bind_ok h
  cases h
  exact ⟨rfl, rfl, rfl⟩

theorem hexQuantityToInt_ok {v : Json} (h : hexQuantityToInt v.asStr = .ok n) :
    ∃ s, v.asStr = some s ∧ int16 s = .ok n := by
  unfold hexQuantityToInt at h
  split at h
  · rename_i s hs
    split at h
    · exact ⟨s, hs, h⟩
    · cases h
  · cases h

theorem requiredHex_lowered {v : Option Text} {hex : Text} (h : requiredHex v = .ok hex) :
    lower hex = hex := by
  unfold requiredHex at h
  split at h
  · split at h
    · obtain ⟨_, -, rfl⟩ := except_map_ok h
      exact lower_lower _
    · cases h
  · cases h

structure NormalizedFrom (rawLog : JsonObject) (ts : Int → Option Datetime) (chainId : Int)
    (event : LogEvent) : Prop where
  blockNumber : ∃ v s, rawLog.get "blockNumber" = some v ∧ v.asStr = some s ∧
    int16 s = .ok event.blockNumber
  timestamp : blockTimestampOf ts event.blockNumber = .ok event.blockTimestampUtc
  sameChain : event.chainId = chainId
  lowered : lower event.transactionHash = event.transactionHash

theorem normalizeEvent_from (h : normalizeEvent rawLog ts chainId = .ok event) :
    NormalizedFrom rawLog ts chainId event := by
  obtain ⟨v, hv, h⟩ := except_bind_ok h
  obtain ⟨n, hn, h⟩ := except_bind_ok h
  obtain ⟨t, ht, h⟩ := except_bind_ok h
  obtain ⟨_, -, hhash⟩ := (eventFields_from h).transactionHash
  obtain ⟨hchain, rfl, rfl⟩ := eventFields_block h
  obtain ⟨s, hs, hint⟩ := hexQuantityToInt_ok hn
  exact ⟨⟨v, s, item_get hv, hs, hint⟩, ht, hchain, requiredHex_lowered hhash⟩

theorem normalizeEvent_congr (h : normalizeEvent rawLog ts chainId = .ok event)
    (hts : ts' event.blockNumber = ts event.blockNumber) :
    normalizeEvent rawLog ts' chainId = .ok event := by
  obtain ⟨v, hv, h⟩ := except_bind_ok h
  obtain ⟨n, hn, h⟩ := except_bind_ok h
  obtain ⟨t, ht, h⟩ := except_bind_ok h
  obtain ⟨-, rfl, -⟩ := eventFields_block h
  have ht' : blockTimestampOf ts' event.blockNumber = .ok t := by
    rw [blockTimestampOf] at ht ⊢
    rwa [hts]
  rw [normalizeEvent]
  rw [hv]
  change (hexQuantityToInt v.asStr >>= _) = _
  rw [hn]
  change (blockTimestampOf ts' event.blockNumber >>= _) = _
  rw [ht']
  exact h

def retimed (event : LogEvent) (t : Instant) : LogEvent :=
  { event with blockTimestampUtc := t, blockDateUtc := dateOf t }

theorem eventFields_retimed (t t' : Instant) : eventFields rawLog chainId n t' =
    (fun event => retimed event t') <$> eventFields rawLog chainId n t := by
  simp only [eventFields, map_bind, map_pure]
  rfl

theorem normalizeEvent_retimed {t : Instant} (h : normalizeEvent rawLog ts chainId = .ok event)
    (ht : blockTimestampOf ts' event.blockNumber = .ok t) :
    normalizeEvent rawLog ts' chainId = .ok (retimed event t) := by
  obtain ⟨v, hv, h⟩ := except_bind_ok h
  obtain ⟨n, hn, h⟩ := except_bind_ok h
  obtain ⟨t', -, h⟩ := except_bind_ok h
  obtain ⟨-, rfl, -⟩ := eventFields_block h
  rw [normalizeEvent]
  rw [hv]
  change (hexQuantityToInt v.asStr >>= _) = _
  rw [hn]
  change (blockTimestampOf ts' event.blockNumber >>= _) = _
  rw [ht]
  change eventFields rawLog chainId event.blockNumber t = _
  rw [eventFields_retimed t' t, h]
  rfl

theorem normalizeLog_eq (rawLog : JsonObject) (ts : Int → Option Datetime) (chainId : Int)
    (start stop now : Instant) :
    normalizeLog rawLog ts chainId (.utc start) (.utc stop) (.utc now) =
      (normalizeEvent rawLog ts chainId).map fun event => ⟨event, start, stop, now⟩ := by
  rw [normalizeLog]
  cases normalizeEvent rawLog ts chainId with
  | error e => rfl
  | ok event =>
    simp only [ensureUtc, astimezone_utc]
    rfl

theorem normalizeLog_ok {start stop now : Instant}
    (h : normalizeLog rawLog ts chainId (.utc start) (.utc stop) (.utc now) = .ok row) :
    normalizeEvent rawLog ts chainId = .ok row.toLogEvent ∧ row.intervalStartUtc = start ∧
      row.intervalEndUtc = stop ∧ row.ingestedAtUtc = now := by
  rw [normalizeLog_eq] at h
  obtain ⟨event, hevent, rfl⟩ := except_map_ok h
  exact ⟨hevent, rfl, rfl, rfl⟩

theorem normalizeEach_all {normalize : JsonObject → Except Exc LogRow} {rawLogs : List JsonObject}
    {result : NormalizationResult} (h : normalizeEach normalize rawLogs = .ok result)
    (hvalid : result.invalidLogCount = 0) :
    List.Forall₂ (fun rawLog row => normalize rawLog = .ok row) rawLogs result.rows := by
  induction rawLogs generalizing result with
  | nil =>
    cases h
    exact .nil
  | cons rawLog rawLogs ih =>
    rw [normalizeEach] at h
    cases hrow : normalize rawLog with
    | ok row =>
      rw [hrow] at h
      obtain ⟨rest, hrest, rfl⟩ := except_map_ok h
      exact .cons hrow (ih hrest hvalid)
    | error e =>
      rw [hrow] at h
      dsimp only at h
      split at h
      · obtain ⟨rest, hrest, rfl⟩ := except_map_ok h
        cases hvalid
      · cases h

end EthereumLogs.LogNormalizer

namespace EthereumLogs.DeltaWriter
open Python

theorem nullable_int64 {i j : Option Int}
    (h : nullable int64Column (.ofOptionalInt i) = some j) : i = j := by
  cases i with
  | none =>
    cases h
    rfl
  | some i =>
    change (int64Column (.int i)).map some = some j at h
    obtain ⟨k, hk, rfl⟩ := Option.map_eq_some_iff.mp h
    cases int64Column_eq hk
    rfl

theorem nullable_bool {b c : Option Bool} (h : nullable boolColumn (.ofOptionalBool b) = some c) :
    b = c := by
  cases b with
  | none =>
    cases h
    rfl
  | some b =>
    cases h
    rfl

theorem int64Column_int {i j : Int} (h : int64Column (.int i) = some j) : i = j := by
  cases int64Column_eq h
  rfl

theorem timestampColumn_utc {t u : Instant}
    (h : timestampColumn (.datetime (.utc t)) = some u) : t = u := by
  simpa [timestampColumn] using h

theorem arrowRow_toDict {row s : LogRow} (h : arrowRow row.toDict = some s) : s = row := by
  obtain ⟨h1, h2, h3, h4, h5, h6, h7, h8, h9, h10, h11, h12, h13, h14, h15, h16, h17, h18, h19,
    h20⟩ := arrowRow_columns h
  obtain ⟨⟨_, _, _, _, _, _, _, _, _, _, _, _, _, _, _, _, _⟩, _, _, _⟩ := s
  cases int64Column_int (i := row.chainId) h1
  cases int64Column_int (i := row.blockNumber) h2
  cases h3
  cases h4
  cases nullable_int64 (i := row.transactionIndex) h5
  cases int64Column_int (i := row.logIndex) h6
  cases h7
  cases nullable_ofOptionalText (t := row.topic0) h8
  cases nullable_ofOptionalText (t := row.topic1) h9
  cases nullable_ofOptionalText (t := row.topic2) h10
  cases nullable_ofOptionalText (t := row.topic3) h11
  cases h12
  cases nullable_ofOptionalText (t := row.dataUint256DecimalText) h13
  cases h14
  cases nullable_bool (b := row.removed) h15
  cases timestampColumn_utc (t := row.blockTimestampUtc) h16
  cases h17
  cases timestampColumn_utc (t := row.intervalStartUtc) h18
  cases timestampColumn_utc (t := row.intervalEndUtc) h19
  cases timestampColumn_utc (t := row.ingestedAtUtc) h20
  rfl

end EthereumLogs.DeltaWriter
