import EthereumLogs.NormalizedRows

namespace EthereumLogs.LogNormalizer
open Python Effect

variable {α β : Type} {rawLog : JsonObject} {ts ts' : Int → Option Datetime} {chainId n : Int}

def RaisesPayload (x : Except Exc α) : Prop := ∀ e, x = .error e → isPayloadError e = true

theorem raises_ok (a : α) : RaisesPayload (.ok a) := by
  intro e h
  cases h

theorem raises_error {e : Exc} (h : isPayloadError e = true) :
    RaisesPayload (.error e : Except Exc α) := by
  intro e' he
  cases he
  exact h

theorem RaisesPayload.bind {x : Except Exc α} {f : α → Except Exc β} (hx : RaisesPayload x)
    (hf : ∀ a, RaisesPayload (f a)) : RaisesPayload (x >>= f) := by
  cases x with
  | error e => exact raises_error (hx e rfl)
  | ok a => exact hf a

theorem RaisesPayload.map {x : Except Exc α} (hx : RaisesPayload x) (f : α → β) :
    RaisesPayload (x.map f) := by
  cases x with
  | error e => exact raises_error (hx e rfl)
  | ok a => exact raises_ok _

theorem int16_raises (s : Text) : RaisesPayload (int16 s) := by
  rw [int16]
  split
  · exact raises_ok _
  · exact raises_error rfl

theorem hexQuantityToInt_raises (value : Option Text) : RaisesPayload (hexQuantityToInt value) := by
  unfold hexQuantityToInt
  split
  · split
    · exact int16_raises _
    · exact raises_error rfl
  · exact raises_error rfl

theorem optionalHexQuantity_raises (value : Json) : RaisesPayload (optionalHexQuantity value) := by
  unfold optionalHexQuantity
  split
  · exact raises_ok _
  · exact (hexQuantityToInt_raises _).map some

theorem requiredHex_raises (value : Option Text) : RaisesPayload (requiredHex value) := by
  unfold requiredHex
  split
  · split
    · exact (int16_raises _).map _
    · exact raises_error rfl
  · exact raises_error rfl

theorem item_raises (key : String) : RaisesPayload (rawLog.item key) := by
  rw [JsonObject.item]
  split
  · exact raises_ok _
  · exact raises_error rfl

theorem topicsOf_raises : RaisesPayload (topicsOf rawLog) := by
  rw [topicsOf]
  split
  · exact raises_ok _
  · exact raises_ok _
  · exact raises_error rfl

theorem topicOrNone_raises (topics : List Json) (index : ℕ) :
    RaisesPayload (topicOrNone topics index) := by
  rw [topicOrNone]
  split
  · exact raises_ok _
  · exact raises_ok _
  · exact (requiredHex_raises _).map some

theorem decodeUint256DataRaw_raises (dataRaw : Option Text) :
    RaisesPayload (decodeUint256DataRaw dataRaw) := by
  rw [decodeUint256DataRaw]
  refine (requiredHex_raises _).bind fun normalized => ?_
  split
  · exact (int16_raises _).bind fun _ => raises_ok _
  · exact raises_ok _

theorem ensureUtc_raises (t : Instant) (name : String) :
    RaisesPayload (ensureUtc (.utc t) name) := by
  rw [ensureUtc, astimezone_utc]
  exact raises_ok t

theorem blockTimestampOf_raises (times : Int → Option Instant) :
    RaisesPayload (blockTimestampOf (fun n => (times n).map Datetime.utc) n) := by
  rw [blockTimestampOf]
  cases times n with
  | none => exact raises_error rfl
  | some t => exact ensureUtc_raises t _

theorem eventFields_raises {t : Instant} : RaisesPayload (eventFields rawLog chainId n t) := by
  rw [eventFields]
  refine topicsOf_raises.bind fun topics => ?_
  refine (topicOrNone_raises _ _).bind fun _ => ?_
  refine (topicOrNone_raises _ _).bind fun _ => ?_
  refine (topicOrNone_raises _ _).bind fun _ => ?_
  refine (topicOrNone_raises _ _).bind fun _ => ?_
  refine (requiredHex_raises _).bind fun _ => ?_
  refine (decodeUint256DataRaw_raises _).bind fun _ => ?_
  refine (item_raises _).bind fun _ => (requiredHex_raises _).bind fun _ => ?_
  refine (item_raises _).bind fun _ => (requiredHex_raises _).bind fun _ => ?_
  refine (optionalHexQuantity_raises _).bind fun _ => ?_
  refine (item_raises _).bind fun _ => (hexQuantityToInt_raises _).bind fun _ => ?_
  refine (item_raises _).bind fun _ => (requiredHex_raises _).bind fun _ => ?_
  exact raises_ok _

theorem normalizeEvent_raises (times : Int → Option Instant) :
    RaisesPayload (normalizeEvent rawLog (fun n => (times n).map Datetime.utc) chainId) := by
  rw [normalizeEvent]
  refine (item_raises _).bind fun _ => (hexQuantityToInt_raises _).bind fun _ => ?_
  exact (blockTimestampOf_raises times).bind fun _ => eventFields_raises

theorem normalizeLog_raises (times : Int → Option Instant) (start stop now : Instant) :
    RaisesPayload (normalizeLog rawLog (fun n => (times n).map Datetime.utc) chainId (.utc start)
      (.utc stop) (.utc now)) := by
  rw [normalizeLog]
  refine (normalizeEvent_raises times).bind fun _ => (ensureUtc_raises _ _).bind fun _ => ?_
  exact (ensureUtc_raises _ _).bind fun _ => (ensureUtc_raises _ _).bind fun _ => raises_ok _

theorem normalizeEach_counted {normalize : JsonObject → Except Exc LogRow}
    (hraises : ∀ rawLog, RaisesPayload (normalize rawLog)) (rawLogs : List JsonObject) :
    ∃ rows, normalizeEach normalize rawLogs =
      .ok ⟨rows, rawLogs.countP fun rawLog => !(normalize rawLog).isOk⟩ := by
  induction rawLogs with
  | nil => exact ⟨[], rfl⟩
  | cons rawLog rawLogs ih =>
    obtain ⟨rows, hrows⟩ := ih
    rw [normalizeEach, hrows]
    rcases hrow : normalize rawLog with e | row
    · dsimp only
      rw [if_pos (hraises rawLog e hrow), List.countP_cons_of_pos (by rw [hrow]; rfl)]
      exact ⟨rows, rfl⟩
    · rw [List.countP_cons_of_neg (by simp [hrow, Except.isOk, Except.toBool])]
      exact ⟨row :: rows, rfl⟩

theorem normalizeEach_congr {normalize normalize' : JsonObject → Except Exc LogRow}
    {rawLogs : List JsonObject} (h : ∀ rawLog ∈ rawLogs, normalize rawLog = normalize' rawLog) :
    normalizeEach normalize rawLogs = normalizeEach normalize' rawLogs := by
  induction rawLogs with
  | nil => rfl
  | cons rawLog rawLogs ih =>
    rw [normalizeEach, normalizeEach, h rawLog (by simp),
      ih fun rawLog' hmem => h rawLog' (by simp [hmem])]

theorem normalizeEvent_agrees (hts : ∀ v text n, rawLog.get "blockNumber" = some v →
    v.asStr = some text → int16 text = .ok n → ts' n = ts n) :
    normalizeEvent rawLog ts' chainId = normalizeEvent rawLog ts chainId := by
  unfold normalizeEvent
  rcases hv : rawLog.item "blockNumber" with e | v
  · rfl
  · change (hexQuantityToInt v.asStr >>= _) = (hexQuantityToInt v.asStr >>= _)
    rcases hn : hexQuantityToInt v.asStr with e | n
    · rfl
    · obtain ⟨text, htext, hint⟩ := hexQuantityToInt_ok hn
      change (blockTimestampOf ts' n >>= _) = (blockTimestampOf ts n >>= _)
      unfold blockTimestampOf
      rw [hts v text n (item_get hv) htext hint]

end EthereumLogs.LogNormalizer
