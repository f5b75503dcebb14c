import EthereumLogs.DeltaWriter.Store
import EthereumLogs.LogNormalizer.Spelling

namespace EthereumLogs.DeltaWriter
open Python Effect Keyed LogNormalizer

variable {rows rows' : List PyRow} {prior row : PyRow} {faults : StoreFaults}
  {table : Option DeltaTable} {stored : List LogRow} {r r' : LogRow}

structure SameKeyAndPayload (prior row : PyRow) : Prop where
  hashable : keyIsHashable row = true
  key : rowKey prior = rowKey row
  payload : payload prior = payload row

theorem Agrees.represented (h : Agrees [] rows)
    (hrows : ∀ row ∈ rows', ∃ prior ∈ rows, SameKeyAndPayload prior row) : Agrees [] rows' := by
  constructor
  · intro row hrow
    obtain ⟨prior, -, hsame⟩ := hrows row hrow
    exact hsame.hashable
  · intro x hx y hy he
    rw [List.nil_append] at hx
    obtain ⟨priorX, hpriorX, hsameX⟩ := hrows x hx
    obtain ⟨priorY, hpriorY, hsameY⟩ := hrows y hy
    have hkey : rowKey priorX = rowKey priorY := by rw [hsameX.key, hsameY.key, he]
    have hpayload := h.payloads priorX (by simpa using hpriorX) priorY hpriorY hkey
    rw [← hsameX.payload, ← hsameY.payload, hpayload]

theorem dedupeRows_merges {before after unique : List PyRow} {duplicates : ℕ}
    (hprior : prior ∈ before) (hsame : SameKeyAndPayload prior row)
    (h : dedupeRows (before ++ after) = .ok (unique, duplicates)) :
    dedupeRows (before ++ row :: after) = .ok (unique, duplicates + 1) := by
  obtain ⟨hagrees, rfl, hlength⟩ := dedupeRows_ok h
  have hself : ∀ x ∈ before ++ after, SameKeyAndPayload x x :=
    fun x hx => ⟨hagrees.hashable x hx, rfl, rfl⟩
  have hagrees' : Agrees [] (before ++ row :: after) := by
    refine hagrees.represented fun x hx => ?_
    rcases List.mem_append.mp hx with hx | hx
    · exact ⟨x, by simp [hx], hself x (by simp [hx])⟩
    · rcases List.mem_cons.mp hx with rfl | hx
      · exact ⟨prior, by simp [hprior], hsame⟩
      · exact ⟨x, by simp [hx], hself x (by simp [hx])⟩
  have hseen : rowKey row ∈ [] ++ (firsts rowKey [] before).map rowKey := by
    rcases key_mem_firsts rowKey [] before hprior with hnil | hmem
    · cases hnil
    · rwa [List.nil_append, ← hsame.key]
  have hfirsts : firsts rowKey [] (before ++ row :: after) = firsts rowKey [] (before ++ after) := by
    rw [firsts_append, firsts_append, firsts, if_pos hseen]
  rw [dedupeRows_of_agrees hagrees', hfirsts]
  simp only [List.length_append, List.length_cons] at hlength ⊢
  have hcount : before.length + (after.length + 1) - (firsts rowKey [] (before ++ after)).length =
      duplicates + 1 := by omega
  rw [hcount]

theorem Accepted.respelled (h : Accepted faults rows table stored)
    (hrows : ∀ row ∈ rows', ∃ prior ∈ rows, SameKeyAndPayload prior row)
    (hvalid : ∀ row ∈ rows', ValidRow row) :
    Accepted noFaults rows' (some (committed table stored)) stored ∧
      newRows (some (committed table stored)) rows' = [] := by
  have hnil : newRows (some (committed table stored)) rows' = [] := by
    apply firsts_eq_nil
    intro row hrow
    obtain ⟨prior, hprior, hsame⟩ := hrows row hrow
    exact hsame.key ▸ key_mem_ingest arrowRow_key h.ingested hprior
  refine ⟨⟨rfl, rfl, hvalid, h.agrees.represented hrows, existingRows_committed h.opened stored, ?_,
    .inl rfl⟩, hnil⟩
  refine ingest_eq_some_iff.mpr ⟨[], ?_, (List.append_nil stored).symm⟩
  change (newRows (some (committed table stored)) rows').mapM arrowRow = _
  rw [hnil]
  rfl

structure SameLog (r r' : LogRow) : Prop where
  event : r'.toLogEvent = r.toLogEvent
  start : r'.intervalStartUtc = r.intervalStartUtc
  stop : r'.intervalEndUtc = r.intervalEndUtc

theorem SameLog.reingested (h : SameLog r r') : r' = { r with ingestedAtUtc := r'.ingestedAtUtc } := by
  obtain ⟨event, start, stop, ingested⟩ := r
  obtain ⟨event', start', stop', ingested'⟩ := r'
  obtain ⟨rfl, rfl, rfl⟩ := h
  rfl

theorem SameLog.keyAndPayload (h : SameLog r r') : SameKeyAndPayload r.toDict r'.toDict := by
  rw [h.reingested]
  exact ⟨rfl, rfl, rfl⟩

theorem SameLog.valid (h : SameLog r r') (hvalid : ValidRow r.toDict) : ValidRow r'.toDict := by
  rw [h.reingested]
  obtain ⟨status, decoded, hcontract⟩ := hvalid.contract
  exact ⟨hvalid.complete, hvalid.exact, status, decoded, hcontract.isStatus, hcontract.known,
    hcontract.decodes, hcontract.sameText, hcontract.sameStatus, hcontract.range⟩

end EthereumLogs.DeltaWriter

namespace EthereumLogs.LogNormalizer
open Python Effect DeltaWriter

variable {as bs : List JsonObject} {f g : JsonObject → Except Exc LogRow}
  {result result' : NormalizationResult} {ts : Int → Option Datetime} {chainId : Int}
  {start stop : Datetime}

structure SameRows (result result' : NormalizationResult) : Prop where
  rows : List.Forall₂ SameLog result.rows result'.rows
  invalid : result.invalidLogCount = result'.invalidLogCount

theorem normalizeEach_alike (h : List.Forall₂ (fun a b => Alike SameLog (f a) (g b)) as bs) :
    Alike SameRows (normalizeEach f as) (normalizeEach g bs) := by
  induction h with
  | nil => exact .ok ⟨.nil, rfl⟩
  | @cons a b as bs hab _ ih =>
    rw [normalizeEach, normalizeEach]
    generalize f a = x at hab ⊢
    generalize g b = y at hab ⊢
    generalize normalizeEach f as = u at ih ⊢
    generalize normalizeEach g bs = v at ih ⊢
    cases hab with
    | ok hrow =>
      cases ih with
      | ok hrest => exact .ok ⟨.cons hrow hrest.rows, hrest.invalid⟩
      | error e => exact .error e
    | error e =>
      dsimp only
      split_ifs
      · cases ih with
        | ok hrest => exact .ok ⟨hrest.rows, congrArg (· + 1) hrest.invalid⟩
        | error e => exact .error e
      · exact .error e

theorem normalizeLog_alike {a b : JsonObject} (h : SameSpelling a b) (ts : Int → Option Datetime)
    (chainId : Int) (start stop now now' : Instant) :
    Alike SameLog (normalizeLog a ts chainId (.utc start) (.utc stop) (.utc now))
      (normalizeLog b ts chainId (.utc start) (.utc stop) (.utc now')) := by
  rw [normalizeLog_eq, normalizeLog_eq, h.normalizeEvent]
  cases normalizeEvent b ts chainId with
  | error e => exact .error e
  | ok event => exact .ok ⟨rfl, rfl, rfl⟩

theorem normalizeLogs_same {ingested ingested' : Option Datetime} {now now' : Instant}
    (h : List.Forall₂ SameSpelling as bs)
    (hok : normalizeLogs as ts chainId start stop ingested now = .ok result)
    (hok' : normalizeLogs bs ts chainId start stop ingested' now' = .ok result') :
    SameRows result result' := by
  obtain ⟨ingestedAt, -, hok⟩ := except_bind_ok hok
  obtain ⟨intervalStart, hstart, hok⟩ := except_bind_ok hok
  obtain ⟨intervalEnd, hstop, hok⟩ := except_bind_ok hok
  obtain ⟨ingestedAt', -, hok'⟩ := except_bind_ok hok'
  obtain ⟨intervalStart', hstart', hok'⟩ := except_bind_ok hok'
  obtain ⟨intervalEnd', hstop', hok'⟩ := except_bind_ok hok'
  rw [hstart, Except.ok.injEq] at hstart'
  rw [hstop, Except.ok.injEq] at hstop'
  subst hstart'
  subst hstop'
  have halike := normalizeEach_alike (h.imp fun a b hab =>
    normalizeLog_alike hab ts chainId intervalStart intervalEnd ingestedAt ingestedAt')
  rw [hok, hok'] at halike
  cases halike with
  | ok hsame => exact hsame

theorem normalizeLog_same {a b : JsonObject} {ingested ingested' : Datetime} {row row' : LogRow}
    (h : SameSpelling a b) (hok : normalizeLog a ts chainId start stop ingested = .ok row)
    (hok' : normalizeLog b ts chainId start stop ingested' = .ok row') : SameLog row row' := by
  obtain ⟨event, hevent, hok⟩ := except_bind_ok hok
  obtain ⟨intervalStart, hstart, hok⟩ := except_bind_ok hok
  obtain ⟨intervalEnd, hstop, hok⟩ := except_bind_ok hok
  obtain ⟨ingestedAt, -, hok⟩ := except_bind_ok hok
  obtain ⟨event', hevent', hok'⟩ := except_bind_ok hok'
  obtain ⟨intervalStart', hstart', hok'⟩ := except_bind_ok hok'
  obtain ⟨intervalEnd', hstop', hok'⟩ := except_bind_ok hok'
  obtain ⟨ingestedAt', -, hok'⟩ := except_bind_ok hok'
  rw [h.normalizeEvent, hevent', Except.ok.injEq] at hevent
  rw [hstart, Except.ok.injEq] at hstart'
  rw [hstop, Except.ok.injEq] at hstop'
  cases hok
  cases hok'
  exact ⟨hevent, hstart'.symm, hstop'.symm⟩

def rowsOf (result : NormalizationResult) : List PyRow := result.rows.map LogRow.toDict

structure SpellingIndependent (ts : Int → Option Datetime) (chainId : Int) (start stop : Datetime) :
    Prop where
  sameRow : ∀ (a b : JsonObject) (ingested : Datetime) (row : LogRow), SameSpelling a b →
    (normalizeLog a ts chainId start stop ingested = .ok row ↔
      normalizeLog b ts chainId start stop ingested = .ok row)
  merged : ∀ (a b : JsonObject) (ingested ingested' : Datetime) (row row' : LogRow),
    SameSpelling a b → normalizeLog a ts chainId start stop ingested = .ok row →
    normalizeLog b ts chainId start stop ingested' = .ok row' →
    rowKey row.toDict = rowKey row'.toDict ∧
      sameImmutableLogPayload row.toDict row'.toDict = true ∧
      ∀ before after unique duplicates, row.toDict ∈ before →
        dedupeRows (before ++ after) = .ok (unique, duplicates) →
        dedupeRows (before ++ row'.toDict :: after) = .ok (unique, duplicates + 1)
  replayed : ∀ (as bs : List JsonObject) (ingested ingested' : Option Datetime)
    (now now' : Instant) (result result' : NormalizationResult) (faults : StoreFaults)
    (table table' : Option DeltaTable) (written : DeltaWriteResult),
    List.Forall₂ SameSpelling as bs →
    normalizeLogs as ts chainId start stop ingested now = .ok result →
    normalizeLogs bs ts chainId start stop ingested' now' = .ok result' →
    writeEthereumLogsInsertOnly faults (rowsOf result) table = (.ok written, table') →
    writeEthereumLogsInsertOnly noFaults (rowsOf result') table' =
      (.ok ⟨0, (rowsOf result').length, written.rowCountAfter, written.rowCountAfter⟩, table')

theorem SameRows.mem (h : SameRows result result') {row' : PyRow} (hrow : row' ∈ rowsOf result') :
    ∃ row row'', row ∈ result.rows ∧ row''.toDict = row' ∧ SameLog row row'' := by
  obtain ⟨r', hr', rfl⟩ := List.mem_map.mp hrow
  obtain ⟨r, hr, hsame⟩ := Keyed.forall₂_right h.rows hr'
  exact ⟨r, r', hr, rfl, hsame⟩

theorem SameRows.replayed (h : SameRows result result') {faults : StoreFaults}
    {table table' : Option DeltaTable} {written : DeltaWriteResult}
    (hwrite : writeEthereumLogsInsertOnly faults (rowsOf result) table = (.ok written, table')) :
    writeEthereumLogsInsertOnly noFaults (rowsOf result') table' =
      (.ok ⟨0, (rowsOf result').length, written.rowCountAfter, written.rowCountAfter⟩, table') := by
  obtain ⟨stored, haccepted⟩ := accepted_of_ok (congrArg Prod.fst hwrite)
  rw [write_accepted haccepted, Prod.mk.injEq] at hwrite
  obtain ⟨hresult, rfl⟩ := hwrite
  have hvalid : ∀ row ∈ rowsOf result', ValidRow row := by
    intro row hrow
    obtain ⟨r, r', hr, rfl, hsame⟩ := h.mem hrow
    exact hsame.valid (haccepted.valid r.toDict (List.mem_map_of_mem hr))
  have hrows : ∀ row ∈ rowsOf result', ∃ prior ∈ rowsOf result, SameKeyAndPayload prior row := by
    intro row hrow
    obtain ⟨r, r', hr, rfl, hsame⟩ := h.mem hrow
    exact ⟨r.toDict, List.mem_map_of_mem hr, hsame.keyAndPayload⟩
  obtain ⟨hagain, hnil⟩ := haccepted.respelled hrows hvalid
  rw [write_nothing hagain hnil, writeResult_ok hresult]

theorem normalizeLog_spelling (ts : Int → Option Datetime) (chainId : Int) (start stop : Datetime) :
    SpellingIndependent ts chainId start stop := by
  constructor
  · intro a b ingested row h
    rw [h.normalizeLog]
  · intro a b ingested ingested' row row' h hok hok'
    have hsame := (normalizeLog_same h hok hok').keyAndPayload
    refine ⟨hsame.key, (sameImmutable_iff _ _).mpr hsame.payload, ?_⟩
    intro before after unique duplicates hbefore hdedupe
    exact dedupeRows_merges hbefore hsame hdedupe
  · intro as bs ingested ingested' now now' result result' faults table table' written h hok hok'
      hwrite
    exact (normalizeLogs_same h hok hok').replayed hwrite

end EthereumLogs.LogNormalizer
