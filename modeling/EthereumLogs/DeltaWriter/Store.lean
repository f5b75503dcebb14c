import EthereumLogs.DeltaWriter.Contract

namespace EthereumLogs.DeltaWriter
open Python Effect Keyed

variable {rows : List PyRow} {faults : StoreFaults} {table : Option DeltaTable}
  {stored : List LogRow}

def storedRows (table : Option DeltaTable) : List LogRow := (table.map DeltaTable.rows).getD []

def newRows (table : Option DeltaTable) (rows : List PyRow) : List PyRow :=
  newIn rowKey storedKey (storedRows table) rows

structure Accepted (faults : StoreFaults) (rows : List PyRow) (table : Option DeltaTable)
    (stored : List LogRow) : Prop where
  dependencies : loadDependencies faults = .ok ()
  directory : makeParent faults = .ok ()
  valid : ∀ row ∈ rows, ValidRow row
  agrees : Agrees [] rows
  opened : existingRows faults table = .ok (storedRows table)
  ingested : ingest arrowRow rowKey storedKey (storedRows table) rows = some stored
  written : faults.writing = false ∨ (newRows table rows = [] ∧ table.isSome)

def committed (table : Option DeltaTable) (stored : List LogRow) : DeltaTable :=
  ⟨(table.map DeltaTable.schema).getD ethereumLogsSchema, stored⟩

theorem arrowRow_key (row : PyRow) (s : LogRow) (h : arrowRow row = some s) :
    storedKey s = rowKey row := (arrowRow_converted h).key

theorem filter_unique (table : Option DeltaTable) (rows : List PyRow) :
    (firsts rowKey [] rows).filter (fun row => rowKey row ∉ (storedRows table).map storedKey) =
      newRows table rows := by
  have h := filter_firsts rowKey [] ((storedRows table).map storedKey) rows
  rw [List.append_nil] at h
  exact (List.filter_congr (by simp)).trans h

theorem existingRows_ok (h : existingRows faults table = .ok stored) :
    stored = storedRows table := by
  cases table with
  | none =>
    cases h
    rfl
  | some t =>
    simp only [existingRows] at h
    split at h
    · cases h
    · obtain ⟨-, -, rfl⟩ := except_map_ok h
      rfl

theorem append_committed (table : Option DeltaTable) (added : List LogRow) :
    append table added = committed table (storedRows table ++ added) := by
  cases table with
  | none => rfl
  | some t => rfl

theorem commitRows_accepted (h : Accepted faults rows table stored) :
    commitRows faults (newRows table rows) table = (.ok (), some (committed table stored)) := by
  obtain ⟨added, hadded, rfl⟩ := ingest_eq_some_iff.mp h.ingested
  rw [commitRows, Eff.get_bind]
  by_cases hskip : newRows table rows = [] ∧ table.isSome
  · obtain ⟨hnil, hsome⟩ := hskip
    obtain ⟨t, rfl⟩ := Option.isSome_iff_exists.mp hsome
    rw [← newRows, hnil, List.mapM_nil] at hadded
    cases hadded
    rw [if_pos ⟨hnil, hsome⟩, ← append_committed, append, List.append_nil]
    rfl
  · have hwrite : faults.writing = false := h.written.resolve_right hskip
    rw [← newRows] at hadded
    rw [if_neg hskip, hadded, hwrite, ← append_committed]
    rfl

def writeCounts (table : Option DeltaTable) (rows : List PyRow) : InsertCounts where
  inserted := (newRows table rows).length
  skipped := rows.length - (firsts rowKey [] rows).length +
    ((firsts rowKey [] rows).length - (newRows table rows).length)
  before := (storedRows table).length

theorem insertNewRows_accepted (h : Accepted faults rows table stored) :
    insertNewRows faults rows table =
      (.ok (writeCounts table rows), some (committed table stored)) := by
  have hvalid := (validateInputRows_ok_iff 0).mpr h.valid
  rw [insertNewRows, h.dependencies, Eff.ofExcept_ok_bind, h.directory, Eff.ofExcept_ok_bind, hvalid,
    Eff.ofExcept_ok_bind, dedupeRows_of_agrees h.agrees, Eff.ofExcept_ok_bind]
  dsimp only
  rw [Eff.get_bind, h.opened, Eff.ofExcept_ok_bind, filter_unique,
    Eff.bind_of_ok (commitRows_accepted h)]
  rfl

theorem commitRows_cases (insertRows : List PyRow) :
    (∃ added, insertRows.mapM arrowRow = some added ∧
        (faults.writing = false ∨ (insertRows = [] ∧ table.isSome))) ∨
      ∃ e, commitRows faults insertRows table = (.error e, table) := by
  rw [commitRows, Eff.get_bind]
  by_cases hskip : insertRows = [] ∧ table.isSome
  · exact .inl ⟨[], by rw [hskip.1]; rfl, .inr hskip⟩
  · rw [if_neg hskip]
    cases hadded : insertRows.mapM arrowRow with
    | none => exact .inr ⟨failedWrite, rfl⟩
    | some added =>
      cases hwrite : faults.writing with
      | true => exact .inr ⟨failedWrite, rfl⟩
      | false => exact .inl ⟨added, rfl, .inl rfl⟩

theorem insertNewRows_cases (faults : StoreFaults) (rows : List PyRow)
    (table : Option DeltaTable) :
    (∃ stored, Accepted faults rows table stored) ∨
      ∃ e, insertNewRows faults rows table = (.error e, table) := by
  rw [insertNewRows]
  cases hdeps : loadDependencies faults with
  | error e => exact .inr ⟨e, rfl⟩
  | ok _ =>
    rw [Eff.ofExcept_ok_bind]
    cases hdir : makeParent faults with
    | error e => exact .inr ⟨e, rfl⟩
    | ok _ =>
      rw [Eff.ofExcept_ok_bind]
      cases hvalid : validateInputRows rows 0 with
      | error e => exact .inr ⟨e, rfl⟩
      | ok _ =>
        rw [Eff.ofExcept_ok_bind]
        cases hdedupe : dedupeRows rows with
        | error e => exact .inr ⟨e, rfl⟩
        | ok unique =>
          obtain ⟨hagrees, hunique, -⟩ := dedupeRows_ok hdedupe
          rw [Eff.ofExcept_ok_bind]
          dsimp only
          rw [Eff.get_bind]
          cases hopen : existingRows faults table with
          | error e => exact .inr ⟨e, rfl⟩
          | ok stored =>
            have hstored := existingRows_ok hopen
            subst hstored
            rw [Eff.ofExcept_ok_bind, hunique, filter_unique]
            rcases commitRows_cases (newRows table rows) with ⟨added, hadded, hwrite⟩ | ⟨e, he⟩
            · exact .inl ⟨_, hdeps, hdir, (validateInputRows_ok_iff 0).mp hvalid, hagrees, hopen,
                ingest_eq_some_iff.mpr ⟨added, hadded, rfl⟩, hwrite⟩
            · exact .inr ⟨e, by rw [Eff.bind_of_error he]⟩

def writeResult (faults : StoreFaults) (table : Option DeltaTable) (rows : List PyRow)
    (stored : List LogRow) : Except Exc DeltaWriteResult :=
  if faults.counting then .error countFailed
  else .ok
    { insertedRowCount := (writeCounts table rows).inserted
      duplicateSkippedCount := (writeCounts table rows).skipped
      rowCountBefore := (writeCounts table rows).before
      rowCountAfter := stored.length }

theorem countRows_some (faults : StoreFaults) (t : DeltaTable) :
    countRows faults (some t) =
      (if faults.counting then .error countFailed else .ok t.rows.length, some t) := by
  rw [countRows, Eff.get_bind]
  dsimp only
  split_ifs
  · rfl
  · rfl

theorem write_accepted (h : Accepted faults rows table stored) :
    writeEthereumLogsInsertOnly faults rows table =
      (writeResult faults table rows stored, some (committed table stored)) := by
  have hcount := countRows_some faults (committed table stored)
  rw [writeEthereumLogsInsertOnly, Eff.bind_of_ok (insertNewRows_accepted h), writeResult]
  split_ifs at hcount ⊢
  · rw [Eff.bind_of_error hcount]
  · rw [Eff.bind_of_ok hcount]
    rfl

theorem write_cases (faults : StoreFaults) (rows : List PyRow) (table : Option DeltaTable) :
    (∃ stored, Accepted faults rows table stored) ∨
      ∃ e, writeEthereumLogsInsertOnly faults rows table = (.error e, table) := by
  rcases insertNewRows_cases faults rows table with h | ⟨e, he⟩
  · exact .inl h
  · exact .inr ⟨e, by rw [writeEthereumLogsInsertOnly, Eff.bind_of_error he]⟩

theorem writeCounts_sum (table : Option DeltaTable) (rows : List PyRow) :
    (writeCounts table rows).inserted + (writeCounts table rows).skipped = rows.length := by
  have hunique := (firsts_sublist rowKey [] rows).length_le
  have hnew : (newRows table rows).length ≤ (firsts rowKey [] rows).length := by
    rw [← filter_unique]
    exact List.length_filter_le _ _
  simp only [writeCounts]
  omega

theorem Accepted.length (h : Accepted faults rows table stored) :
    stored.length = (storedRows table).length + (newRows table rows).length := by
  have hkeys := congrArg List.length (ingest_keys arrowRow_key h.ingested)
  simpa [newRows] using hkeys

structure StoreInvariant (table : Option DeltaTable) : Prop where
  schema : ∀ t, table = some t → t.schema = ethereumLogsSchema
  columns : ∀ row ∈ storedRows table, row.toDict.columns = ethereumLogsSchema.map SchemaField.name
  decoded : ∀ row ∈ storedRows table, Decoded row
  uniqueKeys : ((storedRows table).map storedKey).Nodup

theorem StoreInvariant.accepted (h : StoreInvariant table)
    (ha : Accepted faults rows table stored) : StoreInvariant (some (committed table stored)) := by
  refine ⟨?_, fun row _ => rfl, ?_, ingest_nodup arrowRow_key h.uniqueKeys ha.ingested⟩
  · rintro t ⟨⟩
    cases table with
    | none => rfl
    | some t => exact h.schema t rfl
  · intro row hrow
    rcases mem_ingest ha.ingested hrow with hrow | ⟨input, hinput, hconvert⟩
    · exact h.decoded row hrow
    · exact (ha.valid input hinput).decoded (arrowRow_converted hconvert)

theorem StoreInvariant.write (h : StoreInvariant table) (faults : StoreFaults)
    (rows : List PyRow) : StoreInvariant (writeEthereumLogsInsertOnly faults rows table).2 := by
  rcases write_cases faults rows table with ⟨stored, ha⟩ | ⟨e, he⟩
  · rw [write_accepted ha]
    exact h.accepted ha
  · rw [he]
    exact h

structure WriteOutcome (rows : List PyRow) (before after : Option DeltaTable)
    (r : Except Exc DeltaWriteResult) : Prop where
  kept : storedRows before <+: storedRows after
  counted : ∀ result, r = .ok result →
    result.insertedRowCount + result.duplicateSkippedCount = rows.length ∧
      result.rowCountAfter = result.rowCountBefore + result.insertedRowCount ∧
      result.rowCountBefore = (storedRows before).length ∧
      result.rowCountAfter = (storedRows after).length
  stored : ∀ result, r = .ok result →
    (∀ row ∈ rows, rowKey row ∈ (storedRows after).map storedKey) ∧ after.isSome = true
  raised : ∀ e, r = .error e → e ≠ countFailed → after = before

theorem write_outcome (faults : StoreFaults) (rows : List PyRow) (table : Option DeltaTable) :
    WriteOutcome rows table (writeEthereumLogsInsertOnly faults rows table).2
      (writeEthereumLogsInsertOnly faults rows table).1 := by
  rcases write_cases faults rows table with ⟨stored, ha⟩ | ⟨e, he⟩
  · rw [write_accepted ha]
    refine ⟨ingest_extends ha.ingested, ?_, ?_, ?_⟩
    · intro result hresult
      simp only [writeResult] at hresult
      split_ifs at hresult
      cases hresult
      exact ⟨writeCounts_sum table rows, ha.length, rfl, rfl⟩
    · intro result _
      exact ⟨fun row hrow => key_mem_ingest arrowRow_key ha.ingested hrow, rfl⟩
    · intro e he hne
      simp only [writeResult] at he
      split_ifs at he
      cases he
      exact absurd rfl hne
  · rw [he]
    exact ⟨List.prefix_refl _, by simp, by simp, fun _ _ _ => rfl⟩

theorem write_history (calls : List (StoreFaults × List PyRow)) (faults : StoreFaults)
    (rows : List PyRow) :
    let before := history (calls.map fun c => writeEthereumLogsInsertOnly c.1 c.2) none
    StoreInvariant (writeEthereumLogsInsertOnly faults rows before).2 ∧
      WriteOutcome rows before (writeEthereumLogsInsertOnly faults rows before).2
        (writeEthereumLogsInsertOnly faults rows before).1 := by
  intro before
  have hbefore : StoreInvariant before := by
    refine history_invariant ⟨by simp, by simp [storedRows], by simp [storedRows],
      by simp [storedRows]⟩ ?_
    intro m hm t ht
    obtain ⟨c, -, rfl⟩ := List.mem_map.mp hm
    exact ht.write c.1 c.2
  exact ⟨hbefore.write faults rows, write_outcome faults rows before⟩

def sampleRow (logIndex : Int) (ingestedAt : Instant) : LogRow where
  chainId := 1
  blockNumber := 7
  blockHash := "0xb7".toList
  transactionHash := "0xaa".toList
  transactionIndex := none
  logIndex := logIndex
  contractAddress := "0xcc".toList
  topic0 := none
  topic1 := none
  topic2 := none
  topic3 := none
  dataRaw := "0x".toList
  dataUint256DecimalText := none
  dataUint256DecodeStatus := LogNormalizer.uint256StatusNotUint256Word
  removed := some false
  blockTimestampUtc := 0
  blockDateUtc := 0
  intervalStartUtc := 0
  intervalEndUtc := microsPerHour
  ingestedAtUtc := ingestedAt

example : writeEthereumLogsInsertOnly noFaults [(sampleRow 0 6).toDict, (sampleRow 1 6).toDict]
    (history [writeEthereumLogsInsertOnly noFaults [(sampleRow 0 5).toDict]] none) =
      (.ok ⟨1, 1, 1, 2⟩, some ⟨ethereumLogsSchema, [sampleRow 0 5, sampleRow 1 6]⟩) := by
  decide +kernel

theorem Agrees.append {as bs : List PyRow} (h : Agrees [] (as ++ bs)) :
    Agrees [] as ∧ Agrees [] bs := by
  constructor
  · exact h.weaken (fun a => List.mem_append_left bs) fun b => List.mem_append_left bs
  · exact h.weaken (fun a => List.mem_append_right as) fun b => List.mem_append_right as

theorem existingRows_noFaults (h : existingRows faults table = .ok stored) :
    existingRows noFaults table = .ok (storedRows table) := by
  cases table with
  | none => rfl
  | some t =>
    simp only [existingRows] at h ⊢
    split at h
    · cases h
    · obtain ⟨u, hu, -⟩ := except_map_ok h
      rw [hu]
      rfl

theorem existingRows_committed (h : existingRows faults table = .ok stored)
    (rows : List LogRow) : existingRows noFaults (some (committed table rows)) = .ok rows := by
  cases table with
  | none => rfl
  | some t =>
    simp only [existingRows] at h
    split at h
    · cases h
    · obtain ⟨u, hu, -⟩ := except_map_ok h
      change (validateSchema t.schema ethereumLogsSchema).map _ = _
      rw [hu]
      rfl

theorem committed_committed (table : Option DeltaTable) (middle stored : List LogRow) :
    committed (some (committed table middle)) stored = committed table stored := rfl

theorem Accepted.split {as bs : List PyRow} (h : Accepted faults (as ++ bs) table stored) :
    ∃ middle, Accepted noFaults as table middle ∧
      Accepted noFaults bs (some (committed table middle)) stored := by
  obtain ⟨hagreesA, hagreesB⟩ := h.agrees.append
  obtain ⟨middle, hfirst, hsecond⟩ := (ingest_append arrowRow_key).mp h.ingested
  refine ⟨middle, ?_, ?_⟩
  · exact ⟨rfl, rfl, fun row hrow => h.valid row (by simp [hrow]), hagreesA,
      existingRows_noFaults h.opened, hfirst, .inl rfl⟩
  · exact ⟨rfl, rfl, fun row hrow => h.valid row (by simp [hrow]), hagreesB,
      existingRows_committed h.opened middle, hsecond, .inl rfl⟩

theorem Accepted.again (h : Accepted faults rows table stored) :
    Accepted noFaults rows (some (committed table stored)) stored ∧
      newRows (some (committed table stored)) rows = [] := by
  obtain ⟨hnil, hagain⟩ := ingest_again arrowRow_key h.ingested
  exact ⟨⟨rfl, rfl, h.valid, h.agrees, existingRows_committed h.opened stored, hagain, .inl rfl⟩, hnil⟩

theorem accepted_of_ok {result : DeltaWriteResult}
    (h : (writeEthereumLogsInsertOnly faults rows table).1 = .ok result) :
    ∃ stored, Accepted faults rows table stored := by
  rcases write_cases faults rows table with ha | ⟨e, he⟩
  · exact ha
  · rw [he] at h
    cases h

theorem writeResult_ok {result : DeltaWriteResult}
    (h : writeResult faults table rows stored = .ok result) :
    result = ⟨(writeCounts table rows).inserted, (writeCounts table rows).skipped,
      (writeCounts table rows).before, stored.length⟩ := by
  rw [writeResult] at h
  split_ifs at h
  cases h
  rfl

theorem write_nothing (h : Accepted noFaults rows (some (committed table stored)) stored)
    (hnil : newRows (some (committed table stored)) rows = []) :
    writeEthereumLogsInsertOnly noFaults rows (some (committed table stored)) =
      (.ok ⟨0, rows.length, stored.length, stored.length⟩, some (committed table stored)) := by
  have hsum := writeCounts_sum (some (committed table stored)) rows
  have hzero : (writeCounts (some (committed table stored)) rows).inserted = 0 := by
    simp [writeCounts, hnil]
  rw [hzero, Nat.zero_add] at hsum
  rw [write_accepted h, committed_committed, writeResult, hzero, hsum]
  rfl

structure SplitAgrees (as bs : List PyRow) (before after : Option DeltaTable)
    (result first second : DeltaWriteResult) : Prop where
  firstWrite : (writeEthereumLogsInsertOnly noFaults as before).1 = .ok first
  secondWrite : (writeEthereumLogsInsertOnly noFaults bs
    (writeEthereumLogsInsertOnly noFaults as before).2).1 = .ok second
  sameTable : (writeEthereumLogsInsertOnly noFaults bs
    (writeEthereumLogsInsertOnly noFaults as before).2).2 = after
  inserted : first.insertedRowCount + second.insertedRowCount = result.insertedRowCount
  skipped : first.duplicateSkippedCount + second.duplicateSkippedCount =
    result.duplicateSkippedCount

theorem write_split (table : Option DeltaTable) (faults : StoreFaults) (as bs : List PyRow)
    (result : DeltaWriteResult)
    (h : (writeEthereumLogsInsertOnly faults (as ++ bs) table).1 = .ok result) :
    (∃ first second, SplitAgrees as bs table
        (writeEthereumLogsInsertOnly faults (as ++ bs) table).2 result first second) ∧
      writeEthereumLogsInsertOnly noFaults (as ++ bs)
          (writeEthereumLogsInsertOnly faults (as ++ bs) table).2 =
        (.ok ⟨0, (as ++ bs).length, result.rowCountAfter, result.rowCountAfter⟩,
          (writeEthereumLogsInsertOnly faults (as ++ bs) table).2) := by
  obtain ⟨stored, ha⟩ := accepted_of_ok h
  obtain ⟨middle, hfirst, hsecond⟩ := ha.split
  obtain ⟨hagain, hnil⟩ := ha.again
  rw [write_accepted ha] at h ⊢
  have hresult := writeResult_ok h
  have hnew : newRows table (as ++ bs) =
      newRows table as ++ newRows (some (committed table middle)) bs :=
    newIn_append arrowRow_key hfirst.ingested bs
  have hinserted : (newRows table as).length + (newRows (some (committed table middle)) bs).length =
      (newRows table (as ++ bs)).length := by rw [hnew, List.length_append]
  constructor
  · refine ⟨_, _, ⟨by rw [write_accepted hfirst]; rfl,
      by rw [write_accepted hfirst, write_accepted hsecond]; rfl,
      by rw [write_accepted hfirst, write_accepted hsecond, committed_committed], ?_, ?_⟩⟩
    · rw [hresult]
      exact hinserted
    · have hsumA := writeCounts_sum table as
      have hsumB := writeCounts_sum (some (committed table middle)) bs
      have hsum := writeCounts_sum table (as ++ bs)
      rw [hresult]
      simp only [List.length_append] at hsum
      have hi : (writeCounts table as).inserted +
          (writeCounts (some (committed table middle)) bs).inserted =
          (writeCounts table (as ++ bs)).inserted := hinserted
      dsimp only
      omega
  · rw [write_nothing hagain hnil, hresult]

theorem write_split_straddling :
    (∃ first second, SplitAgrees [(sampleRow 0 5).toDict]
        [(sampleRow 0 6).toDict, (sampleRow 1 6).toDict] none
        (some ⟨ethereumLogsSchema, [sampleRow 0 5, sampleRow 1 6]⟩) ⟨2, 1, 0, 2⟩ first second) ∧
      writeEthereumLogsInsertOnly noFaults
          [(sampleRow 0 5).toDict, (sampleRow 0 6).toDict, (sampleRow 1 6).toDict]
          (some ⟨ethereumLogsSchema, [sampleRow 0 5, sampleRow 1 6]⟩) =
        (.ok ⟨0, 3, 2, 2⟩, some ⟨ethereumLogsSchema, [sampleRow 0 5, sampleRow 1 6]⟩) := by
  have hrun : writeEthereumLogsInsertOnly noFaults
      ([(sampleRow 0 5).toDict] ++ [(sampleRow 0 6).toDict, (sampleRow 1 6).toDict]) none =
      (.ok ⟨2, 1, 0, 2⟩, some ⟨ethereumLogsSchema, [sampleRow 0 5, sampleRow 1 6]⟩) := by
    decide +kernel
  have h := write_split none noFaults [(sampleRow 0 5).toDict]
    [(sampleRow 0 6).toDict, (sampleRow 1 6).toDict] ⟨2, 1, 0, 2⟩ (by rw [hrun])
  rw [hrun] at h
  exact h

end EthereumLogs.DeltaWriter
