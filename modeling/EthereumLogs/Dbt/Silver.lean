import EthereumLogs.Dbt.Amounts
import EthereumLogs.NormalizedRows

namespace EthereumLogs.Dbt
open Python Effect Keyed LogNormalizer DeltaWriter

variable {vars : DbtVars} {process : DbtProcess} {window : Window} {raw raw' : List LogRow}
  {row : LogRow} {transfer : Erc20Transfer} {before : List Erc20Transfer}

def transferOf (vars : DbtVars) (row : LogRow) : Option Erc20Transfer :=
  if HasTransferShape (stagedLog row) then decodeTransfer vars (stagedLog row) else none

structure DecodedFrom (log : LogRow) (transfer : Erc20Transfer) : Prop where
  key : transferKey transfer = logKey log
  timestamp : transfer.blockTimestampUtc = log.blockTimestampUtc
  intervalStart : transfer.intervalStartUtc = log.intervalStartUtc

theorem decodeTransfer_from {log : LogRow} (h : decodeTransfer vars log = some transfer) :
    DecodedFrom log transfer := by
  obtain ⟨fromAddress, -, h⟩ := Option.bind_eq_some_iff.mp h
  obtain ⟨toAddress, -, h⟩ := Option.bind_eq_some_iff.mp h
  cases h
  exact ⟨rfl, rfl, rfl⟩

theorem transferOf_from (h : transferOf vars row = some transfer) :
    DecodedFrom (stagedLog row) transfer := by
  unfold transferOf at h
  split_ifs at h
  exact decodeTransfer_from h

theorem sourceLogs_decoded (vars : DbtVars) (window : Window) (raw : List LogRow) :
    (sourceLogs window (ethereumLogs raw)).filterMap (decodeTransfer vars) =
      (raw.filter fun row => window.Contains row.blockTimestampUtc).filterMap (transferOf vars) := by
  induction raw with
  | nil => rfl
  | cons row raw ih =>
    have hstaged : (stagedLog row).blockTimestampUtc = row.blockTimestampUtc := rfl
    simp only [sourceLogs, ethereumLogs, List.map_cons, List.filter_cons, hstaged] at ih ⊢
    by_cases hshape : HasTransferShape (stagedLog row)
    · by_cases hwindow : window.Contains row.blockTimestampUtc
      · simp only [hshape, hwindow, and_self, decide_true, if_true, List.filterMap_cons, transferOf, ih]
      · simpa [hwindow] using ih
    · by_cases hwindow : window.Contains row.blockTimestampUtc
      · simpa [hshape, hwindow, List.filterMap_cons, transferOf] using ih
      · simpa [hwindow] using ih

structure RawContract (raw : List LogRow) : Prop where
  unique : (raw.map logKey).Nodup
  lowered : ∀ row ∈ raw, lower row.transactionHash = row.transactionHash

theorem RawContract.stagedKey (hraw : RawContract raw) (hrow : row ∈ raw) :
    logKey (stagedLog row) = logKey row := by
  simp [logKey, stagedLog, hraw.lowered row hrow]

theorem RawContract.transferKey (hraw : RawContract raw) (hrow : row ∈ raw)
    (h : transferOf vars row = some transfer) : transferKey transfer = logKey row :=
  (transferOf_from h).key.trans (hraw.stagedKey hrow)

theorem RawContract.same (hraw : RawContract raw) {row' : LogRow} {transfer' : Erc20Transfer}
    (hrow : row ∈ raw) (hrow' : row' ∈ raw) (h : transferOf vars row = some transfer)
    (h' : transferOf vars row' = some transfer')
    (hkey : Dbt.transferKey transfer = Dbt.transferKey transfer') : transfer = transfer' := by
  rw [hraw.transferKey hrow h, hraw.transferKey hrow' h'] at hkey
  cases eq_of_key_eq logKey hraw.unique hrow hrow' hkey
  rw [h] at h'
  exact Option.some.inj h'

theorem RawContract.decodedKeys (hraw : RawContract raw) (vars : DbtVars) (window : Window) :
    (((raw.filter fun row => window.Contains row.blockTimestampUtc).filterMap
      (transferOf vars)).map Dbt.transferKey).Nodup := by
  have hsub : (raw.filter fun row => window.Contains row.blockTimestampUtc).Sublist raw :=
    List.filter_sublist
  have hkeys : ((raw.filter fun row => window.Contains row.blockTimestampUtc).filterMap
      (transferOf vars) |>.map Dbt.transferKey).Sublist
      ((raw.filter fun row => window.Contains row.blockTimestampUtc).map logKey) :=
    filterMap_keys fun row hrow transfer h => hraw.transferKey (hsub.mem hrow) h
  exact (hraw.unique.sublist (hsub.map logKey)).sublist hkeys

theorem erc20Transfers_perm (vars : DbtVars) (window : Window) (hraw : RawContract raw) :
    (erc20Transfers vars window raw).Perm
      ((raw.filter fun row => window.Contains row.blockTimestampUtc).filterMap
        (transferOf vars)) := by
  rw [erc20Transfers, sourceLogs_decoded]
  exact latest_perm _ _ (hraw.decodedKeys vars window)

theorem mem_erc20Transfers (hraw : RawContract raw) :
    transfer ∈ erc20Transfers vars window raw ↔ ∃ row ∈ raw,
      window.Contains row.blockTimestampUtc ∧ transferOf vars row = some transfer := by
  rw [(erc20Transfers_perm vars window hraw).mem_iff, List.mem_filterMap]
  simp only [List.mem_filter, decide_eq_true_eq, and_assoc]

theorem storedKey_nodup_iff {rows : List LogRow} :
    (rows.map storedKey).Nodup ↔ (rows.map logKey).Nodup := by
  have hmap : rows.map storedKey =
      (rows.map logKey).map fun k => [.int k.1, .str k.2.1, .int k.2.2] := by
    rw [List.map_map]
    rfl
  rw [hmap]
  apply List.nodup_map_iff
  rintro ⟨a, b, c⟩ ⟨a', b', c'⟩ h
  simpa using h

theorem RawContract.accepted {faults : StoreFaults} {logs stored : List LogRow}
    {table : Option DeltaTable} (hraw : RawContract (storedRows table))
    (hlogs : ∀ row ∈ logs, lower row.transactionHash = row.transactionHash)
    (ha : Accepted faults (logs.map LogRow.toDict) table stored) : RawContract stored := by
  constructor
  · rw [← storedKey_nodup_iff]
    exact ingest_nodup arrowRow_key (storedKey_nodup_iff.mpr hraw.unique) ha.ingested
  · intro row hrow
    rcases mem_ingest ha.ingested hrow with hold | ⟨input, hinput, hconvert⟩
    · exact hraw.lowered row hold
    · obtain ⟨log, hlog, rfl⟩ := List.mem_map.mp hinput
      rw [arrowRow_toDict hconvert]
      exact hlogs log hlog

structure Sound (vars : DbtVars) (raw : List LogRow) (transfers : List Erc20Transfer) : Prop where
  unique : (transfers.map transferKey).Nodup
  decoded : ∀ transfer ∈ transfers, ∃ row ∈ raw,
    logKey row = transferKey transfer ∧ transferOf vars row = some transfer

theorem Sound.mono (h : Sound vars raw before) (hsub : raw ⊆ raw') : Sound vars raw' before := by
  refine ⟨h.unique, fun transfer ht => ?_⟩
  obtain ⟨row, hrow, hdecoded⟩ := h.decoded transfer ht
  exact ⟨row, hsub hrow, hdecoded⟩

structure Rebuilt (vars : DbtVars) (window : Window) (raw : List LogRow)
    (before after : List Erc20Transfer) : Prop where
  inside : (after.filter fun transfer => window.Contains transfer.blockTimestampUtc).Perm
    ((raw.filter fun row => window.Contains row.blockTimestampUtc).filterMap (transferOf vars))
  outside : after.filter (fun transfer => ¬ window.Contains transfer.blockTimestampUtc) =
    before.filter (fun transfer => ¬ window.Contains transfer.blockTimestampUtc)

def rebuilt (vars : DbtVars) (window : Window) (raw : List LogRow) (before : List Erc20Transfer) :
    List Erc20Transfer := replace transferKey before (erc20Transfers vars window raw)

def built (vars : DbtVars) (now : Instant) (window : Window) (raw : List LogRow) (w : Warehouse) :
    Warehouse where
  erc20Transfers := some (rebuilt vars window raw w.transfers)
  tetherTreasuryFlow := some (replace TreasuryFlow.toFlowKey w.flows
    (tetherTreasuryFlow vars window now (rebuilt vars window raw w.transfers)))
  qualitySummaryWindow := some window

theorem rebuilt_sound (hraw : RawContract raw) (h : Sound vars raw before) :
    Sound vars raw (rebuilt vars window raw before) := by
  refine ⟨replace_nodup transferKey h.unique (latest_nodup _ _ _),
    replace_forall transferKey ?_ h.decoded⟩
  intro transfer hnew
  obtain ⟨row, hrow, -, hdecoded⟩ := (mem_erc20Transfers hraw).mp hnew
  exact ⟨row, hrow, (hraw.transferKey hrow hdecoded).symm, hdecoded⟩

theorem rebuilt_exact (hraw : RawContract raw) (h : Sound vars raw before) :
    Rebuilt vars window raw before (rebuilt vars window raw before) := by
  have hnew : ∀ transfer ∈ erc20Transfers vars window raw,
      window.Contains transfer.blockTimestampUtc := by
    intro transfer ht
    obtain ⟨row, -, hwindow, hdecoded⟩ := (mem_erc20Transfers hraw).mp ht
    rw [(transferOf_from hdecoded).timestamp]
    exact hwindow
  constructor
  · rw [rebuilt, replace_inside (P := fun t => window.Contains t.blockTimestampUtc) transferKey hnew]
    · exact erc20Transfers_perm vars window hraw
    · intro transfer ht hwindow
      obtain ⟨row, hrow, -, hdecoded⟩ := h.decoded transfer ht
      rw [(transferOf_from hdecoded).timestamp] at hwindow
      exact List.mem_map_of_mem ((mem_erc20Transfers hraw).mpr ⟨row, hrow, hwindow, hdecoded⟩)
  · apply replace_outside (P := fun t => window.Contains t.blockTimestampUtc) transferKey hnew
    intro transfer ht hkey
    obtain ⟨row, hrow, -, hdecoded⟩ := h.decoded transfer ht
    obtain ⟨other, hother, hsame⟩ := List.mem_map.mp hkey
    obtain ⟨row', hrow', -, hdecoded'⟩ := (mem_erc20Transfers hraw).mp hother
    rw [hraw.same hrow hrow' hdecoded hdecoded' hsame.symm]
    exact hnew other hother

theorem runNode_cases (process : DbtProcess) (node : DbtNode) (passes : Bool) (w : Warehouse) :
    (passes = true ∧ runNode process node passes w = (.ok (), w)) ∨
      runNode process node passes w = (.error process.failure, w) := by
  rw [runNode]
  by_cases h : process.failing node = true ∨ passes = false
  · rw [if_pos h]
    exact .inr rfl
  · rw [if_neg h]
    exact .inl ⟨by simpa using (not_or.mp h).2, rfl⟩

theorem writeNode_cases (process : DbtProcess) (node : DbtNode) (passes : Bool)
    (update : Warehouse → Warehouse) (w : Warehouse) :
    (passes = true ∧
        (runNode process node passes >>= fun _ => Eff.modify update) w = (.ok (), update w)) ∨
      (runNode process node passes >>= fun _ => Eff.modify update) w = (.error process.failure, w) := by
  rcases runNode_cases process node passes w with ⟨hpasses, hrun⟩ | hrun
  · exact .inl ⟨hpasses, Eff.bind_of_ok hrun _⟩
  · exact .inr (Eff.bind_of_error hrun _)

theorem buildErc20Transfers_cases (vars : DbtVars) (process : DbtProcess) (window : Window)
    (raw : List LogRow) (w : Warehouse) :
    buildErc20Transfers vars process window raw w = (.ok (), { w with
        erc20Transfers := some (rebuilt vars window raw w.transfers) }) ∨
      buildErc20Transfers vars process window raw w = (.error process.failure, w) :=
  (writeNode_cases process .erc20Transfers _ _ w).imp_left And.right

structure Lakehouse where
  delta : Option DeltaTable
  warehouse : Warehouse

def Lakehouse.empty : Lakehouse := ⟨none, .empty⟩

inductive Event where
  | write (faults : StoreFaults) (batch : List LogRow)
  | build (window : Window) (process : DbtProcess)

-- the writer stores a hash as it is spelled, and the staging view lowers it
def Event.Lowered : Event → Prop
  | .write _ batch => ∀ row ∈ batch, lower row.transactionHash = row.transactionHash
  | .build _ _ => True

instance : DecidablePred Event.Lowered
  | .write _ batch => inferInstanceAs (Decidable (∀ row ∈ batch, _))
  | .build _ _ => inferInstanceAs (Decidable True)

def writeRaw (faults : StoreFaults) (batch : List LogRow) : Action Lakehouse DeltaWriteResult :=
  Eff.zoom Lakehouse.delta (fun s table => { s with delta := table })
    (writeEthereumLogsInsertOnly faults (batch.map LogRow.toDict))

def buildSilver (vars : DbtVars) (window : Window) (process : DbtProcess) :
    Action Lakehouse Unit := do
  let s ← Eff.get
  Eff.zoom Lakehouse.warehouse (fun s w => { s with warehouse := w }) do
    runNode process .ethereumLogs s.delta.isSome
    buildErc20Transfers vars process window (storedRows s.delta)

def Event.run (vars : DbtVars) : Event → Action Lakehouse Unit
  | .write faults batch => do
    let _ ← writeRaw faults batch
    pure ()
  | .build window process => buildSilver vars window process

structure SilverInvariant (vars : DbtVars) (s : Lakehouse) : Prop where
  contract : RawContract (storedRows s.delta)
  sound : Sound vars (storedRows s.delta) s.warehouse.transfers

theorem SilverInvariant.empty (vars : DbtVars) : SilverInvariant vars .empty :=
  ⟨⟨.nil, by simp [Lakehouse.empty, storedRows]⟩, .nil,
    by simp [Lakehouse.empty, Warehouse.empty, Warehouse.transfers]⟩

theorem SilverInvariant.commit {s : Lakehouse} {delta : Option DeltaTable} {faults : StoreFaults}
    {logs : List LogRow} (h : SilverInvariant vars s)
    (hlogs : ∀ row ∈ logs, lower row.transactionHash = row.transactionHash)
    (ha : Accepted faults (logs.map LogRow.toDict) s.delta (storedRows delta)) :
    SilverInvariant vars { s with delta := delta } :=
  ⟨h.contract.accepted hlogs ha, h.sound.mono (ingest_extends ha.ingested).subset⟩

theorem SilverInvariant.refresh {s : Lakehouse} {warehouse : Warehouse} (h : SilverInvariant vars s)
    (hrebuilt : warehouse.transfers =
      rebuilt vars window (storedRows s.delta) s.warehouse.transfers) :
    SilverInvariant vars { s with warehouse := warehouse } := by
  refine ⟨h.contract, ?_⟩
  change Sound vars (storedRows s.delta) warehouse.transfers
  rw [hrebuilt]
  exact rebuilt_sound h.contract h.sound

theorem SilverInvariant.write {s : Lakehouse} (h : SilverInvariant vars s) (faults : StoreFaults)
    {batch : List LogRow} (hlowered : ∀ row ∈ batch, lower row.transactionHash = row.transactionHash) :
    SilverInvariant vars (writeRaw faults batch s).2 := by
  change SilverInvariant vars
    { s with delta := (writeEthereumLogsInsertOnly faults (batch.map LogRow.toDict) s.delta).2 }
  rcases write_cases faults (batch.map LogRow.toDict) s.delta with ⟨stored, ha⟩ | ⟨e, he⟩
  · rw [write_accepted ha]
    exact h.commit hlowered ha
  · rw [he]
    exact h

theorem buildSilver_cases (vars : DbtVars) (window : Window) (process : DbtProcess)
    (s : Lakehouse) :
    buildSilver vars window process s = (.ok (), { s with warehouse := { s.warehouse with
        erc20Transfers := some (rebuilt vars window (storedRows s.delta)
          s.warehouse.transfers) } }) ∨
      buildSilver vars window process s = (.error process.failure, s) := by
  rw [buildSilver, Eff.get_bind]
  simp only [Eff.zoom]
  rcases runNode_cases process .ethereumLogs s.delta.isSome s.warehouse with ⟨-, hrun⟩ | hrun
  · rw [Eff.bind_of_ok hrun]
    rcases buildErc20Transfers_cases vars process window (storedRows s.delta) s.warehouse with
      hbuild | hbuild
    · rw [hbuild]
      exact .inl rfl
    · rw [hbuild]
      exact .inr rfl
  · rw [Eff.bind_of_error hrun]
    exact .inr rfl

theorem SilverInvariant.build {s : Lakehouse} (h : SilverInvariant vars s) (window : Window)
    (process : DbtProcess) : SilverInvariant vars (buildSilver vars window process s).2 := by
  rcases buildSilver_cases vars window process s with hbuild | hbuild
  · rw [hbuild]
    exact h.refresh rfl
  · rw [hbuild]
    exact h

theorem Event.run_invariant {event : Event} (hlowered : event.Lowered) {s : Lakehouse}
    (h : SilverInvariant vars s) : SilverInvariant vars (event.run vars s).2 := by
  cases event with
  | write faults batch =>
    have hrun : (Event.run vars (.write faults batch) s).2 = (writeRaw faults batch s).2 := by
      rw [Event.run]
      rcases hw : writeRaw faults batch s with ⟨e | result, t⟩
      · rw [Eff.bind_of_error hw]
      · rw [Eff.bind_of_ok hw]
        rfl
    rw [hrun]
    exact h.write faults hlowered
  | build window process => exact h.build window process

theorem erc20Transfers_incremental (vars : DbtVars) (events : List Event)
    (hlowered : ∀ event ∈ events, event.Lowered) :
    let s := history (events.map (Event.run vars)) Lakehouse.empty
    Sound vars (storedRows s.delta) s.warehouse.transfers ∧
      ∀ window process, (buildSilver vars window process s).1 = .ok () →
        Rebuilt vars window (storedRows s.delta) s.warehouse.transfers
          (buildSilver vars window process s).2.warehouse.transfers := by
  intro s
  have hinvariant : SilverInvariant vars s := by
    refine history_invariant (.empty vars) ?_
    intro m hm t ht
    obtain ⟨event, hevent, rfl⟩ := List.mem_map.mp hm
    exact event.run_invariant (hlowered event hevent) ht
  refine ⟨hinvariant.sound, ?_⟩
  intro window process hok
  rcases buildSilver_cases vars window process s with hbuild | hbuild
  · rw [hbuild]
    exact rebuilt_exact hinvariant.contract hinvariant.sound
  · rw [hbuild] at hok
    cases hok

def spelled (hash : Text) : LogRow := { usdtLog with transactionHash := hash }

def plainBuild : DbtProcess := ⟨none, fun _ => false, false, 0⟩

def twoWrites : List Event :=
  [.write noFaults [spelled "0xaa".toList], .build ⟨0, 1⟩ ⟨none, (· = .erc20Transfers), false, 0⟩,
   .write noFaults [spelled "0xab".toList], .build ⟨0, 1⟩ plainBuild]

theorem erc20Transfers_incremental_usdt :
    (history (twoWrites.map (Event.run usdtVars)) Lakehouse.empty).warehouse.transfers.length = 2 ∧
      Sound usdtVars (storedRows (history (twoWrites.map (Event.run usdtVars)) Lakehouse.empty).delta)
        (history (twoWrites.map (Event.run usdtVars)) Lakehouse.empty).warehouse.transfers := by
  have hlowered : ∀ event ∈ twoWrites, event.Lowered := by decide
  exact ⟨by decide +kernel, (erc20Transfers_incremental usdtVars twoWrites hlowered).1⟩

def bothSpellings : Lakehouse :=
  history ([Event.write noFaults [spelled "0xAA".toList, spelled "0xaa".toList]].map
    (Event.run usdtVars)) Lakehouse.empty

def upperSpelling : Lakehouse :=
  history ([Event.write noFaults [spelled "0xAA".toList], .build ⟨0, 1⟩ plainBuild].map
    (Event.run usdtVars)) Lakehouse.empty

theorem erc20Transfers_incremental_mixed_case :
    ((storedRows bothSpellings.delta).map logKey).Nodup ∧
      (buildSilver usdtVars ⟨0, 1⟩ plainBuild bothSpellings).1 = .ok () ∧
      ¬ Rebuilt usdtVars ⟨0, 1⟩ (storedRows bothSpellings.delta) bothSpellings.warehouse.transfers
        (buildSilver usdtVars ⟨0, 1⟩ plainBuild bothSpellings).2.warehouse.transfers ∧
      ¬ Sound usdtVars (storedRows upperSpelling.delta) upperSpelling.warehouse.transfers := by
  have hbuilt : (buildSilver usdtVars ⟨0, 1⟩ plainBuild bothSpellings).1.isOk = true ∧
      ((buildSilver usdtVars ⟨0, 1⟩ plainBuild bothSpellings).2.warehouse.transfers.filter
        fun t => Window.Contains ⟨0, 1⟩ t.blockTimestampUtc).length = 1 ∧
      (((storedRows bothSpellings.delta).filter fun row =>
        Window.Contains ⟨0, 1⟩ row.blockTimestampUtc).filterMap (transferOf usdtVars)).length = 2 := by
    decide +kernel
  have halone : upperSpelling.warehouse.transfers.any (fun t =>
      (storedRows upperSpelling.delta).all fun row => logKey row ≠ transferKey t) = true := by
    decide +kernel
  obtain ⟨hok, hone, htwo⟩ := hbuilt
  refine ⟨by decide +kernel, ?_, ?_, ?_⟩
  · rcases buildSilver_cases usdtVars ⟨0, 1⟩ plainBuild bothSpellings with hbuild | hbuild
    · rw [hbuild]
    · rw [hbuild] at hok
      cases hok
  · intro hrebuilt
    have hlength := hrebuilt.inside.length_eq
    rw [hone, htwo] at hlength
    cases hlength
  · intro hsound
    obtain ⟨transfer, ht, hnone⟩ := List.any_eq_true.mp halone
    obtain ⟨row, hrow, hkey, -⟩ := hsound.decoded transfer ht
    exact of_decide_eq_true (List.all_eq_true.mp hnone row hrow) hkey

end EthereumLogs.Dbt
