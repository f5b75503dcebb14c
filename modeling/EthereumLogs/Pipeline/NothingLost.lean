import EthereumLogs.Pipeline.Exchange

namespace EthereumLogs.Pipeline
open Python Effect Keyed LogNormalizer DeltaWriter EthereumJsonRpcClient

variable {ρ ω : Type} {request : JsonRpc ρ} {interval : Interval ω} {w : World ρ ω}

def Accepts (interval : Interval ω) (log : RawLog) (row : LogRow) : Prop :=
  ∃ timestamps, normalizeLog log timestamps interval.settings.chainId
    (.utc interval.startUtc.instant) (.utc interval.endUtc.instant) (.utc interval.now) = .ok row

def Refused (interval : Interval ω) (log : RawLog) : Prop := ∀ row, ¬ Accepts interval log row

theorem refused_of_unparsed {log : RawLog} (h : ¬ BlockNumberParses log) : Refused interval log := by
  rintro row ⟨timestamps, hnormal⟩
  obtain ⟨v, text, hv, htext, hint⟩ := (normalizeEvent_from (normalizeLog_ok hnormal).1).blockNumber
  refine h fun v' text' hv' htext' => ⟨row.blockNumber, ?_⟩
  rw [blockText_unique hv htext hv' htext', hint]

-- whether a log is accepted does not depend on the times that its block is given
theorem refused_of_error {rawLogs : List RawLog} {numbers : List Int}
    {timestamps : Int → Option Instant} (hnumbers : blockNumbers rawLogs = .ok numbers)
    (hfound : ∀ n ∈ numbers, ∃ t, timestamps n = some t) {log : RawLog} (hlog : log ∈ rawLogs)
    (herror : (trueRow interval timestamps log).isOk = false) : Refused interval log := by
  rintro row ⟨timestamps', hnormal⟩
  have hevent := (normalizeLog_ok hnormal).1
  obtain ⟨v, text, hv, htext, hint⟩ := (normalizeEvent_from hevent).blockNumber
  obtain ⟨t, ht⟩ := hfound row.blockNumber (blockNumbers_mem hnumbers hlog hv htext hint)
  have htime : blockTimestampOf (fun n => (timestamps n).map Datetime.utc) row.blockNumber = .ok t := by
    rw [blockTimestampOf, ht]
    exact astimezone_utc _ t
  rw [trueRow, normalizeLog_eq, normalizeEvent_retimed hevent htime] at herror
  cases herror

theorem normalizeFetched_refuses {fetched : Fetched} {numbers : List Int} {e : Exc}
    (hnumbers : blockNumbers fetched.rawLogs = .ok numbers)
    (hfound : ∀ n ∈ numbers, ∃ t, fetched.blockTimestamps n = some t)
    (h : normalizeFetched interval.settings interval.startUtc.instant interval.endUtc.instant
      interval.now fetched = .error e) : ∃ log ∈ fetched.rawLogs, Refused interval log := by
  obtain ⟨range, rawLogs, timestamps⟩ := fetched
  obtain ⟨rows, hfetched⟩ : ∃ rows, normalizeFetched interval.settings interval.startUtc.instant
      interval.endUtc.instant interval.now ⟨range, rawLogs, timestamps⟩ = _ :=
    normalizeFetched_eq hnumbers fun n _ => rfl
  rw [h] at hfetched
  split_ifs at hfetched with hrejected
  · obtain ⟨log, hlog, herror⟩ := List.countP_pos_iff.mp hrejected
    exact ⟨log, hlog, refused_of_error hnumbers hfound hlog (by simpa using herror)⟩

theorem prepareRows_lands (request : JsonRpc ρ) (interval : Interval ω) (s : ρ) :
    Eff.wp (prepareRows (ofRequest (recordedRequest request)) interval) (s, []) (fun r u =>
      logElements u.2 = [] ∨ Lands r u ∨ ∃ log, .obj log ∈ logElements u.2 ∧ Refused interval log) := by
  rw [prepareRows]
  cases hbounds : normalizeIntervalBounds interval.startUtc interval.endUtc with
  | error e => exact .inl rfl
  | ok bounds =>
    cases normalizeIntervalBounds_ok hbounds
    rw [Eff.ofExcept_ok_bind]
    refine Eff.wp_seq (Eff.wp_and (fetchLogs_lands request interval.settings _ _ (s, []) rfl)
      (Eff.wp_and (fetchLogs_gathers request interval.settings _ _ (s, []) rfl)
        (R := fun r _ => ∀ fetched, r = .ok fetched → FetchedFrom (ofRequest (recordedRequest request))
          interval.settings interval.startUtc.instant interval.endUtc.instant fetched)
        fun _ h => fetchLogs_ok h)) ?_ ?_
    · rintro fetched u ⟨hlands, hgathered, hfetched⟩
      cases hnormalized : normalizeFetched interval.settings interval.startUtc.instant
          interval.endUtc.instant interval.now fetched with
      | error e =>
        obtain ⟨numbers, hnumbers, hlooked⟩ := (hfetched fetched rfl).numbers
        obtain ⟨log, hlog, hrefused⟩ := normalizeFetched_refuses hnumbers
          (fun n hn => hlooked.found n (mem_sortedSet.mpr hn)) hnormalized
        rw [hgathered fetched rfl] at hlog
        exact .inr (.inr ⟨log, mem_objects.mp hlog, hrefused⟩)
      | ok normalized =>
        rcases hlands with hnone | hlands | ⟨log, hlog, hbad⟩
        · exact .inl hnone
        · exact .inr (.inl (lands_ok hlands.standing))
        · exact .inr (.inr ⟨log, hlog, refused_of_unparsed hbad⟩)
    · rintro e u ⟨hlands, -⟩
      rcases hlands with hnone | hlands | ⟨log, hlog, hbad⟩
      · exact .inl hnone
      · exact .inr (.inl (lands_error hlands.broken))
      · exact .inr (.inr ⟨log, hlog, refused_of_unparsed hbad⟩)

theorem runInterval_rpc (client : EthereumClient ρ) (interval : Interval ω) (w : World ρ ω) :
    (runInterval client interval w).2.rpc = (prepareRows client interval w.rpc).2 := by
  rw [runInterval]
  rcases hprepare : prepareRows client interval w.rpc with ⟨e | prepared, s⟩
  · rw [Eff.bind_of_error (onRpc_eq hprepare)]
  · rw [Eff.bind_of_ok (onRpc_eq hprepare)]
    rcases hwrite : writeEthereumLogsInsertOnly interval.faults prepared.rows w.delta
      with ⟨e | deltaResult, table⟩
    · rw [Eff.bind_of_error (onDelta_eq (w := { w with rpc := s }) hwrite)]
    · rw [Eff.bind_of_ok (onDelta_eq (w := { w with rpc := s }) hwrite)]
      exact (finishRun_keeps interval prepared deltaResult _).1

def recording (w : World ρ ω) : World (ρ × Exchange) ω := ⟨(w.rpc, []), w.delta, w.warehouse⟩

def recordedRun (request : JsonRpc ρ) (interval : Interval ω) (w : World ρ ω) :
    Except Exc PipelineRunResult × World (ρ × Exchange) ω :=
  runInterval (ofRequest (recordedRequest request)) interval (recording w)

def exchanged (request : JsonRpc ρ) (interval : Interval ω) (w : World ρ ω) : Exchange :=
  (recordedRun request interval w).2.rpc.2

def receivedElements (request : JsonRpc ρ) (interval : Interval ω) (w : World ρ ω) : List Json :=
  logElements (exchanged request interval w)

structure NothingLost (request : JsonRpc ρ) (interval : Interval ω) (w : World ρ ω) : Prop where
  kept : (runInterval (ofRequest request) interval w).1.isOk = true →
    ∀ x ∈ receivedElements request interval w, ∃ log row, x = .obj log ∧ Accepts interval log row ∧
      storedKey row ∈
        (storedRows (runInterval (ofRequest request) interval w).2.delta).map storedKey
  blocked : (∃ x ∈ receivedElements request interval w,
      ∀ log row, x = .obj log → ¬ Accepts interval log row) →
    ∃ e, (prepareRows (ofRequest request) interval w.rpc).1 = .error e ∧
      (runInterval (ofRequest request) interval w).1 = .error e ∧
      (runInterval (ofRequest request) interval w).2.delta = w.delta ∧
      (runInterval (ofRequest request) interval w).2.warehouse = w.warehouse

theorem request_recorded (request : JsonRpc ρ) : ClientSimulates (fun s (t : ρ × Exchange) => s = t.1)
    (ofRequest request) (ofRequest (recordedRequest request)) :=
  ofRequest_simulates fun _ => simulates_record _ _

theorem receivedElements_gathered {prepared : Prepared}
    (h : (prepareRows (ofRequest request) interval w.rpc).1 = .ok prepared) :
    prepared.fetched.rawLogs = (receivedElements request interval w).filterMap asObject := by
  have hsame := (prepareRows_simulates (request_recorded request) interval w.rpc (w.rpc, []) rfl).1
  rw [receivedElements, exchanged, recordedRun, runInterval_rpc]
  exact prepareRows_gathers (hsame.symm.trans h)

theorem prepared_accepts {prepared : Prepared}
    (h : (prepareRows (ofRequest request) interval w.rpc).1 = .ok prepared) {log : RawLog}
    (hlog : .obj log ∈ receivedElements request interval w) :
    ∃ row ∈ prepared.normalized.rows, Accepts interval log row := by
  have hp := prepareRows_ok h
  have hmem : log ∈ prepared.fetched.rawLogs := by
    rw [receivedElements_gathered h]
    exact List.mem_filterMap.mpr ⟨.obj log, hlog, rfl⟩
  obtain ⟨row, hrow, hnormal⟩ := forall₂_left hp.normalized hmem
  rw [hp.start, hp.stop] at hnormal
  exact ⟨row, hrow, _, hnormal⟩

theorem object_of_isObj {x : Json} (h : x.isObj = true) : ∃ log, x = .obj log := by
  cases x with
  | obj log => exact ⟨log, rfl⟩
  | _ => cases h

theorem nothingLost_of_stopped {e : Exc}
    (h : (prepareRows (ofRequest request) interval w.rpc).1 = .error e) :
    NothingLost request interval w := by
  rcases hprepare : prepareRows (ofRequest request) interval w.rpc with ⟨r, s⟩
  rw [hprepare] at h
  cases h
  have hrun : runInterval (ofRequest request) interval w = (.error e, { w with rpc := s }) :=
    Eff.bind_of_error (onRpc_eq hprepare) _
  constructor
  · intro hok
    rw [hrun] at hok
    cases hok
  · intro _
    rw [hrun]
    exact ⟨e, by rw [hprepare], rfl, rfl, rfl⟩

theorem nothingLost_of_objects {prepared : Prepared}
    (h : (prepareRows (ofRequest request) interval w.rpc).1 = .ok prepared)
    (hobjects : ∀ x ∈ receivedElements request interval w, x.isObj = true) :
    NothingLost request interval w := by
  constructor
  · intro hok x hx
    obtain ⟨log, rfl⟩ := object_of_isObj (hobjects x hx)
    obtain ⟨row, hrow, haccepts⟩ := prepared_accepts h hx
    refine ⟨log, row, rfl, haccepts, ?_⟩
    have hcases := runInterval_cases (ofRequest request) interval w
    generalize runInterval (ofRequest request) interval w = out at hcases hok ⊢
    generalize commits (ofRequest request) interval w = did at hcases
    obtain ⟨r, after⟩ := out
    cases hcases with
    | stopped s e hstop => cases hok
    | refused s e prepared' hprepared => cases hok
    | committed s warehouse r prepared' hprepared stored ha =>
      rw [h] at hprepared
      cases hprepared
      exact key_mem_ingest arrowRow_key ha.ingested (List.mem_map_of_mem hrow)
  · rintro ⟨x, hx, hnot⟩
    obtain ⟨log, rfl⟩ := object_of_isObj (hobjects x hx)
    obtain ⟨row, -, haccepts⟩ := prepared_accepts h hx
    exact absurd haccepts (hnot log row rfl)

theorem NothingLost.objects (hn : NothingLost request interval w) {prepared : Prepared}
    (h : (prepareRows (ofRequest request) interval w.rpc).1 = .ok prepared) :
    ∀ x ∈ receivedElements request interval w, x.isObj = true := by
  intro x hx
  by_contra hnot
  obtain ⟨e, he, -⟩ := hn.blocked ⟨x, hx, fun log row hobj => by simp [hobj, Json.isObj] at hnot⟩
  rw [h] at he
  cases he

theorem prepared_not_refused {prepared : Prepared}
    (h : (prepareRows (ofRequest request) interval w.rpc).1 = .ok prepared) {log : RawLog}
    (hlog : .obj log ∈ receivedElements request interval w) : ¬ Refused interval log := by
  obtain ⟨row, -, haccepts⟩ := prepared_accepts h hlog
  exact fun hrefused => hrefused row haccepts

theorem recordedRun_lands (request : JsonRpc ρ) (interval : Interval ω) (w : World ρ ω) :
    receivedElements request interval w = [] ∨
      ((prepareRows (ofRequest request) interval w.rpc).1.isOk = true ↔
        ¬ BrokenOff (exchanged request interval w)) ∨
      ∃ log, .obj log ∈ receivedElements request interval w ∧ Refused interval log := by
  have hsame := (prepareRows_simulates (request_recorded request) interval w.rpc (w.rpc, []) rfl).1
  have hlands := (Eff.wp_iff _ _ _).mp (prepareRows_lands request interval w.rpc)
  rw [receivedElements, exchanged, recordedRun, runInterval_rpc, hsame]
  exact hlands

theorem runInterval_nothing_lost_iff (request : JsonRpc ρ) (interval : Interval ω)
    (w : World ρ ω) :
    (recordedRun request interval w).1 = (runInterval (ofRequest request) interval w).1 ∧
      (NothingLost request interval w ↔
        (∀ x ∈ receivedElements request interval w, x.isObj = true) ∨
        (∃ log, .obj log ∈ receivedElements request interval w ∧ Refused interval log) ∨
        BrokenOff (exchanged request interval w)) := by
  constructor
  · exact (runInterval_simulates (request_recorded request) interval w (recording w)
      ⟨rfl, rfl, rfl⟩).1.symm
  · have hlands := recordedRun_lands request interval w
    cases h : (prepareRows (ofRequest request) interval w.rpc).1 with
    | error e =>
      refine iff_of_true (nothingLost_of_stopped h) ?_
      rcases hlands with hnone | hlands | hrefused
      · exact .inl (by simp [hnone])
      · rw [h] at hlands
        exact .inr (.inr (not_not.mp fun hnot => Bool.false_ne_true (hlands.mpr hnot)))
      · exact .inr (.inl hrefused)
    | ok prepared =>
      constructor
      · exact fun hn => .inl (hn.objects h)
      · rintro (hobjects | ⟨log, hlog, hrefused⟩ | hbroken)
        · exact nothingLost_of_objects h hobjects
        · exact absurd hrefused (prepared_not_refused h hlog)
        · rcases hlands with hnone | hlands | ⟨log, hlog, hrefused⟩
          · exact nothingLost_of_objects h (by simp [hnone])
          · rw [h] at hlands
            exact absurd hbroken (hlands.mp rfl)
          · exact absurd hrefused (prepared_not_refused h hlog)

def nullLog : JsonRpc Unit := fun call =>
  if call.method = "eth_getLogs" then pure (.arr [.null])
  else if call.method = "eth_chainId" then pure (.str "0x1".toList)
  else match call.params with
    | .str blockRef :: _ => pure (.obj (BlockRange.blockPayload (((intBase16 blockRef).getD 4).toNat)))
    | _ => pure .null

def quietDbt : Interval Unit := { failingDbt with dbtRunner := fun _ _ _ _ => pure [] }

theorem runInterval_loses_null : ¬ NothingLost nullLog quietDbt ⟨(), none, ()⟩ := by
  intro h
  have hok : (runInterval (ofRequest nullLog) quietDbt ⟨(), none, ()⟩).1.isOk = true := by
    decide +kernel
  have hnull : (receivedElements nullLog quietDbt ⟨(), none, ()⟩).any (fun x => !x.isObj) = true := by
    decide +kernel
  obtain ⟨x, hx, hnot⟩ := List.any_eq_true.mp hnull
  obtain ⟨log, row, rfl, -⟩ := h.kept hok x hx
  cases hnot

end EthereumLogs.Pipeline
