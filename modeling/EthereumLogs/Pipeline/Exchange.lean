import EthereumLogs.Pipeline.MalformedLogs
import EthereumLogs.Pipeline.Simulation

namespace EthereumLogs.Pipeline
open Python Effect EthereumJsonRpcClient BlockRange

abbrev Exchange := Trace RpcCall Exc Json

variable {ρ ω : Type}

def recordedRequest (request : JsonRpc ρ) : JsonRpc (ρ × Exchange) :=
  fun call => record call (request call)

def arrayElements : Json → List Json
  | .arr elements => elements
  | _ => []

def logElements (exchange : Exchange) : List Json :=
  (answers exchange).flatMap fun a => if a.1.method = "eth_getLogs" then arrayElements a.2 else []

theorem logElements_answered (exchange : Exchange) (call : RpcCall) (answer : Json) :
    logElements (exchange ++ [(call, .ok answer)]) = logElements exchange ++
      if call.method = "eth_getLogs" then arrayElements answer else [] := by
  simp [logElements]

theorem logElements_failed (exchange : Exchange) (call : RpcCall) (e : Exc) :
    logElements (exchange ++ [(call, .error e)]) = logElements exchange := by
  simp [logElements]

section Gathering

variable {request : JsonRpc ρ} {E : List Json}

def SameElements (E : List Json) (s : ρ) (t : ρ × Exchange) : Prop :=
  s = t.1 ∧ logElements t.2 = E

theorem recordedRequest_keeps (request : JsonRpc ρ) (E : List Json) (call : RpcCall)
    (hmethod : call.method ≠ "eth_getLogs") :
    Simulates (SameElements E) (request call) (recordedRequest request call) := by
  rintro s ⟨s', exchange⟩ ⟨rfl, hE⟩
  refine ⟨rfl, rfl, ?_⟩
  rw [recordedRequest, record]
  cases (request call s).1 with
  | error e => rwa [logElements_failed]
  | ok answer => rwa [logElements_answered, if_neg hmethod, List.append_nil]

theorem elements_kept {α : Type} {m : Action ρ α} {m' : Action (ρ × Exchange) α}
    {t : ρ × Exchange} (h : Simulates (SameElements (logElements t.2)) m m') :
    Eff.wp m' t (fun _ u => logElements u.2 = logElements t.2) := (h t.1 t ⟨rfl, rfl⟩).2.2

def Gathered (E : List Json) (r : Except Exc (List RawLog)) (t : ρ × Exchange) : Prop :=
  ∀ logs, r = .ok logs → ∃ gathered, logElements t.2 = E ++ gathered ∧
    logs = gathered.filterMap asObject

theorem gathered_error (E : List Json) (e : Exc) (t : ρ × Exchange) : Gathered E (.error e) t := by
  intro logs h
  cases h

theorem mem_objects {elements : List Json} {log : RawLog} :
    log ∈ elements.filterMap asObject ↔ .obj log ∈ elements := by
  rw [List.mem_filterMap]
  constructor
  · rintro ⟨x, hx, hobj⟩
    cases x with
    | obj fields =>
      cases hobj
      exact hx
    | _ => cases hobj
  · exact fun hlog => ⟨.obj log, hlog, rfl⟩

theorem Gathered.object {logs : List RawLog} {log : RawLog} {t : ρ × Exchange}
    (h : Gathered E (.ok logs) t) (hlog : log ∈ logs) : .obj log ∈ logElements t.2 := by
  obtain ⟨gathered, helements, rfl⟩ := h logs rfl
  rw [helements]
  exact List.mem_append_right _ (mem_objects.mp hlog)

theorem Gathered.append {F : List Json} {left right : List RawLog} {t u : ρ × Exchange}
    (h : Gathered E (.ok left) t) (hF : F = logElements t.2)
    (h' : Gathered F (.ok right) u) : Gathered E (.ok (left ++ right)) u := by
  intro logs hlogs
  cases hlogs
  obtain ⟨xs, hxs, rfl⟩ := h left rfl
  obtain ⟨ys, hys, rfl⟩ := h' right rfl
  exact ⟨xs ++ ys, by rw [hys, hF, hxs, List.append_assoc], by rw [List.filterMap_append]⟩

theorem ethGetLogs_gathers (request : JsonRpc ρ) (fromBlock toBlock : Int) (address : Option Text)
    (topics : List Text) (t : ρ × Exchange) :
    Eff.wp (ethGetLogs (recordedRequest request) fromBlock toBlock address topics) t
      (fun r u => Gathered (logElements t.2) r u ∧
        ∀ e, r = .error e → logElements u.2 = logElements t.2) := by
  rw [ethGetLogs]
  split_ifs
  · exact ⟨gathered_error _ _ _, fun _ _ => rfl⟩
  · exact ⟨gathered_error _ _ _, fun _ _ => rfl⟩
  · rw [Eff.wp_bind, recordedRequest, wp_record, Eff.wp_iff]
    rcases request ⟨"eth_getLogs", [.obj (logParams fromBlock toBlock address topics)]⟩ t.1
      with ⟨e | result, s⟩
    · exact ⟨gathered_error _ _ _, fun _ _ => logElements_failed _ _ _⟩
    · cases result with
      | arr rows =>
        refine ⟨?_, fun _ h => by cases h⟩
        intro logs hlogs
        cases hlogs
        exact ⟨rows, logElements_answered _ _ _, rfl⟩
      | _ =>
        refine ⟨gathered_error _ _ _, fun _ _ => ?_⟩
        exact (logElements_answered _ _ _).trans (by simp [arrayElements])

theorem collectChunk_gathers (request : JsonRpc ρ) (scope : CollectionScope) (chunk : BlockChunk)
    (t : ρ × Exchange) :
    Eff.wp (collectChunk (ofRequest (recordedRequest request)).toLogRpcClient chunk scope) t
      (Gathered (logElements t.2)) := by
  induction chunk using BlockChunk.halving generalizing t with
  | step chunk ih =>
    rw [collectChunk]
    refine Eff.wp_catch (ethGetLogs_gathers request _ _ _ _ t) ?_ ?_
    · intro logs u h
      exact h.1
    · intro err u h
      have hsame := h.2 err rfl
      split_ifs with hretry hone
      · exact gathered_error _ _ _
      · obtain ⟨ihl, ihr⟩ := ih hone
        refine Eff.wp_seq (ihl u) ?_ ?_
        · intro left v hleft
          rw [hsame] at hleft
          refine Eff.wp_seq (ihr v) ?_ ?_
          · intro right v' hright
            exact hleft.append rfl hright
          · intro e v' _
            exact gathered_error _ _ _
        · intro e v _
          exact gathered_error _ _ _
      · exact gathered_error _ _ _

theorem collectChunks_gathers (request : JsonRpc ρ) (scope : CollectionScope)
    (chunks : List BlockChunk) (t : ρ × Exchange) :
    Eff.wp (collectChunks (ofRequest (recordedRequest request)).toLogRpcClient scope chunks) t
      (Gathered (logElements t.2)) := by
  induction chunks generalizing t with
  | nil =>
    intro logs hlogs
    cases hlogs
    exact ⟨[], (List.append_nil _).symm, rfl⟩
  | cons chunk chunks ih =>
    refine Eff.wp_seq (collectChunk_gathers request scope chunk t) ?_ ?_
    · intro logs u hlogs
      refine Eff.wp_seq (ih u) ?_ ?_
      · intro rest v hrest
        exact hlogs.append rfl hrest
      · intro e v _
        exact gathered_error _ _ _
    · intro e u _
      exact gathered_error _ _ _

theorem collectRawLogs_gathers (request : JsonRpc ρ) (fromBlock toBlock : Int)
    (scope : CollectionScope) (maxBlocks : Int) (t : ρ × Exchange) :
    Eff.wp (collectRawLogs (ofRequest (recordedRequest request)).toLogRpcClient fromBlock toBlock
      scope maxBlocks) t (Gathered (logElements t.2)) := by
  rw [collectRawLogs]
  cases scope.validate with
  | error e => exact gathered_error _ _ _
  | ok _ =>
    rw [Eff.ofExcept_ok_bind]
    cases iterBlockChunks fromBlock toBlock maxBlocks with
    | error e => exact gathered_error _ _ _
    | ok chunks => exact collectChunks_gathers request scope chunks t

theorem fetchLogs_gathers (request : JsonRpc ρ) (settings : PipelineSettings)
    (start stop : Instant) (t : ρ × Exchange) (ht : logElements t.2 = []) :
    Eff.wp (fetchLogs (ofRequest (recordedRequest request)) settings start stop) t
      (fun r u => ∀ fetched, r = .ok fetched →
        fetched.rawLogs = (logElements u.2).filterMap asObject) := by
  have hkeeps := fun E => recordedRequest_keeps request E
  refine Eff.wp_seq (elements_kept (t := t) (ofRequest_chainId (hkeeps _))) ?_ (by simp)
  intro chainId u hu
  split_ifs
  · simp [Eff.wp_throw]
  · refine Eff.wp_seq (elements_kept (t := u)
      (BlockRange.resolve_simulates (ofRequest_lookups (hkeeps _)) _ _)) ?_ (by simp)
    intro range v hv
    refine Eff.wp_seq (collectRawLogs_gathers request range.fromBlock range.toBlock
      settings.collectionScope settings.maxBlocksPerLogRequest v) ?_ (by simp)
    intro rawLogs v' hlogs
    refine Eff.wp_seq (elements_kept (t := v')
      (loadBlockTimestamps_simulates (ofRequest_lookups (hkeeps _)) rawLogs)) ?_ (by simp)
    intro timestamps u' hu' fetched hfetched
    cases hfetched
    obtain ⟨gathered, helements, rfl⟩ := hlogs rawLogs rfl
    change logElements u'.2 = _ at hu'
    rw [hv, hu, ht, List.nil_append] at helements
    change _ = (logElements u'.2).filterMap asObject
    rw [hu', helements]

theorem prepareRows_gathers {interval : Interval ω} {prepared : Prepared} {s : ρ}
    (h : (prepareRows (ofRequest (recordedRequest request)) interval (s, [])).1 = .ok prepared) :
    prepared.fetched.rawLogs =
      (logElements (prepareRows (ofRequest (recordedRequest request)) interval (s, [])).2.2).filterMap
        asObject := by
  have hspec : Eff.wp (prepareRows (ofRequest (recordedRequest request)) interval) (s, [])
      (fun r u => ∀ prepared, r = .ok prepared →
        prepared.fetched.rawLogs = (logElements u.2).filterMap asObject) := by
    rw [prepareRows]
    cases normalizeIntervalBounds interval.startUtc interval.endUtc with
    | error e =>
      intro prepared hprepared
      cases hprepared
    | ok bounds =>
      rw [Eff.ofExcept_ok_bind]
      refine Eff.wp_seq (fetchLogs_gathers request _ _ _ (s, []) rfl) ?_ (by simp)
      intro fetched u hfetched
      cases normalizeFetched interval.settings bounds.1 bounds.2 interval.now fetched with
      | error e =>
        intro prepared hprepared
        cases hprepared
      | ok normalized =>
        intro prepared hprepared
        cases hprepared
        exact hfetched fetched rfl
  exact hspec prepared h

end Gathering

section Breaking

variable {α : Type} {request : JsonRpc ρ} {t : ρ × Exchange}

def Unreadable (call : RpcCall) (answer : Json) : Prop :=
  (call.method = "eth_getLogs" ∧ ∀ rows, answer ≠ .arr rows) ∨
    (call.method = "eth_getBlockByNumber" ∧
      ∀ block, asObject answer = some block → (blockTimestampFromPayload block).isOk = false)

def BrokenOff (exchange : Exchange) : Prop :=
  ∃ earlier call r, exchange = earlier ++ [(call, r)] ∧ ∀ answer, r = .ok answer → Unreadable call answer

theorem brokenOff_append {exchange : Exchange} {call : RpcCall} {r : Except Exc Json} :
    BrokenOff (exchange ++ [(call, r)]) ↔ ∀ answer, r = .ok answer → Unreadable call answer := by
  constructor
  · rintro ⟨earlier, call', r', hsame, hbad⟩
    obtain ⟨-, hlast⟩ := List.append_inj' hsame rfl
    cases hlast
    exact hbad
  · exact fun hbad => ⟨exchange, call, r, rfl, hbad⟩

theorem brokenOff_failed (exchange : Exchange) (call : RpcCall) (e : Exc) :
    BrokenOff (exchange ++ [(call, .error e)]) :=
  brokenOff_append.mpr fun _ h => nomatch h

theorem brokenOff_answered (exchange : Exchange) (call : RpcCall) (answer : Json) :
    BrokenOff (exchange ++ [(call, .ok answer)]) ↔ Unreadable call answer := by
  rw [brokenOff_append]
  exact ⟨fun h => h answer rfl, fun h _ he => Except.ok.inj he ▸ h⟩

def Lands (r : Except Exc α) (t : ρ × Exchange) : Prop := r.isOk = true ↔ ¬ BrokenOff t.2

theorem lands_ok {a : α} (h : ¬ BrokenOff t.2) : Lands (.ok a : Except Exc α) t :=
  iff_of_true rfl h

theorem lands_error {e : Exc} (h : BrokenOff t.2) : Lands (.error e : Except Exc α) t :=
  iff_of_false Bool.false_ne_true (not_not.mpr h)

theorem Lands.standing {a : α} (h : Lands (.ok a : Except Exc α) t) : ¬ BrokenOff t.2 := h.mp rfl

theorem Lands.broken {e : Exc} (h : Lands (.error e : Except Exc α) t) : BrokenOff t.2 :=
  not_not.mp fun hnot => Bool.false_ne_true (h.mpr hnot)

theorem lands_bind {β : Type} {m : Action (ρ × Exchange) α} {f : α → Action (ρ × Exchange) β}
    (hm : Eff.wp m t Lands) (hf : ∀ a u, ¬ BrokenOff u.2 → Eff.wp (f a) u Lands) :
    Eff.wp (m >>= f) t Lands := by
  apply Eff.wp_seq hm
  · intro a u h
    exact hf a u h.standing
  · intro e u h
    exact lands_error h.broken

theorem ethGetLogs_lands (request : JsonRpc ρ) (chunk : BlockChunk)
    (hcount : chunk.blockCount ≤ maxBlocksPerLogRequest) (address : Option Text) {topics : List Text}
    (htopics : topics ≠ []) (t : ρ × Exchange) :
    Eff.wp (ethGetLogs (recordedRequest request) chunk.fromBlock chunk.toBlock address topics) t
      Lands := by
  have hordered := chunk.ordered
  rw [BlockChunk.blockCount] at hcount
  rw [ethGetLogs, if_neg (by omega), if_neg fun h => htopics h.2, Eff.wp_bind, recordedRequest,
    wp_record, Eff.wp_iff]
  rcases request ⟨"eth_getLogs", [.obj (logParams chunk.fromBlock chunk.toBlock address topics)]⟩ t.1
    with ⟨e | result, s⟩
  · exact lands_error (brokenOff_failed _ _ e)
  · cases result with
    | arr rows =>
      refine lands_ok fun hbroken => ?_
      rcases (brokenOff_answered _ _ _).mp hbroken with ⟨-, hrows⟩ | ⟨hmethod, -⟩
      · exact hrows rows rfl
      · simp at hmethod
    | _ =>
      refine lands_error ((brokenOff_answered _ _ _).mpr (.inl ⟨rfl, ?_⟩))
      intro rows h
      cases h

theorem collectChunk_lands (request : JsonRpc ρ) {scope : CollectionScope}
    (hscope : scope.topics ≠ []) (chunk : BlockChunk) (t : ρ × Exchange)
    (hcount : chunk.blockCount ≤ maxBlocksPerLogRequest) :
    Eff.wp (collectChunk (ofRequest (recordedRequest request)).toLogRpcClient chunk scope) t
      Lands := by
  induction chunk using BlockChunk.halving generalizing t with
  | step chunk ih =>
    rw [collectChunk]
    refine Eff.wp_catch (ethGetLogs_lands request chunk hcount _ hscope t) (fun _ _ h => h) ?_
    intro e u h
    split_ifs with hretry hone
    · exact lands_error h.broken
    · obtain ⟨ihl, ihr⟩ := ih hone
      have hmid := chunk.mid_lt hone
      rw [BlockChunk.blockCount] at hcount
      refine lands_bind (ihl u (by simp only [BlockChunk.blockCount, BlockChunk.left]; omega)) ?_
      intro left v _
      refine lands_bind (ihr v (by simp only [BlockChunk.blockCount, BlockChunk.right]; omega)) ?_
      intro right v' hv
      exact lands_ok hv
    · exact lands_error h.broken

theorem collectChunks_lands (request : JsonRpc ρ) {scope : CollectionScope}
    (hscope : scope.topics ≠ []) {chunks : List BlockChunk}
    (hcounts : ∀ chunk ∈ chunks, chunk.blockCount ≤ maxBlocksPerLogRequest) (t : ρ × Exchange)
    (hstart : chunks ≠ [] ∨ ¬ BrokenOff t.2) :
    Eff.wp (collectChunks (ofRequest (recordedRequest request)).toLogRpcClient scope chunks) t
      Lands := by
  induction chunks generalizing t with
  | nil => exact lands_ok (hstart.resolve_left fun h => h rfl)
  | cons chunk chunks ih =>
    refine lands_bind (collectChunk_lands request hscope chunk t (hcounts chunk (by simp))) ?_
    intro logs u hu
    refine lands_bind (ih (fun c hc => hcounts c (by simp [hc])) u (.inr hu)) ?_
    intro rest v hv
    exact lands_ok hv

theorem collectRawLogs_lands (request : JsonRpc ρ) (fromBlock toBlock : Int)
    (scope : CollectionScope) (maxBlocks : Int) (t : ρ × Exchange) :
    Eff.wp (collectRawLogs (ofRequest (recordedRequest request)).toLogRpcClient fromBlock toBlock
      scope maxBlocks) t (fun r u => Lands r u ∨ u.2 = t.2 ∧ r.isOk = false) := by
  rw [collectRawLogs]
  rcases hvalid : scope.validate with e | _
  · exact .inr ⟨rfl, rfl⟩
  · rw [Eff.ofExcept_ok_bind]
    rcases hchunks : iterBlockChunks fromBlock toBlock maxBlocks with e | chunks
    · exact .inr ⟨rfl, rfl⟩
    · obtain ⟨h0, hle, hmax, hcap⟩ := iterBlockChunks_ok hchunks
      obtain ⟨chunks', hsame, htiles, hcounts⟩ := iterBlockChunks_tiles h0 hle hmax hcap
      cases hchunks.symm.trans hsame
      have htopics : scope.topics ≠ [] := by
        rw [scope.validate_ok_iff.mp hvalid]
        exact List.cons_ne_nil _ _
      refine Eff.wp_mono (collectChunks_lands request htopics
        (fun c hc => (hcounts c hc).trans hcap) t (.inl ?_)) fun r u h => .inl h
      rintro rfl
      cases htiles
      omega

theorem readTimestamp_lands {β : Type} (request : JsonRpc ρ) (n : Int) (t : ρ × Exchange)
    {f : Instant → Action (ρ × Exchange) β}
    (hf : ∀ time u, ¬ BrokenOff u.2 → Eff.wp (f time) u Lands) :
    Eff.wp ((ofRequest (recordedRequest request)).ethGetBlockByNumber n >>= fun block =>
      Eff.ofExcept (blockTimestampFromPayload block) >>= f) t Lands := by
  rw [Eff.wp_bind]
  change Eff.wp (ethGetBlock (recordedRequest request) (hex n) false) t _
  rw [ethGetBlock, Eff.wp_bind, recordedRequest, wp_record, Eff.wp_iff]
  rcases request ⟨"eth_getBlockByNumber", [.str (hex n), .bool false]⟩ t.1 with ⟨e | result, s⟩
  · exact lands_error (brokenOff_failed _ _ e)
  · dsimp only
    cases hblock : asObject result with
    | none =>
      refine lands_error ((brokenOff_answered _ _ _).mpr (.inr ⟨rfl, ?_⟩))
      intro block hsome
      rw [hblock] at hsome
      cases hsome
    | some block =>
      rw [Eff.wp_pure]
      dsimp only
      cases htime : blockTimestampFromPayload block with
      | error e =>
        refine lands_error ((brokenOff_answered _ _ _).mpr (.inr ⟨rfl, ?_⟩))
        intro block' hsome
        cases hblock.symm.trans hsome
        rw [htime]
        rfl
      | ok time =>
        rw [Eff.ofExcept_ok_bind]
        refine hf time _ fun hbroken => ?_
        rcases (brokenOff_answered _ _ _).mp hbroken with ⟨hmethod, -⟩ | ⟨-, hunread⟩
        · simp at hmethod
        · have hread := hunread block hblock
          rw [htime] at hread
          cases hread

theorem lookupTimestamps_lands (request : JsonRpc ρ) (numbers : List Int) (t : ρ × Exchange)
    (ht : ¬ BrokenOff t.2) :
    Eff.wp (lookupTimestamps (ofRequest (recordedRequest request)) numbers) t Lands := by
  induction numbers generalizing t with
  | nil => exact lands_ok ht
  | cons n numbers ih =>
    rw [lookupTimestamps]
    refine readTimestamp_lands request n t fun time u hu => ?_
    refine lands_bind (ih u hu) ?_
    intro timestamps v hv
    exact lands_ok hv

theorem loadBlockTimestamps_lands (request : JsonRpc ρ) (rawLogs : List RawLog) (t : ρ × Exchange)
    (ht : ¬ BrokenOff t.2) :
    Eff.wp (loadBlockTimestamps (ofRequest (recordedRequest request)) rawLogs) t (fun r u => Lands r u ∨
      ∃ rawLog ∈ rawLogs, ¬ BlockNumberParses rawLog) := by
  by_cases hparses : ∀ rawLog ∈ rawLogs, BlockNumberParses rawLog
  · obtain ⟨numbers, hnumbers⟩ := blockNumbers_parsed hparses
    rw [loadBlockTimestamps, hnumbers, Eff.ofExcept_ok_bind]
    exact Eff.wp_mono (lookupTimestamps_lands request _ t ht) fun r u h => .inl h
  · push Not at hparses
    exact .inr hparses

theorem fetchLogs_lands (request : JsonRpc ρ) (settings : PipelineSettings) (start stop : Instant)
    (t : ρ × Exchange) (ht : logElements t.2 = []) :
    Eff.wp (fetchLogs (ofRequest (recordedRequest request)) settings start stop) t
      (fun r u => logElements u.2 = [] ∨ Lands r u ∨
        ∃ log, .obj log ∈ logElements u.2 ∧ ¬ BlockNumberParses log) := by
  have hkeeps := fun E => recordedRequest_keeps request E
  refine Eff.wp_seq (elements_kept (t := t) (ofRequest_chainId (hkeeps _))) ?_
    (fun e u hu => .inl (hu.trans ht))
  intro chainId u hu
  split_ifs
  · exact .inl (hu.trans ht)
  · refine Eff.wp_seq (elements_kept (t := u)
      (BlockRange.resolve_simulates (ofRequest_lookups (hkeeps _)) _ _)) ?_
        (fun e v hv => .inl (hv.trans (hu.trans ht)))
    intro range v hv
    refine Eff.wp_seq (Eff.wp_and (collectRawLogs_lands request range.fromBlock range.toBlock
      settings.collectionScope settings.maxBlocksPerLogRequest v)
      (collectRawLogs_gathers request range.fromBlock range.toBlock settings.collectionScope
        settings.maxBlocksPerLogRequest v)) ?_ ?_
    · rintro rawLogs v' ⟨hlands, hlogs⟩
      have hstanding : ¬ BrokenOff v'.2 := by
        rcases hlands with hlands | ⟨-, hfailed⟩
        · exact hlands.standing
        · cases hfailed
      refine Eff.wp_seq (Eff.wp_and (loadBlockTimestamps_lands request rawLogs v' hstanding)
        (elements_kept (t := v') (loadBlockTimestamps_simulates (ofRequest_lookups (hkeeps _)) rawLogs)))
        ?_ ?_
      · rintro timestamps u' ⟨hload, hsame⟩
        rcases hload with hload | ⟨log, hlog, hbad⟩
        · exact .inr (.inl (lands_ok hload.standing))
        · refine .inr (.inr ⟨log, ?_, hbad⟩)
          change _ ∈ logElements u'.2
          rw [hsame]
          exact hlogs.object hlog
      · rintro e u' ⟨hload, hsame⟩
        rcases hload with hload | ⟨log, hlog, hbad⟩
        · exact .inr (.inl (lands_error hload.broken))
        · exact .inr (.inr ⟨log, hsame ▸ hlogs.object hlog, hbad⟩)
    · rintro e v' ⟨hlands, -⟩
      rcases hlands with hlands | ⟨hsame, -⟩
      · exact .inr (.inl (lands_error hlands.broken))
      · left
        rw [hsame]
        exact hv.trans (hu.trans ht)

end Breaking

end EthereumLogs.Pipeline
