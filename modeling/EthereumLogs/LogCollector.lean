import EthereumLogs.Config

namespace EthereumLogs
open Python Effect Tiling

abbrev RawLog := JsonObject

structure LogRpcClient (σ : Type) where
  ethGetLogs : (fromBlock toBlock : Int) → (address : Option Text) → (topics : List Text) →
    Action σ (List RawLog)

variable {σ : Type}

def collectChunk (client : LogRpcClient σ) (chunk : BlockChunk) (scope : CollectionScope) :
    Action σ (List RawLog) :=
  tryCatch (client.ethGetLogs chunk.fromBlock chunk.toBlock scope.addressFilter scope.topics)
    fun exc =>
      if exc.isRetryableRpcError then
        if h : chunk.fromBlock = chunk.toBlock then
          throw (.logCollectionError "eth_getLogs failed after splitting down to a single block."
            (some (chunk.fromBlock, chunk.toBlock)))
        else do
          let left ← collectChunk client (chunk.left h) scope
          let right ← collectChunk client (chunk.right h) scope
          pure (left ++ right)
      else throw exc
termination_by (chunk.toBlock - chunk.fromBlock).toNat
decreasing_by
  all_goals
    have := chunk.mid_lt h
    simp only [BlockChunk.left, BlockChunk.right]
    omega

def collectChunks (client : LogRpcClient σ) (scope : CollectionScope) :
    List BlockChunk → Action σ (List RawLog)
  | [] => pure []
  | chunk :: chunks => do
    let logs ← collectChunk client chunk scope
    let rest ← collectChunks client scope chunks
    pure (logs ++ rest)

def collectRawLogs (client : LogRpcClient σ) (fromBlock toBlock : Int) (scope : CollectionScope)
    (maxBlocks : Int) : Action σ (List RawLog) := do
  Eff.ofExcept scope.validate
  let chunks ← Eff.ofExcept (iterBlockChunks fromBlock toBlock maxBlocks)
  collectChunks client scope chunks

namespace LogCollector

abbrev Calls := Trace (Int × Int) Exc (List RawLog)

def recorded (client : LogRpcClient σ) : LogRpcClient (σ × Calls) where
  ethGetLogs fromBlock toBlock address topics :=
    record (fromBlock, toBlock) (client.ethGetLogs fromBlock toBlock address topics)

def AnswersOrRpcError (client : LogRpcClient σ) : Prop :=
  ∀ fromBlock toBlock address topics s e,
    (client.ethGetLogs fromBlock toBlock address topics s).1 = .error e → e.isRpcError = true

def Keeps (client : LogRpcClient σ) (scope : CollectionScope)
    (Promise : Int × Int → Except Exc (List RawLog) → Prop) : Prop :=
  ∀ fromBlock toBlock s, Promise (fromBlock, toBlock)
    (client.ethGetLogs fromBlock toBlock scope.addressFilter scope.topics s).1

abbrev firstBlock (answered : (Int × Int) × List RawLog) : Int := answered.1.1
abbrev lastBlock (answered : (Int × Int) × List RawLog) : Int := answered.1.2

def StoppedBy (e : Exc) (calls : Calls) : Prop :=
  ∃ earlier range err, calls = earlier ++ [(range, .error err)] ∧
    ((err.isRetryableRpcError = true ∧ range.1 = range.2 ∧
        ∃ message, e = .logCollectionError message (some range)) ∨
      (err.isRetryableRpcError = false ∧ e = err))

structure Collected (Promise : Int × Int → Except Exc (List RawLog) → Prop)
    (maxBlocks lo hi : Int) (r : Except Exc (List RawLog)) (calls : Calls) : Prop where
  inside : ∀ c ∈ calls, lo ≤ c.1.1 ∧ c.1.1 ≤ c.1.2 ∧ c.1.2 ≤ hi ∧ c.1.2 - c.1.1 + 1 ≤ maxBlocks
  kept : ∀ c ∈ calls, Promise c.1 c.2
  covered : ∀ logs, r = .ok logs →
    Tiles firstBlock lastBlock lo (hi + 1) (answers calls) ∧
      logs = (answers calls).flatMap Prod.snd
  stopped : ∀ e, r = .error e → StoppedBy e calls

variable {maxBlocks lo mid hi : Int} {calls later : Calls}
  {Promise : Int × Int → Except Exc (List RawLog) → Prop}

theorem StoppedBy.prepend {e : Exc} (h : StoppedBy e later) (calls : Calls) :
    StoppedBy e (calls ++ later) := by
  obtain ⟨earlier, range, err, rfl, hcase⟩ := h
  exact ⟨calls ++ earlier, range, err, by rw [List.append_assoc], hcase⟩

theorem Collected.widen {r : Except Exc (List RawLog)} {e : Exc} (hr : r = .error e)
    (h : Collected Promise maxBlocks lo mid r calls) (hle : mid ≤ hi) :
    Collected Promise maxBlocks lo hi (.error e) calls := by
  subst hr
  refine ⟨fun c hc => ?_, h.kept, by simp, h.stopped⟩
  obtain ⟨h1, h2, h3, h4⟩ := h.inside c hc
  exact ⟨h1, h2, h3.trans hle, h4⟩

theorem Collected.append {logs : List RawLog} {r : Except Exc (List RawLog)}
    (h : Collected Promise maxBlocks lo mid (.ok logs) calls)
    (h' : Collected Promise maxBlocks (mid + 1) hi r later) (hlo : lo ≤ mid + 1) (hhi : mid ≤ hi) :
    Collected Promise maxBlocks lo hi (r.map (logs ++ ·)) (calls ++ later) := by
  obtain ⟨htiles, hlogs⟩ := h.covered logs rfl
  refine ⟨?_, ?_, ?_, ?_⟩
  · intro c hc
    rcases List.mem_append.mp hc with hc | hc
    · obtain ⟨h1, h2, h3, h4⟩ := h.inside c hc
      exact ⟨h1, h2, h3.trans hhi, h4⟩
    · obtain ⟨h1, h2, h3, h4⟩ := h'.inside c hc
      exact ⟨hlo.trans h1, h2, h3, h4⟩
  · intro c hc
    rcases List.mem_append.mp hc with hc | hc
    · exact h.kept c hc
    · exact h'.kept c hc
  · intro all hall
    rcases r with e | rest
    · simp [Except.map] at hall
    · simp only [Except.map, Except.ok.injEq] at hall
      obtain ⟨htiles', hrest⟩ := h'.covered rest rfl
      rw [answers_append]
      exact ⟨htiles.append htiles', by rw [← hall, hlogs, hrest, List.flatMap_append]⟩
  · intro e he
    rcases r with e' | rest
    · simp only [Except.map, Except.error.injEq] at he
      exact (h'.stopped e (by rw [he])).prepend calls
    · simp [Except.map] at he

theorem Collected.after_failure {r : Except Exc (List RawLog)} {range : Int × Int} {err : Exc}
    (h : Collected Promise maxBlocks lo hi r later) (herr : Promise range (.error err))
    (hrange : lo ≤ range.1 ∧ range.1 ≤ range.2 ∧ range.2 ≤ hi ∧ range.2 - range.1 + 1 ≤ maxBlocks) :
    Collected Promise maxBlocks lo hi r ((range, .error err) :: later) := by
  refine ⟨?_, ?_, ?_, fun e he => (h.stopped e he).prepend [_]⟩
  · intro c hc
    rcases List.mem_cons.mp hc with rfl | hc
    · exact hrange
    · exact h.inside c hc
  · intro c hc
    rcases List.mem_cons.mp hc with rfl | hc
    · exact herr
    · exact h.kept c hc
  · intro logs hlogs
    rw [answers_error]
    exact h.covered logs hlogs

def Extends (Promise : Int × Int → Except Exc (List RawLog) → Prop) (maxBlocks lo hi : Int)
    (calls : Calls) (r : Except Exc (List RawLog))
    (t : σ × Calls) : Prop :=
  ∃ later, t.2 = calls ++ later ∧ Collected Promise maxBlocks lo hi r later

theorem answered_collected (a b : Int) (logs : List RawLog) (hle : a ≤ b)
    (hmax : b - a + 1 ≤ maxBlocks) (hkept : Promise (a, b) (.ok logs)) :
    Collected Promise maxBlocks a b (.ok logs) [((a, b), .ok logs)] := by
  refine ⟨?_, by simpa using hkept, ?_, by simp⟩
  · intro c hc
    simp only [List.mem_singleton] at hc
    subst hc
    exact ⟨le_rfl, hle, le_rfl, hmax⟩
  · intro logs' h
    simp only [Except.ok.injEq] at h
    subst h
    exact ⟨Tiles.single (((a, b), logs) : (Int × Int) × List RawLog) hle, by simp⟩

theorem failed_collected (a b : Int) {err e : Exc} (hle : a ≤ b)
    (hmax : b - a + 1 ≤ maxBlocks) (herr : Promise (a, b) (.error err))
    (h : StoppedBy e [((a, b), .error err)]) :
    Collected Promise maxBlocks a b (.error e) [((a, b), .error err)] := by
  refine ⟨?_, by simpa using herr, by simp, ?_⟩
  · intro c hc
    simp only [List.mem_singleton] at hc
    subst hc
    exact ⟨le_rfl, hle, le_rfl, hmax⟩
  · intro e' he
    simp only [Except.error.injEq] at he
    exact he ▸ h

theorem ethGetLogs_recorded {client : LogRpcClient σ} {scope : CollectionScope}
    (hclient : Keeps client scope Promise) (chunk : BlockChunk) (s : σ) (calls : Calls) :
    Eff.wp ((recorded client).ethGetLogs chunk.fromBlock chunk.toBlock scope.addressFilter
      scope.topics) (s, calls)
      (fun r t => t.2 = calls ++ [((chunk.fromBlock, chunk.toBlock), r)] ∧
        Promise (chunk.fromBlock, chunk.toBlock) r) :=
  ⟨rfl, hclient _ _ s⟩

theorem halves_collected {chunk : BlockChunk} (hone : chunk.fromBlock ≠ chunk.toBlock)
    {logs : List RawLog} {r : Except Exc (List RawLog)}
    (hl : Collected Promise maxBlocks (chunk.left hone).fromBlock (chunk.left hone).toBlock
      (.ok logs) calls)
    (hr : Collected Promise maxBlocks (chunk.right hone).fromBlock (chunk.right hone).toBlock r
      later) :
    Collected Promise maxBlocks chunk.fromBlock chunk.toBlock (r.map (logs ++ ·))
      (calls ++ later) := by
  obtain ⟨hleft, hright⟩ := chunk.mid_lt hone
  exact hl.append hr (hleft.trans (by simp [BlockChunk.left])) (by
    simp only [BlockChunk.left]
    omega)

theorem halves_count {chunk : BlockChunk} (hone : chunk.fromBlock ≠ chunk.toBlock)
    (hcount : chunk.blockCount ≤ maxBlocks) :
    (chunk.left hone).blockCount ≤ maxBlocks ∧ (chunk.right hone).blockCount ≤ maxBlocks := by
  have := chunk.mid_lt hone
  simp only [BlockChunk.blockCount, BlockChunk.left, BlockChunk.right] at hcount ⊢
  omega

theorem collectChunk_spec {client : LogRpcClient σ} {scope : CollectionScope}
    (hclient : Keeps client scope Promise) (chunk : BlockChunk)
    (hcount : chunk.blockCount ≤ maxBlocks) (s : σ) (calls : Calls) :
    Eff.wp (collectChunk (recorded client) chunk scope) (s, calls)
      (Extends Promise maxBlocks chunk.fromBlock chunk.toBlock calls) := by
  induction chunk using BlockChunk.halving generalizing s calls with
  | step chunk ih =>
    have hle := chunk.ordered
    have hmax : chunk.toBlock - chunk.fromBlock + 1 ≤ maxBlocks := hcount
    rw [collectChunk]
    refine Eff.wp_catch (ethGetLogs_recorded hclient chunk s calls) ?_ ?_
    · rintro logs ⟨t, _⟩ ⟨rfl, hkept⟩
      exact ⟨_, rfl, answered_collected _ _ logs hle hmax hkept⟩
    · rintro err ⟨t, _⟩ ⟨rfl, herr⟩
      split_ifs with hretry hone
      · rw [Eff.wp_throw]
        refine ⟨_, rfl, failed_collected _ _ hle hmax herr ?_⟩
        exact ⟨[], _, err, rfl, .inl ⟨hretry, hone, _, rfl⟩⟩
      · obtain ⟨ihl, ihr⟩ := ih hone
        obtain ⟨hcl, hcr⟩ := halves_count hone hcount
        refine Eff.wp_seq (ihl hcl t _) ?_ ?_
        · rintro left ⟨t', _⟩ ⟨later, rfl, hleft⟩
          refine Eff.wp_seq (ihr hcr t' _) ?_ ?_
          · rintro right ⟨t'', _⟩ ⟨later', rfl, hright⟩
            rw [Eff.wp_pure]
            refine ⟨_, by simp only [List.append_assoc, List.singleton_append]; rfl, ?_⟩
            exact (halves_collected hone hleft hright).after_failure herr
              ⟨le_rfl, hle, le_rfl, hmax⟩
          · rintro e ⟨t'', _⟩ ⟨later', rfl, hright⟩
            refine ⟨_, by simp only [List.append_assoc, List.singleton_append]; rfl, ?_⟩
            exact (halves_collected hone hleft hright).after_failure herr
              ⟨le_rfl, hle, le_rfl, hmax⟩
        · rintro e ⟨t', _⟩ ⟨later, rfl, hleft⟩
          refine ⟨_, by simp only [List.append_assoc, List.singleton_append]; rfl, ?_⟩
          have hwide : (chunk.left hone).toBlock ≤ chunk.toBlock := by
            have := chunk.mid_lt hone
            simp only [BlockChunk.left]
            omega
          exact (hleft.widen rfl hwide).after_failure herr
              ⟨le_rfl, hle, le_rfl, hmax⟩
      · rw [Eff.wp_throw]
        refine ⟨_, rfl, failed_collected _ _ hle hmax herr ?_⟩
        exact ⟨[], _, err, rfl, .inr ⟨by simpa using hretry, rfl⟩⟩

section Simulates

variable {τ : Type} {R : σ → τ → Prop} {client : LogRpcClient σ} {client' : LogRpcClient τ}

def LogsSimulate (R : σ → τ → Prop) (client : LogRpcClient σ) (client' : LogRpcClient τ) : Prop :=
  ∀ fromBlock toBlock address topics, Simulates R
    (client.ethGetLogs fromBlock toBlock address topics)
    (client'.ethGetLogs fromBlock toBlock address topics)

theorem recorded_simulates (client : LogRpcClient σ) :
    LogsSimulate (fun s (t : σ × Calls) => s = t.1) client (recorded client) :=
  fun _ _ _ _ => simulates_record _ _

theorem collectChunk_simulates (h : LogsSimulate R client client') (scope : CollectionScope)
    (chunk : BlockChunk) :
    Simulates R (collectChunk client chunk scope) (collectChunk client' chunk scope) := by
  induction chunk using BlockChunk.halving with
  | step chunk ih =>
    rw [collectChunk, collectChunk]
    apply Simulates.tryCatch (h _ _ _ _)
    intro err
    split_ifs with hretry hone
    · exact simulates_throw _
    · obtain ⟨ihl, ihr⟩ := ih hone
      apply ihl.bind
      intro left
      apply ihr.bind
      intro right
      exact simulates_pure _
    · exact simulates_throw _

theorem collectChunks_simulates (h : LogsSimulate R client client') (scope : CollectionScope)
    (chunks : List BlockChunk) :
    Simulates R (collectChunks client scope chunks) (collectChunks client' scope chunks) := by
  induction chunks with
  | nil => exact simulates_pure _
  | cons chunk chunks ih =>
    apply (collectChunk_simulates h scope chunk).bind
    intro logs
    apply ih.bind
    intro rest
    exact simulates_pure _

theorem collectRawLogs_simulates (h : LogsSimulate R client client') (fromBlock toBlock : Int)
    (scope : CollectionScope) (maxBlocks : Int) :
    Simulates R (collectRawLogs client fromBlock toBlock scope maxBlocks)
      (collectRawLogs client' fromBlock toBlock scope maxBlocks) := by
  apply (simulates_ofExcept _).bind
  intro _
  apply (simulates_ofExcept _).bind
  intro chunks
  exact collectChunks_simulates h scope chunks

end Simulates

theorem collectChunks_spec {client : LogRpcClient σ} {scope : CollectionScope}
    (hclient : Keeps client scope Promise) {chunks : List BlockChunk} {stop : Int}
    (htiles : Tiles BlockChunk.fromBlock BlockChunk.toBlock lo stop chunks)
    (hcount : ∀ c ∈ chunks, c.blockCount ≤ maxBlocks) (s : σ) (calls : Calls) :
    Eff.wp (collectChunks (recorded client) scope chunks) (s, calls)
      (Extends Promise maxBlocks lo (stop - 1) calls) := by
  induction htiles generalizing s calls with
  | nil a =>
    rw [collectChunks, Eff.wp_pure]
    refine ⟨[], by simp, by simp, by simp, ?_, by simp⟩
    rintro logs ⟨⟩
    rw [sub_add_cancel]
    exact ⟨.nil a, rfl⟩
  | cons chunk chunks hle rest ih =>
    have hstop := rest.le
    rw [collectChunks]
    refine Eff.wp_seq (collectChunk_spec hclient chunk (hcount _ (by simp)) s calls) ?_ ?_
    · rintro logs ⟨t, _⟩ ⟨later, rfl, hlogs⟩
      have hih := ih (fun c hc => hcount c (by simp [hc])) t (calls ++ later)
      refine Eff.wp_seq hih ?_ ?_
      · rintro more ⟨t', _⟩ ⟨later', rfl, hmore⟩
        rw [Eff.wp_pure]
        exact ⟨_, List.append_assoc .., hlogs.append hmore (by omega) (by omega)⟩
      · rintro e ⟨t', _⟩ ⟨later', rfl, hmore⟩
        exact ⟨_, List.append_assoc .., hlogs.append hmore (by omega) (by omega)⟩
    · rintro e ⟨t, _⟩ ⟨later, rfl, herr⟩
      exact ⟨_, rfl, herr.widen rfl (by omega)⟩

theorem collectRawLogs_spec {client : LogRpcClient σ} {scope : CollectionScope}
    (hclient : Keeps client scope Promise) (hscope : scope.validate = .ok ())
    {fromBlock toBlock : Int} (h0 : 0 ≤ fromBlock) (hle : fromBlock ≤ toBlock)
    (hmax : 1 ≤ maxBlocks) (hcap : maxBlocks ≤ maxBlocksPerLogRequest)
    (s : σ) (calls : Calls) :
    Eff.wp (collectRawLogs (recorded client) fromBlock toBlock scope maxBlocks) (s, calls)
      (Extends Promise maxBlocks fromBlock toBlock calls) := by
  obtain ⟨chunks, hok, htiles, hcount⟩ := iterBlockChunks_tiles h0 hle hmax hcap
  have hspec := collectChunks_spec hclient htiles hcount s calls
  rw [add_sub_cancel_right] at hspec
  rw [collectRawLogs, hscope, hok]
  exact hspec

theorem collectRawLogs_ok {client : LogRpcClient σ} {scope : CollectionScope}
    {fromBlock toBlock : Int} {s : σ} {logs : List RawLog} (hclient : Keeps client scope Promise)
    (hok : (collectRawLogs client fromBlock toBlock scope maxBlocks s).1 = .ok logs) :
    scope.validate = .ok () ∧ 0 ≤ fromBlock ∧
      ∃ answered, Tiles firstBlock lastBlock fromBlock (toBlock + 1) answered ∧
        logs = answered.flatMap Prod.snd ∧
        ∀ c ∈ answered, fromBlock ≤ c.1.1 ∧ c.1.1 ≤ c.1.2 ∧ Promise c.1 (.ok c.2) := by
  obtain ⟨_, hscope, hrest⟩ := Eff.ofExcept_bind_ok hok
  obtain ⟨chunks, hchunks, -⟩ := Eff.ofExcept_bind_ok hrest
  obtain ⟨h0, hle, hmax, hcap⟩ := iterBlockChunks_ok hchunks
  have hsim := collectRawLogs_simulates (recorded_simulates client) fromBlock toBlock scope maxBlocks
    s (s, []) rfl
  obtain ⟨calls, -, hspec⟩ := collectRawLogs_spec hclient hscope h0 hle hmax hcap s []
  have hrecorded : (collectRawLogs (recorded client) fromBlock toBlock scope maxBlocks (s, [])).1 =
      .ok logs := by
    rw [← hok]
    exact hsim.1.symm
  rw [hrecorded] at hspec
  obtain ⟨htiles, hlogs⟩ := hspec.covered logs rfl
  refine ⟨hscope, h0, answers calls, htiles, hlogs, ?_⟩
  intro c hc
  have hmem : (c.1, .ok c.2) ∈ calls := mem_answers.mp hc
  obtain ⟨hlo, hordered, -⟩ := hspec.inside _ hmem
  exact ⟨hlo, hordered, hspec.kept _ hmem⟩

theorem retryable_cases {e : Exc} (h : e.isRetryableRpcError = true) :
    ∃ kind detail, e = .rpc (.retryable kind detail) := by
  unfold Exc.isRetryableRpcError at h
  split at h
  · exact ⟨_, _, rfl⟩
  · simp at h

theorem nonRetryable_cases {e : Exc} (h : e.isRpcError = true)
    (h' : e.isRetryableRpcError = false) : ∃ detail, e = .rpc (.nonRetryable detail) := by
  cases e with
  | rpc error =>
    cases error with
    | retryable kind detail => simp [Exc.isRetryableRpcError] at h'
    | nonRetryable detail => exact ⟨detail, rfl⟩
  | _ => simp [Exc.isRpcError] at h

structure AgreesWithPlainCollection (client : LogRpcClient σ) (scope : CollectionScope)
    (fromBlock toBlock maxBlocks : Int) (s : σ) (r : Except Exc (List RawLog)) (calls : Calls) :
    Prop where
  outcome : (collectRawLogs client fromBlock toBlock scope maxBlocks s).1 = r
  requests : ∀ c ∈ calls, fromBlock ≤ c.1.1 ∧ c.1.2 ≤ toBlock ∧
    1 ≤ c.1.2 - c.1.1 + 1 ∧ c.1.2 - c.1.1 + 1 ≤ maxBlocks
  partition : ∀ logs, r = .ok logs →
    Tiles firstBlock lastBlock fromBlock (toBlock + 1) (answers calls) ∧
      logs = (answers calls).flatMap Prod.snd
  perBlock : ∀ (logs : List RawLog) (logsOf : Int → List RawLog), r = .ok logs →
    (∀ c ∈ answers calls, c.2 = (span c.1.1 (c.1.2 + 1)).flatMap logsOf) →
    logs = (span fromBlock (toBlock + 1)).flatMap logsOf
  collectionError : ∀ message failed, r = .error (.logCollectionError message failed) →
    ∃ block earlier kind detail, failed = some (block, block) ∧
      calls = earlier ++ [((block, block), .error (.rpc (.retryable kind detail)))]
  otherError : ∀ e, r = .error e → (∀ message failed, e ≠ .logCollectionError message failed) →
    ∃ detail range earlier, e = .rpc (.nonRetryable detail) ∧ calls = earlier ++ [(range, .error e)]

theorem collectRawLogs_agrees (client : LogRpcClient σ) (hclient : AnswersOrRpcError client)
    (scope : CollectionScope) (hscope : scope.validate = .ok ()) (fromBlock toBlock : Int)
    (h0 : 0 ≤ fromBlock) (hle : fromBlock ≤ toBlock) (maxBlocks : Int) (hmax : 1 ≤ maxBlocks)
    (hcap : maxBlocks ≤ 10) (s : σ) :
    AgreesWithPlainCollection client scope fromBlock toBlock maxBlocks s
      (collectRawLogs (recorded client) fromBlock toBlock scope maxBlocks (s, [])).1
      (collectRawLogs (recorded client) fromBlock toBlock scope maxBlocks (s, [])).2.2 := by
  have hkeeps : Keeps client scope (fun _ r => ∀ e, r = .error e → e.isRpcError = true) :=
    fun _ _ _ => hclient _ _ _ _ _
  obtain ⟨calls, hcalls, hspec⟩ := collectRawLogs_spec hkeeps hscope h0 hle hmax hcap s []
  rw [List.nil_append] at hcalls
  rw [hcalls]
  refine ⟨?_, ?_, hspec.covered, ?_, ?_, ?_⟩
  · exact (collectRawLogs_simulates (recorded_simulates client) fromBlock toBlock scope maxBlocks s
      (s, []) rfl).1
  · intro c hc
    obtain ⟨h1, h2, h3, h4⟩ := hspec.inside c hc
    omega
  · intro logs logsOf hr hanswers
    obtain ⟨htiles, hlogs⟩ := hspec.covered logs hr
    rw [hlogs]
    exact htiles.flatMap_eq hanswers
  · intro message failed hr
    obtain ⟨earlier, range, err, hlast, ⟨hretry, hone, m, he⟩ | ⟨-, he⟩⟩ := hspec.stopped _ hr
    · obtain ⟨kind, detail, rfl⟩ := retryable_cases hretry
      simp only [Exc.logCollectionError.injEq] at he
      refine ⟨range.1, earlier, kind, detail, ?_, ?_⟩
      · rw [he.2]
        exact congrArg some (Prod.ext rfl hone.symm)
      · rw [hlast]
        exact congrArg (fun q => earlier ++ [(q, _)]) (Prod.ext rfl hone.symm)
    · have hrpc := hspec.kept (range, .error err) (by simp [hlast]) err rfl
      simp [← he, Exc.isRpcError] at hrpc
  · intro e hr hne
    obtain ⟨earlier, range, err, hlast, ⟨-, -, m, he⟩ | ⟨hretry, rfl⟩⟩ := hspec.stopped _ hr
    · exact absurd he (hne _ _)
    · have hrpc := hspec.kept (range, .error e) (by simp [hlast]) e rfl
      obtain ⟨detail, rfl⟩ := nonRetryable_cases hrpc hretry
      exact ⟨detail, range, earlier, rfl, hlast⟩

def oversizedUnlessSingle : LogRpcClient Unit where
  ethGetLogs fromBlock toBlock _ _ :=
    if fromBlock = toBlock then pure [[("blockNumber", .int fromBlock)]]
    else throw (.rpc (.retryable .tooManyResults ⟨"eth_getLogs", "too many results", true, none, none⟩))

theorem oversizedUnlessSingle_answers : AnswersOrRpcError oversizedUnlessSingle := by
  intro fromBlock toBlock address topics s e he
  simp only [oversizedUnlessSingle] at he
  split_ifs at he
  · cases he
  · cases he
    rfl

theorem collectRawLogs_agrees_oversizedUnlessSingle :
    AgreesWithPlainCollection oversizedUnlessSingle (.defaultTransferTopicAllAddresses 1) 1 3 10 ()
      (collectRawLogs (recorded oversizedUnlessSingle) 1 3
        (.defaultTransferTopicAllAddresses 1) 10 ((), [])).1
      (collectRawLogs (recorded oversizedUnlessSingle) 1 3
        (.defaultTransferTopicAllAddresses 1) 10 ((), [])).2.2 :=
  collectRawLogs_agrees _ oversizedUnlessSingle_answers _ (by decide) 1 3 (by decide) (by decide) 10
    (by decide) (by decide) ()

end LogCollector

end EthereumLogs
