import EthereumLogs.BlockRange.Resolve

namespace EthereumLogs.BlockRange
open Python Effect

section Simulates

variable {σ τ : Type} {R : σ → τ → Prop} {client : BlockLookupClient σ} {client' : BlockLookupClient τ}

structure LookupsSimulate (R : σ → τ → Prop) (client : BlockLookupClient σ)
    (client' : BlockLookupClient τ) : Prop where
  number : ∀ n, Simulates R (client.ethGetBlockByNumber n) (client'.ethGetBlockByNumber n)
  finalized : Simulates R client.ethGetFinalizedBlock client'.ethGetFinalizedBlock

def SameLookup (R : σ → τ → Prop) (l : Lookup σ) (l' : Lookup τ) : Prop :=
  R l.client l'.client ∧ l.cache = l'.cache

theorem onClient_simulates {α : Type} {m : Action σ α} {m' : Action τ α} (h : Simulates R m m') :
    Simulates (SameLookup R) (onClient m) (onClient m') :=
  h.zoom (fun _ _ hl => hl.1) (fun _ _ _ _ hl hR => ⟨hR, hl.2⟩)

theorem blockTimestamp_simulates (h : LookupsSimulate R client client') (n : Int) :
    Simulates (SameLookup R) (blockTimestamp client n) (blockTimestamp client' n) := by
  apply Simulates.get_bind
  intro l l' hl
  rw [hl.2]
  cases l'.cache n with
  | some t => exact ⟨rfl, hl⟩
  | none =>
    have hmiss : Simulates (SameLookup R)
        (do
          let block ← onClient (client.ethGetBlockByNumber n)
          let timestamp ← Eff.ofExcept (blockTimestampFromPayload block)
          Eff.modify fun l => l.store n timestamp
          pure timestamp)
        (do
          let block ← onClient (client'.ethGetBlockByNumber n)
          let timestamp ← Eff.ofExcept (blockTimestampFromPayload block)
          Eff.modify fun l => l.store n timestamp
          pure timestamp) := by
      apply (onClient_simulates (h.number n)).bind
      intro block
      apply (simulates_ofExcept _).bind
      intro timestamp
      apply (simulates_modify fun l l' hl => ⟨hl.1, by simp [Lookup.store, hl.2]⟩).bind
      intro _
      exact simulates_pure _
    exact hmiss l l' hl

theorem firstBlockLoop_simulates (h : LookupsSimulate R client client') (target : Instant)
    (left right result : Int) :
    Simulates (SameLookup R) (firstBlockLoop client target left right result)
      (firstBlockLoop client' target left right result) := by
  rw [firstBlockLoop.eq_def client, firstBlockLoop.eq_def client']
  split_ifs with hle
  · apply (blockTimestamp_simulates h _).bind
    intro midTs
    split_ifs
    · exact firstBlockLoop_simulates h target _ _ _
    · exact firstBlockLoop_simulates h target _ _ _
  · exact simulates_pure _
termination_by (right + 1 - left).toNat
decreasing_by all_goals omega

theorem findFirstBlock_simulates (h : LookupsSimulate R client client') (target : Datetime)
    (low high : Int) :
    Simulates (SameLookup R) (findFirstBlockAtOrAfter client target low (some high))
      (findFirstBlockAtOrAfter client' target low (some high)) := by
  apply (simulates_ofExcept _).bind
  intro targetUtc
  apply (simulates_pure high).bind
  intro highBlock
  dsimp only
  split_ifs
  · exact simulates_throw _
  · exact simulates_throw _
  · exact simulates_pure _
  · exact firstBlockLoop_simulates h _ _ _ _

theorem oldestAccessibleLoop_simulates (h : LookupsSimulate R client client')
    (left right oldestOk : Int) :
    Simulates (SameLookup R) (oldestAccessibleLoop client left right oldestOk)
      (oldestAccessibleLoop client' left right oldestOk) := by
  rw [oldestAccessibleLoop.eq_def client, oldestAccessibleLoop.eq_def client']
  split_ifs with hle
  · apply (blockTimestamp_simulates h _).attempt.bind
    rintro (exc | t)
    · dsimp only
      split_ifs
      · exact oldestAccessibleLoop_simulates h _ _ _
      · exact simulates_throw _
    · exact oldestAccessibleLoop_simulates h _ _ _
  · exact simulates_pure _
termination_by (right + 1 - left).toNat
decreasing_by all_goals omega

theorem searchLowLoop_simulates (h : LookupsSimulate R client client') (target : Instant)
    (high known step : Int) (hstep : 0 < step) :
    Simulates (SameLookup R) (searchLowLoop client target high known step hstep)
      (searchLowLoop client' target high known step hstep) := by
  rw [searchLowLoop.eq_def client, searchLowLoop.eq_def client']
  apply (blockTimestamp_simulates h _).attempt.bind
  rintro (exc | t)
  · dsimp only
    split_ifs
    · apply (oldestAccessibleLoop_simulates h _ _ _).bind
      intro oldest
      apply (blockTimestamp_simulates h _).bind
      intro oldestTs
      split_ifs
      · exact simulates_throw _
      · exact simulates_pure _
    · exact simulates_throw _
  · dsimp only
    split_ifs
    · exact simulates_pure _
    · exact searchLowLoop_simulates h _ _ _ _ _
termination_by (high - step).toNat
decreasing_by omega

theorem searchInterval_simulates (h : LookupsSimulate R client client') (start stop : Instant)
    (number : Int) (ts : Instant) :
    Simulates (SameLookup R) (searchInterval client start stop number ts)
      (searchInterval client' start stop number ts) := by
  have hlow : Simulates (SameLookup R)
      (findSearchLowBlock client (.utc start) number (.utc ts))
      (findSearchLowBlock client' (.utc start) number (.utc ts)) := by
    apply (simulates_ofExcept _).bind
    intro targetUtc
    apply (simulates_ofExcept _).bind
    intro highUtc
    split_ifs
    · exact simulates_pure _
    · exact searchLowLoop_simulates h _ _ _ _ _
  apply hlow.bind
  intro low
  apply (findFirstBlock_simulates h _ _ _).bind
  intro fromBlock
  apply (findFirstBlock_simulates h _ _ _).bind
  intro endExclusive
  dsimp only
  split_ifs
  · exact simulates_throw _
  · exact simulates_pure _

theorem resolve_simulates (h : LookupsSimulate R client client') (start stop : Datetime) :
    Simulates R (resolveIntervalBlockRange client start stop)
      (resolveIntervalBlockRange client' start stop) := by
  apply (simulates_ofExcept _).bind
  intro startUtc
  apply (simulates_ofExcept _).bind
  intro stopUtc
  split_ifs
  · exact simulates_throw _
  · apply h.finalized.bind
    intro block
    apply (simulates_ofExcept _).bind
    intro number
    apply (simulates_ofExcept _).bind
    intro ts
    split_ifs
    · exact simulates_throw _
    · exact (searchInterval_simulates h startUtc stopUtc number ts).zoom
        (fun _ _ hR => ⟨hR, rfl⟩) (fun _ _ _ _ _ hl => hl.1)

end Simulates

end EthereumLogs.BlockRange
