import EthereumLogs.Exceptions
import EthereumLogs.Library.Tiling

namespace EthereumLogs

def maxBlocksPerLogRequest : Int := 10

structure BlockChunk where
  fromBlock : Int
  toBlock : Int
  ordered : fromBlock ≤ toBlock
deriving DecidableEq, Repr

namespace BlockChunk

def blockCount (c : BlockChunk) : Int := c.toBlock - c.fromBlock + 1

def mid (c : BlockChunk) : Int := (c.fromBlock + c.toBlock) / 2

theorem mid_lt (c : BlockChunk) (h : c.fromBlock ≠ c.toBlock) :
    c.fromBlock ≤ c.mid ∧ c.mid + 1 ≤ c.toBlock := by
  have := c.ordered
  rw [mid]
  omega

def left (c : BlockChunk) (h : c.fromBlock ≠ c.toBlock) : BlockChunk :=
  ⟨c.fromBlock, c.mid, (c.mid_lt h).1⟩

def right (c : BlockChunk) (h : c.fromBlock ≠ c.toBlock) : BlockChunk :=
  ⟨c.mid + 1, c.toBlock, (c.mid_lt h).2⟩

@[elab_as_elim]
theorem halving {motive : BlockChunk → Prop} (chunk : BlockChunk)
    (step : ∀ chunk, (∀ hone : chunk.fromBlock ≠ chunk.toBlock,
      motive (chunk.left hone) ∧ motive (chunk.right hone)) → motive chunk) : motive chunk := by
  apply step
  intro hone
  exact ⟨halving (chunk.left hone) step, halving (chunk.right hone) step⟩
termination_by (chunk.toBlock - chunk.fromBlock).toNat
decreasing_by
  all_goals
    have := chunk.mid_lt hone
    simp only [left, right]
    omega

end BlockChunk

def chunkFrom (maxBlocks chunkStart toBlock : Int) (hmax : 1 ≤ maxBlocks)
    (hle : chunkStart ≤ toBlock) : BlockChunk :=
  ⟨chunkStart, min (chunkStart + maxBlocks - 1) toBlock, by omega⟩

theorem chunkFrom_count {maxBlocks chunkStart toBlock : Int} (hmax : 1 ≤ maxBlocks)
    (hle : chunkStart ≤ toBlock) :
    chunkStart ≤ (chunkFrom maxBlocks chunkStart toBlock hmax hle).toBlock ∧
      (chunkFrom maxBlocks chunkStart toBlock hmax hle).toBlock ≤ toBlock ∧
      1 ≤ (chunkFrom maxBlocks chunkStart toBlock hmax hle).blockCount ∧
      (chunkFrom maxBlocks chunkStart toBlock hmax hle).blockCount ≤ maxBlocks := by
  simp only [chunkFrom, BlockChunk.blockCount]
  omega

def chunkLoop (maxBlocks chunkStart toBlock : Int) (hmax : 1 ≤ maxBlocks) :
    Except Exc (List BlockChunk) :=
  if h : chunkStart ≤ toBlock then
    let chunk := chunkFrom maxBlocks chunkStart toBlock hmax h
    if ¬ (1 ≤ chunk.blockCount ∧ chunk.blockCount ≤ maxBlocksPerLogRequest) then
      .error (.blockRangeError "generated chunk violated max block count invariant.")
    else (chunkLoop maxBlocks (chunk.toBlock + 1) toBlock hmax).map (chunk :: ·)
  else .ok []
termination_by (toBlock + 1 - chunkStart).toNat
decreasing_by
  have := chunkFrom_count hmax h
  omega

def iterBlockChunks (fromBlock toBlock maxBlocks : Int) : Except Exc (List BlockChunk) :=
  if fromBlock < 0 ∨ toBlock < 0 then
    .error (.blockRangeError "block numbers must be non-negative.")
  else if fromBlock > toBlock then
    .error (.blockRangeError "from_block must be less than or equal to to_block.")
  else if h : maxBlocks < 1 ∨ maxBlocks > maxBlocksPerLogRequest then
    .error (.blockRangeError "max_blocks must be between 1 and 10.")
  else chunkLoop maxBlocks fromBlock toBlock (by omega)

theorem chunkLoop_tiles {maxBlocks : Int} (hmax : 1 ≤ maxBlocks)
    (hcap : maxBlocks ≤ maxBlocksPerLogRequest) (chunkStart toBlock : Int)
    (hle : chunkStart ≤ toBlock + 1) :
    ∃ chunks, chunkLoop maxBlocks chunkStart toBlock hmax = .ok chunks ∧
      Tiling.Tiles BlockChunk.fromBlock BlockChunk.toBlock chunkStart (toBlock + 1) chunks ∧
      ∀ c ∈ chunks, c.blockCount ≤ maxBlocks := by
  rw [chunkLoop]
  by_cases h : chunkStart ≤ toBlock
  · obtain ⟨hstart, hend, hone, hcount⟩ := chunkFrom_count hmax h
    obtain ⟨chunks, hok, htiles, hall⟩ :=
      chunkLoop_tiles hmax hcap
        ((chunkFrom maxBlocks chunkStart toBlock hmax h).toBlock + 1) toBlock (by omega)
    refine ⟨chunkFrom maxBlocks chunkStart toBlock hmax h :: chunks, ?_,
      .cons _ chunks (BlockChunk.ordered _) htiles, ?_⟩
    · rw [dif_pos h, if_neg (not_not.mpr ⟨hone, hcount.trans hcap⟩), hok]
      rfl
    · intro c hc
      rcases List.mem_cons.mp hc with rfl | hc
      · exact hcount
      · exact hall c hc
  · have he : chunkStart = toBlock + 1 := by omega
    refine ⟨[], by rw [dif_neg h], ?_, by simp⟩
    rw [he]
    exact .nil _
termination_by (toBlock + 1 - chunkStart).toNat
decreasing_by omega

theorem chunkLoop_length {maxBlocks : Int} (hmax : 1 ≤ maxBlocks) (chunkStart toBlock : Int)
    (hle : chunkStart ≤ toBlock + 1) {chunks : List BlockChunk}
    (h : chunkLoop maxBlocks chunkStart toBlock hmax = .ok chunks) :
    (chunks.length : Int) = (toBlock + 1 - chunkStart + maxBlocks - 1) / maxBlocks := by
  rw [chunkLoop] at h
  by_cases hstart : chunkStart ≤ toBlock
  · rw [dif_pos hstart] at h
    obtain ⟨hge, hend, -, -⟩ := chunkFrom_count hmax hstart
    dsimp only at h
    split_ifs at h
    cases hrest : chunkLoop maxBlocks ((chunkFrom maxBlocks chunkStart toBlock hmax hstart).toBlock + 1)
        toBlock hmax with
    | error e =>
      rw [hrest] at h
      cases h
    | ok rest =>
      rw [hrest] at h
      cases h
      have hlength := chunkLoop_length hmax _ toBlock (by omega) hrest
      rw [List.length_cons, Nat.cast_succ, hlength]
      simp only [chunkFrom]
      rcases Int.le_total (chunkStart + maxBlocks - 1) toBlock with hfull | hlast
      · rw [min_eq_left hfull]
        have hstep : toBlock + 1 - chunkStart + maxBlocks - 1 =
            (toBlock + 1 - (chunkStart + maxBlocks - 1 + 1) + maxBlocks - 1) + maxBlocks * 1 := by omega
        rw [hstep, Int.add_mul_ediv_left _ _ (by omega)]
      · rw [min_eq_right hlast]
        have hone : (toBlock + 1 - chunkStart + maxBlocks - 1) / maxBlocks = 1 :=
          (Int.ediv_eq_iff_of_pos (by omega)).mpr (by omega)
        have hzero : (toBlock + 1 - (toBlock + 1) + maxBlocks - 1) / maxBlocks = 0 :=
          Int.ediv_eq_zero_of_lt (by omega) (by omega)
        rw [hone, hzero]
        rfl
  · rw [dif_neg hstart] at h
    cases h
    have hzero : (toBlock + 1 - chunkStart + maxBlocks - 1) / maxBlocks = 0 :=
      Int.ediv_eq_zero_of_lt (by omega) (by omega)
    rw [hzero]
    rfl
termination_by (toBlock + 1 - chunkStart).toNat
decreasing_by omega

theorem iterBlockChunks_tiles {fromBlock toBlock maxBlocks : Int} (h0 : 0 ≤ fromBlock)
    (hle : fromBlock ≤ toBlock) (hmax : 1 ≤ maxBlocks) (hcap : maxBlocks ≤ maxBlocksPerLogRequest) :
    ∃ chunks, iterBlockChunks fromBlock toBlock maxBlocks = .ok chunks ∧
      Tiling.Tiles BlockChunk.fromBlock BlockChunk.toBlock fromBlock (toBlock + 1) chunks ∧
      ∀ c ∈ chunks, c.blockCount ≤ maxBlocks := by
  rw [iterBlockChunks, if_neg (by omega), if_neg (by omega), dif_neg (by omega)]
  exact chunkLoop_tiles hmax hcap fromBlock toBlock (by omega)

theorem iterBlockChunks_length {fromBlock toBlock maxBlocks : Int} {chunks : List BlockChunk}
    (h : iterBlockChunks fromBlock toBlock maxBlocks = .ok chunks) :
    (chunks.length : Int) = (toBlock + 1 - fromBlock + maxBlocks - 1) / maxBlocks := by
  rw [iterBlockChunks] at h
  split_ifs at h with hneg hrev hmax
  exact chunkLoop_length _ fromBlock toBlock (by omega) h

theorem iterBlockChunks_ok {fromBlock toBlock maxBlocks : Int} {chunks : List BlockChunk}
    (h : iterBlockChunks fromBlock toBlock maxBlocks = .ok chunks) :
    0 ≤ fromBlock ∧ fromBlock ≤ toBlock ∧ 1 ≤ maxBlocks ∧ maxBlocks ≤ maxBlocksPerLogRequest := by
  rw [iterBlockChunks] at h
  split_ifs at h with hneg hrev hmax
  omega

end EthereumLogs
