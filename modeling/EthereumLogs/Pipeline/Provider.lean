import EthereumLogs.Pipeline.HourlyTotals

namespace EthereumLogs.Pipeline
open Python Effect Tiling LogNormalizer BlockRange Dbt Dag

namespace Chain

variable {chain : Chain} {head : ℕ}

def payload (chain : Chain) (n : ℕ) : JsonObject :=
  [("number", .str (hex n)), ("timestamp", .str (hex (chain.time n / microsPerSecond)))]

def provider (chain : Chain) (head : ℕ) : EthereumClient Unit where
  ethGetBlockByNumber n :=
    if 0 ≤ n ∧ n ≤ head then pure (chain.payload n.toNat) else throw forbidden
  ethGetFinalizedBlock := pure (chain.payload head)
  ethGetLogs fromBlock toBlock _ _ := pure ((span fromBlock (toBlock + 1)).flatMap chain.logsAt)
  ethChainId := pure chain.chainId

def WholeSeconds (chain : Chain) (head : ℕ) : Prop :=
  ∀ n ≤ head, ∃ seconds : ℕ, seconds ≤ 253402300799 ∧ chain.time n = seconds * microsPerSecond

theorem payload_number (chain : Chain) (n : ℕ) :
    blockNumberFromPayload (chain.payload n) = .ok (n : Int) := by
  have hstarts : startsWith0x (hex n) = true := rfl
  have hread : blockNumberFromPayload (chain.payload n) =
      if startsWith0x (hex n) = true then int16 (hex n)
      else .error (.blockRangeError "block payload missed hex number.") := rfl
  rw [hread, if_pos hstarts, int16_hex]

theorem payload_timestamp (h : chain.WholeSeconds head) {n : ℕ} (hn : n ≤ head) :
    blockTimestampFromPayload (chain.payload n) = .ok (chain.time n) := by
  obtain ⟨seconds, hyear, htime⟩ := h n hn
  have hseconds : chain.time n / microsPerSecond = seconds := by
    rw [htime]
    exact Int.mul_ediv_cancel _ (by decide)
  have hstarts : startsWith0x (hex seconds) = true := rfl
  have hread : blockTimestampFromPayload (chain.payload n) =
      if startsWith0x (hex (chain.time n / microsPerSecond)) = true then
        (int16 (hex (chain.time n / microsPerSecond))).bind fromTimestamp
      else .error (.blockRangeError "block payload missed hex timestamp.") := rfl
  rw [hread, hseconds, if_pos hstarts, int16_hex]
  change fromTimestamp seconds = _
  rw [fromTimestamp, if_pos (by exact_mod_cast hyear), htime]

theorem provider_honest (h : chain.WholeSeconds head) : Honest (chain.provider head) chain := by
  constructor
  · intro s c hc
    cases hc
    rfl
  · intro s block hblock
    cases hblock
    exact ⟨head, chain.payload_number head, payload_timestamp h le_rfl⟩
  · intro n s block hblock
    simp only [provider] at hblock
    split_ifs at hblock with hserved
    · cases hblock
      rw [Int.toNat_natCast]
      exact payload_timestamp h (by omega)
    · cases hblock
  · intro fromBlock toBlock s answer _ hanswer
    cases hanswer
    exact List.Perm.refl _

end Chain

def everyTenMinutes (n : ℕ) : Instant := 600 * n * microsPerSecond

theorem everyTenMinutes_strictMono : StrictMono everyTenMinutes := by
  intro a b hab
  simp only [everyTenMinutes, microsPerSecond, Instant]
  omega

def ReadsBlockSeven (l : RawLog) : Prop :=
  (normalizeEvent l (trueTimestamps everyTenMinutes) 1).map LogEvent.blockNumber = .ok 7

def loneLog (l : RawLog) (n : ℕ) : List RawLog := if n = 7 then [l] else []

theorem mem_loneLog {l l' : RawLog} {n : ℕ} : l' ∈ loneLog l n ↔ n = 7 ∧ l' = l := by
  rw [loneLog]
  split_ifs with hn
  · simp [hn]
  · simp [hn]

theorem ReadsBlockSeven.wellFormed {l : RawLog} (h : ReadsBlockSeven l) (n : ℕ) (l' : RawLog)
    (hl : l' ∈ loneLog l n) : ∃ event,
      normalizeEvent l' (trueTimestamps everyTenMinutes) 1 = .ok event ∧ event.blockNumber = n := by
  obtain ⟨rfl, rfl⟩ := mem_loneLog.mp hl
  exact except_map_ok h

theorem loneLog_unique {l l' l'' : RawLog} {n n' : ℕ} (hl : l' ∈ loneLog l n)
    (hl' : l'' ∈ loneLog l n') : n = n' ∧ l' = l'' := by
  obtain ⟨rfl, rfl⟩ := mem_loneLog.mp hl
  obtain ⟨rfl, rfl⟩ := mem_loneLog.mp hl'
  exact ⟨rfl, rfl⟩

def chainOf (l : RawLog) (h : ReadsBlockSeven l) : Chain where
  chainId := 1
  time := everyTenMinutes
  logs := loneLog l
  increasing := everyTenMinutes_strictMono
  wellFormed := h.wellFormed
  unique _ _ _ _ _ _ hl hl' _ _ _ _ := loneLog_unique hl hl'

theorem chainOf_wholeSeconds (l : RawLog) (h : ReadsBlockSeven l) {head : ℕ} (hhead : head ≤ 1000) :
    (chainOf l h).WholeSeconds head := by
  intro n hn
  exact ⟨600 * n, by omega, by simp [chainOf, everyTenMinutes]⟩

theorem depositLog_reads : ReadsBlockSeven (depositLog 7) := by
  rw [ReadsBlockSeven]
  decide +kernel

def depositInBlockSeven : Chain := chainOf (depositLog 7) depositLog_reads

def depositProvider : EthereumClient Unit := depositInBlockSeven.provider 24

theorem depositProvider_honest : Honest depositProvider depositInBlockSeven :=
  Chain.provider_honest (chainOf_wholeSeconds _ _ (by decide))

-- a transfer of 2^256 - 1 units, which DECIMAL(38, 0) cannot hold
def overflowLog : RawLog :=
  [("blockNumber", .str "0x7".toList), ("blockHash", .str "0x7".toList),
   ("transactionHash", .str "0x7".toList), ("logIndex", .str "0x0".toList),
   ("address", .str usdtContractAddress),
   ("topics", .arr [.str transferTopic0,
      .str (addressWord "0x00000000000000000000000000000000000000aa".toList),
      .str (addressWord tetherTreasuryAddress)]),
   ("data", .str ("0x".toList ++ List.replicate 64 'f'))]

theorem overflowLog_reads : ReadsBlockSeven overflowLog := by
  rw [ReadsBlockSeven]
  decide +kernel

def overflowInBlockSeven : Chain := chainOf overflowLog overflowLog_reads

def overflowProvider : EthereumClient Unit := overflowInBlockSeven.provider 24

theorem overflowProvider_honest : Honest overflowProvider overflowInBlockSeven :=
  Chain.provider_honest (chainOf_wholeSeconds _ _ (by decide))

end EthereumLogs.Pipeline
