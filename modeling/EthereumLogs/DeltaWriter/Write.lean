import EthereumLogs.LogNormalizer
import EthereumLogs.Library.Keyed

namespace EthereumLogs
open Python Effect

inductive ColumnType where
  | int64 | string | bool | timestampUsUtc | date32
deriving DecidableEq, Repr

structure SchemaField where
  name : String
  type : ColumnType
  nullable : Bool
deriving DecidableEq, Repr

def ethereumLogsSchema : List SchemaField :=
  [⟨"chain_id", .int64, false⟩, ⟨"block_number", .int64, false⟩, ⟨"block_hash", .string, false⟩,
   ⟨"transaction_hash", .string, false⟩, ⟨"transaction_index", .int64, true⟩,
   ⟨"log_index", .int64, false⟩, ⟨"contract_address", .string, false⟩, ⟨"topic0", .string, true⟩,
   ⟨"topic1", .string, true⟩, ⟨"topic2", .string, true⟩, ⟨"topic3", .string, true⟩,
   ⟨"data_raw", .string, false⟩, ⟨"data_uint256_decimal_text", .string, true⟩,
   ⟨"data_uint256_decode_status", .string, false⟩, ⟨"removed", .bool, true⟩,
   ⟨"block_timestamp_utc", .timestampUsUtc, false⟩, ⟨"block_date_utc", .date32, false⟩,
   ⟨"interval_start_utc", .timestampUsUtc, false⟩, ⟨"interval_end_utc", .timestampUsUtc, false⟩,
   ⟨"ingested_at_utc", .timestampUsUtc, false⟩]

def naturalKeyColumns : List String := ["chain_id", "transaction_hash", "log_index"]

def immutableLogColumns : List String :=
  ["chain_id", "block_number", "block_hash", "transaction_hash", "transaction_index", "log_index",
   "contract_address", "topic0", "topic1", "topic2", "topic3", "data_raw",
   "data_uint256_decimal_text", "data_uint256_decode_status", "removed", "block_timestamp_utc",
   "block_date_utc", "interval_start_utc", "interval_end_utc"]

structure DeltaTable where
  schema : List SchemaField
  rows : List LogRow
deriving DecidableEq, Repr

structure DeltaWriteResult where
  insertedRowCount : Nat
  duplicateSkippedCount : Nat
  rowCountBefore : Nat
  rowCountAfter : Nat
deriving DecidableEq, Repr

namespace DeltaWriter
open LogNormalizer

abbrev Key := List PyVal

def rowKey (row : PyRow) : Key := naturalKeyColumns.map fun column => (row.item column).canon

def storedKey (row : LogRow) : Key :=
  [.int row.chainId, .str row.transactionHash, .int row.logIndex]

def uint256DecodeStatuses : List Text :=
  [uint256StatusDecimal38Available, uint256StatusOutsideDecimal38Range,
   uint256StatusNotUint256Word]

def isDecimal (s : Text) : Bool := s ≠ [] && s.all (fun c => (decimalValue c).isSome)

def intOfDecimal (s : Text) : Nat := s.foldl (fun acc c => 10 * acc + (decimalValue c).getD 0) 0

def isCanonicalNonNegativeDecimalText : PyVal → Bool
  | .str value => isDecimal value && (value = ['0'] || value.head? ≠ some '0')
  | _ => false

def validateDecimalRange (decimalText : PyVal) (status : Text) (rowIndex : Nat) :
    Except Exc Unit :=
  if isCanonicalNonNegativeDecimalText decimalText = false then
    .error (.deltaWriteError ("uint256 rows must contain a canonical non-negative decimal text " ++
      s!"value. row_index={rowIndex}"))
  else
    let value := intOfDecimal (decimalText.asStr.getD [])
    if status = uint256StatusDecimal38Available ∧ value > decimal38Max then
      .error (.deltaWriteError
        s!"DECIMAL38_AVAILABLE value exceeds DECIMAL(38, 0) range. row_index={rowIndex}")
    else if status = uint256StatusOutsideDecimal38Range ∧ value ≤ decimal38Max then
      .error (.deltaWriteError
        s!"OUTSIDE_DECIMAL38_RANGE value fits DECIMAL(38, 0). row_index={rowIndex}")
    else .ok ()

def validateUint256Contract (row : PyRow) (rowIndex : Nat) : Except Exc Unit :=
  let status := row.item "data_uint256_decode_status"
  let decimalText := row.item "data_uint256_decimal_text"
  if status.isHashable = false then .error (.typeError "unhashable type")
  else match status.asStr with
  | none => .error (.deltaWriteError
      s!"Unknown data_uint256_decode_status in ethereum_logs row. row_index={rowIndex}")
  | some statusText =>
    if statusText ∉ uint256DecodeStatuses then .error (.deltaWriteError
      s!"Unknown data_uint256_decode_status in ethereum_logs row. row_index={rowIndex}")
    else match decodeUint256DataRaw (row.item "data_raw").asStr with
    | .error _ => .error (.deltaWriteError
        s!"data_raw must be a valid 0x-prefixed hexadecimal string. row_index={rowIndex}")
    | .ok decoded =>
      if decimalText ≠ .ofOptionalText decoded.decimalText ∨ statusText ≠ decoded.status then
        .error (.deltaWriteError ("data_uint256 decimal text/status does not match immutable " ++
          s!"data_raw. row_index={rowIndex}"))
      else if statusText = uint256StatusNotUint256Word then .ok ()
      else validateDecimalRange decimalText statusText rowIndex

def nameList (names : List String) : String :=
  "[" ++ ", ".intercalate (names.mergeSort.map fun name => "'" ++ name ++ "'") ++ "]"

def validateInputRow (row : PyRow) (rowIndex : Nat) : Except Exc Unit :=
  let expected := ethereumLogsSchema.map SchemaField.name
  let missing := expected.filter (fun column => column ∉ row.columns)
  let unexpected := row.columns.filter (fun column => column ∉ expected)
  if missing ≠ [] ∨ unexpected ≠ [] then
    .error (.deltaWriteError ("ethereum_logs row does not match the canonical raw contract. " ++
      s!"row_index={rowIndex} missing={nameList missing} unexpected={nameList unexpected}"))
  else validateUint256Contract row rowIndex

def validateInputRows : List PyRow → Nat → Except Exc Unit
  | [], _ => .ok ()
  | row :: rows, index => (validateInputRow row index).bind fun _ =>
      validateInputRows rows (index + 1)

def sameImmutableLogPayload (left right : PyRow) : Bool :=
  immutableLogColumns.all fun column => (left.item column).eq (right.item column)

def keyIsHashable (row : PyRow) : Bool :=
  naturalKeyColumns.all fun column => (row.item column).isHashable

def conflictingPayloads : Exc :=
  .deltaWriteError "Conflicting immutable payloads share one ethereum log natural key. "

def dedupeLoop (seen : List (Key × PyRow)) : List PyRow → Except Exc (List PyRow × Nat)
  | [] => .ok ([], 0)
  | row :: rows =>
    if keyIsHashable row = false then .error (.typeError "unhashable type")
    else match seen.lookup (rowKey row) with
    | none => (dedupeLoop ((rowKey row, row) :: seen) rows).map
        fun (result, duplicates) => (row :: result, duplicates)
    | some prior =>
      if sameImmutableLogPayload prior row = false then .error conflictingPayloads
      else (dedupeLoop seen rows).map fun (result, duplicates) => (result, duplicates + 1)

def dedupeRows (rows : List PyRow) : Except Exc (List PyRow × Nat) := dedupeLoop [] rows

def int64Column : PyVal → Option Int
  | .int i => if -2 ^ 63 ≤ i ∧ i < 2 ^ 63 then some i else none
  | _ => none

def stringColumn : PyVal → Option Text := PyVal.asStr

def boolColumn : PyVal → Option Bool
  | .bool b => some b
  | _ => none

-- Arrow reads a naive datetime as UTC wall time
def timestampColumn : PyVal → Option Instant
  | .datetime d => some d.instant
  | _ => none

def date32Column : PyVal → Option Int
  | .date days => some days
  | .datetime d => some (dateOf d.wall)
  | _ => none

def nullable {α : Type} (column : PyVal → Option α) : PyVal → Option (Option α)
  | .none => some none
  | v => (column v).map some

def arrowRow (row : PyRow) : Option LogRow := do
  let chainId ← int64Column (row.item "chain_id")
  let blockNumber ← int64Column (row.item "block_number")
  let blockHash ← stringColumn (row.item "block_hash")
  let transactionHash ← stringColumn (row.item "transaction_hash")
  let transactionIndex ← nullable int64Column (row.item "transaction_index")
  let logIndex ← int64Column (row.item "log_index")
  let contractAddress ← stringColumn (row.item "contract_address")
  let topic0 ← nullable stringColumn (row.item "topic0")
  let topic1 ← nullable stringColumn (row.item "topic1")
  let topic2 ← nullable stringColumn (row.item "topic2")
  let topic3 ← nullable stringColumn (row.item "topic3")
  let dataRaw ← stringColumn (row.item "data_raw")
  let dataUint256DecimalText ← nullable stringColumn (row.item "data_uint256_decimal_text")
  let dataUint256DecodeStatus ← stringColumn (row.item "data_uint256_decode_status")
  let removed ← nullable boolColumn (row.item "removed")
  let blockTimestampUtc ← timestampColumn (row.item "block_timestamp_utc")
  let blockDateUtc ← date32Column (row.item "block_date_utc")
  let intervalStartUtc ← timestampColumn (row.item "interval_start_utc")
  let intervalEndUtc ← timestampColumn (row.item "interval_end_utc")
  let ingestedAtUtc ← timestampColumn (row.item "ingested_at_utc")
  some
    { chainId, blockNumber, blockHash, transactionHash, transactionIndex, logIndex,
      contractAddress, topic0, topic1, topic2, topic3, dataRaw, dataUint256DecimalText,
      dataUint256DecodeStatus, removed, blockTimestampUtc, blockDateUtc, intervalStartUtc,
      intervalEndUtc, ingestedAtUtc }

structure StoreFaults where
  dependencies : Bool
  directory : Bool
  opening : Bool
  writing : Bool
  counting : Bool
deriving DecidableEq, Repr

def noFaults : StoreFaults := ⟨false, false, false, false, false⟩

def loadDependencies (faults : StoreFaults) : Except Exc Unit :=
  if faults.dependencies then
    .error (.deltaWriteError "pyarrow and deltalake are required for Delta writes.")
  else .ok ()

def makeParent (faults : StoreFaults) : Except Exc Unit :=
  if faults.directory then .error (.osError "mkdir") else .ok ()

def validateSchema (existing expected : List SchemaField) : Except Exc Unit :=
  if existing ⊆ expected ∧ expected ⊆ existing then .ok ()
  else .error (.deltaWriteError
    ("Existing Delta schema does not match the canonical ethereum_logs contract. Run an explicit " ++
      "backfill migration or rebuild the local Delta path before appending. "))

def existingRows (faults : StoreFaults) : Option DeltaTable → Except Exc (List LogRow)
  | none => .ok []
  | some table =>
    if faults.opening then .error (.deltaWriteError "Failed to open Delta table.")
    else (validateSchema table.schema ethereumLogsSchema).map fun _ => table.rows

def failedWrite : Exc :=
  .deltaWriteError ("Failed to write canonical ethereum_logs Delta rows. " ++
    "No successful task should be reported until this write completes.")

def append (table : Option DeltaTable) (rows : List LogRow) : DeltaTable :=
  match table with
  | some t => { t with rows := t.rows ++ rows }
  | none => { schema := ethereumLogsSchema, rows := rows }

def commitRows (faults : StoreFaults) (insertRows : List PyRow) :
    Action (Option DeltaTable) Unit := do
  let table ← Eff.get
  if insertRows = [] ∧ table.isSome then pure ()
  else match insertRows.mapM arrowRow with
  | none => throw failedWrite
  | some arrowTable =>
    if faults.writing then throw failedWrite
    else Eff.modify fun table => some (append table arrowTable)

def countFailed : Exc := .deltaWriteError "Failed to count Delta rows."

def countRows (faults : StoreFaults) : Action (Option DeltaTable) Nat := do
  match ← Eff.get with
  | none => pure 0
  | some table => if faults.counting then throw countFailed else pure table.rows.length

structure InsertCounts where
  inserted : Nat
  skipped : Nat
  before : Nat
deriving DecidableEq, Repr

def insertNewRows (faults : StoreFaults) (rows : List PyRow) :
    Action (Option DeltaTable) InsertCounts := do
  Eff.ofExcept (loadDependencies faults)
  Eff.ofExcept (makeParent faults)
  Eff.ofExcept (validateInputRows rows 0)
  let (uniqueRows, batchDuplicates) ← Eff.ofExcept (dedupeRows rows)
  let stored ← Eff.ofExcept (existingRows faults (← Eff.get))
  let existingKeys := stored.map storedKey
  let insertRows := uniqueRows.filter fun row => rowKey row ∉ existingKeys
  commitRows faults insertRows
  pure
    { inserted := insertRows.length
      skipped := batchDuplicates + (uniqueRows.length - insertRows.length)
      before := stored.length }

def writeEthereumLogsInsertOnly (faults : StoreFaults) (rows : List PyRow) :
    Action (Option DeltaTable) DeltaWriteResult := do
  let counts ← insertNewRows faults rows
  let afterCount ← countRows faults
  pure
    { insertedRowCount := counts.inserted
      duplicateSkippedCount := counts.skipped
      rowCountBefore := counts.before
      rowCountAfter := afterCount }

end DeltaWriter

end EthereumLogs
