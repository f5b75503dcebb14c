import EthereumLogs.BlockRange.Resolve
import EthereumLogs.LogCollector

namespace EthereumLogs
open Python Effect

structure EthereumClient (σ : Type) extends BlockLookupClient σ, LogRpcClient σ where
  ethChainId : Action σ Int

structure RpcCall where
  method : String
  params : List Json
deriving Repr

abbrev JsonRpc (σ : Type) := RpcCall → Action σ Json

namespace EthereumJsonRpcClient

variable {σ : Type}

def hexToInt : Json → Except Exc Int
  | .str value =>
    if startsWith0x value then int16 value
    else .error (.valueError "Expected Ethereum hex quantity.")
  | _ => .error (.valueError "Expected Ethereum hex quantity.")

def badPayload (method message : String) : Exc :=
  .rpc (.nonRetryable ⟨method, message, false, none, none⟩)

def ethChainId (request : JsonRpc σ) : Action σ Int := do
  let result ← request ⟨"eth_chainId", []⟩
  Eff.ofExcept (hexToInt result)

def asObject : Json → Option JsonObject
  | .obj fields => some fields
  | _ => none

def ethGetBlock (request : JsonRpc σ) (blockRef : Text) (fullTransactions : Bool) :
    Action σ JsonObject := do
  let result ← request ⟨"eth_getBlockByNumber", [.str blockRef, .bool fullTransactions]⟩
  match asObject result with
  | some block => pure block
  | none => throw (badPayload "eth_getBlockByNumber" "Provider returned non-object block payload.")

def ethGetBlockByNumber (request : JsonRpc σ) (blockNumber : Int) : Action σ JsonObject :=
  ethGetBlock request (hex blockNumber) false

def ethGetFinalizedBlock (request : JsonRpc σ) : Action σ JsonObject :=
  ethGetBlock request "finalized".toList false

def logParams (fromBlock toBlock : Int) (address : Option Text) (topics : List Text) :
    JsonObject :=
  [("fromBlock", .str (hex fromBlock)), ("toBlock", .str (hex toBlock))] ++
    (match address with
      | some a => if a = [] then [] else [("address", .str a)]
      | none => []) ++
    [("topics", .arr (topics.map .str))]

def ethGetLogs (request : JsonRpc σ) (fromBlock toBlock : Int) (address : Option Text)
    (topics : List Text) : Action σ (List RawLog) :=
  if toBlock - fromBlock + 1 < 1 ∨ toBlock - fromBlock + 1 > maxBlocksPerLogRequest then
    throw (.valueError "eth_getLogs block range must contain 1 to 10 blocks.")
  else if (address = none ∨ address = some []) ∧ topics = [] then
    throw (.valueError "eth_getLogs requires an address or topic filter.")
  else do
    let result ← request ⟨"eth_getLogs", [.obj (logParams fromBlock toBlock address topics)]⟩
    match result with
    | .arr rows => pure (rows.filterMap asObject)
    | _ => throw (badPayload "eth_getLogs" "Provider returned non-list logs payload.")

def ofRequest (request : JsonRpc σ) : EthereumClient σ where
  ethChainId := ethChainId request
  ethGetBlockByNumber := ethGetBlockByNumber request
  ethGetFinalizedBlock := ethGetFinalizedBlock request
  ethGetLogs := ethGetLogs request

end EthereumJsonRpcClient

end EthereumLogs
