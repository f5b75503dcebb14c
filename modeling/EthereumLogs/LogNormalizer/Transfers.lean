import EthereumLogs.Config
import EthereumLogs.LogNormalizer.Amounts
import EthereumLogs.LogNormalizer.HexFields

namespace EthereumLogs.LogNormalizer
open Python Effect

def isErc20TransferTopic (topic0 : Option Text) : Bool := topic0.map lower = some transferTopic0

def topicToAddress : Json → Except Exc (Option Text)
  | .null => .ok none
  | topic => do
    let lowered ← requiredHex topic.asStr
    if lowered.length ≠ uint256WordHexLength then
      .error (.valueError "indexed address topic must be 32 bytes.")
    else .ok (some ("0x".toList ++ lowered.drop (lowered.length - 40)))

end EthereumLogs.LogNormalizer
