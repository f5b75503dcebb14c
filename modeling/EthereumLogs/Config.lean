import EthereumLogs.Chunking
import EthereumLogs.Python.Datetime

namespace EthereumLogs
open Python

def usdtContractAddress : Text := "0xdac17f958d2ee523a2206206994597c13d831ec7".toList
def tetherTreasuryAddress : Text := "0x5754284f345afc66a98fbb0a0afe71e0f007b949".toList
def transferTopic0 : Text :=
  "0xddf252ad1be2c89b69c2b068fc378daa952ba7f163c4a11628f55a4df523b3ef".toList
def collectionScopeMode : Text := "transfer_topic_all_addresses".toList

structure CollectionScope where
  scopeId : Text
  scopeMode : Text
  chainId : Int
  addressFilter : Option Text
  topicFilter : List Text
  fromAddressFilter : Option Text
  toAddressFilter : Option Text
deriving DecidableEq, Repr

namespace CollectionScope

def defaultTransferTopicAllAddresses (chainId : Int) : CollectionScope where
  scopeId := collectionScopeMode
  scopeMode := collectionScopeMode
  chainId := chainId
  addressFilter := none
  topicFilter := [transferTopic0]
  fromAddressFilter := none
  toAddressFilter := none

def topics (scope : CollectionScope) : List Text := scope.topicFilter

def validate (scope : CollectionScope) : Except Exc Unit :=
  if scope.scopeMode ≠ collectionScopeMode ∨ scope.scopeId ≠ collectionScopeMode then
    .error (.configError "ETH_COLLECTION_SCOPE_MODE must be transfer_topic_all_addresses.")
  else if scope.chainId ≠ 1 then
    .error (.configError "collection_scope currently supports Ethereum mainnet chain_id=1.")
  else if scope.addressFilter ≠ none then
    .error (.configError "ETH_LOG_ADDRESS_FILTER must be empty for acceptance collection_scope.")
  else if scope.fromAddressFilter ≠ none ∨ scope.toAddressFilter ≠ none then
    .error (.configError "from/to address filters are not part of acceptance collection_scope.")
  else if scope.topicFilter ≠ [transferTopic0] then
    .error (.configError "ETH_LOG_TOPIC0 must be the ERC-20 Transfer topic0.")
  else .ok ()

theorem validate_ok_iff (scope : CollectionScope) :
    scope.validate = .ok () ↔ scope = defaultTransferTopicAllAddresses 1 := by
  obtain ⟨scopeId, scopeMode, chainId, address, topic, fromAddress, toAddress⟩ := scope
  simp only [validate, defaultTransferTopicAllAddresses, mk.injEq]
  constructor
  · intro h
    split_ifs at h
    simp_all
  · rintro ⟨rfl, rfl, rfl, rfl, rfl, rfl, rfl⟩
    simp

end CollectionScope

end EthereumLogs
