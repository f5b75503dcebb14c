import EthereumLogs.Pipeline
import EthereumLogs.Python.Url
import Mathlib.Data.List.Infix

namespace EthereumLogs
open Python

abbrev Environ := String → Option Text

def emptyToNone (value : Option Text) : Option Text := value.filter fun s => strip s ≠ []

def firstNonEmpty (env : Environ) (names : List String) : Option Text :=
  names.findSome? fun name => emptyToNone (env name)

def isUnset (value : Option Text) : Bool := value = none ∨ value = some []

namespace ProviderConfig

def placeholderHosts : List Text := ["your-provider.example".toList]
def placeholderPathTokens : List Text := ["YOUR_API_KEY".toList]

def isPlaceholder (endpointUrl : Text) (parsed : SplitResult) : Bool :=
  placeholderHosts.any (fun host => parsed.hostname = some host) ||
    placeholderPathTokens.any fun token => token <:+: strUpper endpointUrl

def isAbsoluteHttp (parsed : SplitResult) : Bool :=
  (parsed.scheme = "http".toList || parsed.scheme = "https".toList) && parsed.netloc ≠ []

def validate (nfkc : Text → Text) (config : ProviderConfig) : Except Exc Unit := do
  let parsed ← urlsplit nfkc config.endpointUrl
  if ¬ isAbsoluteHttp parsed then
    .error (.configError "ETH_RPC_URL must be an absolute http(s) URL.")
  else if isPlaceholder config.endpointUrl parsed then
    .error (.configError ("ETH_RPC_URL still contains the example placeholder. " ++
      "Replace it with a real provider URL or leave it blank for fixture-only checks."))
  else if config.authMode = "basic".toList ∧ (isUnset config.username ∨ isUnset config.password) then
    .error (.configError "basic auth requires ETH_RPC_USERNAME and ETH_RPC_PASSWORD.")
  else if config.authMode = "bearer".toList ∧ isUnset config.bearerToken then
    .error (.configError "bearer auth requires ETH_RPC_BEARER_TOKEN.")
  else .ok ()

def isAuthMode (mode : Text) : Bool :=
  mode = "none".toList || mode = "basic".toList || mode = "bearer".toList

def authModeOf (env : Environ) : Text :=
  strLower (strip
    ((firstNonEmpty env ["ETH_RPC_AUTH_MODE", "CHAINSTACK_AUTH_MODE"]).getD "none".toList))

def endpointOf (env : Environ) : Option Text :=
  firstNonEmpty env ["ETH_RPC_URL", "CHAINSTACK_RPC_URL"]

def fromEnv (nfkc : Text → Text) (env : Environ) : Except Exc ProviderConfig :=
  match endpointOf env with
  | none => .error (.configError "ETH_RPC_URL must be configured.")
  | some endpoint =>
    let authMode := authModeOf env
    if ¬ isAuthMode authMode then
      .error (.configError "ETH_RPC_AUTH_MODE must be one of: none, basic, bearer.")
    else do
      let config : ProviderConfig := {
        endpointUrl := endpoint
        authMode := authMode
        username := firstNonEmpty env ["ETH_RPC_USERNAME", "CHAINSTACK_RPC_USERNAME"]
        password := firstNonEmpty env ["ETH_RPC_PASSWORD", "CHAINSTACK_RPC_PASSWORD"]
        bearerToken := emptyToNone (env "ETH_RPC_BEARER_TOKEN") }
      config.validate nfkc
      .ok config

end ProviderConfig

namespace PipelineSettings

def parsedOr {α : Type} (parse : Text → Option α) (kind : String) (env : Environ) (name : String)
    (default : α) : Except Exc α :=
  match env name with
  | none => .ok default
  | some raw =>
    if strip raw = [] then .ok default
    else match parse raw with
      | some value => .ok value
      | none => .error (.configError s!"{name} must be {kind}.")

-- shown is the f-string text of the minimum
def readNumber {α : Type} (parse : Text → Option α) (below : α → Bool) (kind shown : String)
    (env : Environ) (name : String) (default : α) : Except Exc α := do
  let value ← parsedOr parse kind env name default
  if below value then .error (.configError s!"{name} must be greater than or equal to {shown}.")
  else .ok value

def withFallback {α : Type} (read : String → Except Exc α) (env : Environ) (primary fallback : String) :
    Except Exc α :=
  if ¬ isUnset (env primary) then read primary else read fallback

def readInt (env : Environ) (default minimum : Int) (name : String) : Except Exc Int :=
  readNumber intBase10 (· < minimum) "an integer" (toString minimum) env name default

-- every float minimum of the source is 0.1
def readFloat (env : Environ) (default : PyFloat) (name : String) : Except Exc PyFloat :=
  readNumber floatOf (PyFloat.lt · .tenth) "a number" "0.1" env name default

def readPath (env : Environ) (name : String) (default : Text) : Text :=
  match env name with
  | none => default
  | some raw => if strip raw = [] then default else raw

def validateAddress (value : Text) (name : String) : Except Exc Unit :=
  if value.length ≠ 42 ∨ ¬ startsWith0x value then
    .error (.configError s!"{name} must be a 20-byte hex address.")
  else do
    let _ ← int16 (value.drop 2)
    .ok ()

def requestedModeOf (env : Environ) : Text :=
  strip ((env "ETH_COLLECTION_SCOPE_MODE").getD collectionScopeMode)

def configuredScope (env : Environ) (chainId : Int) : CollectionScope :=
  let scope := CollectionScope.defaultTransferTopicAllAddresses chainId
  let addressFilter := strip ((env "ETH_LOG_ADDRESS_FILTER").getD [])
  let topic0 := strLower (strip ((env "ETH_LOG_TOPIC0").getD transferTopic0))
  { scopeId := scope.scopeId
    scopeMode := scope.scopeMode
    chainId := chainId
    addressFilter := if addressFilter = [] then none else some addressFilter
    topicFilter := [topic0]
    fromAddressFilter := none
    toAddressFilter := none }

def readCollectionScope (env : Environ) (chainId : Int) : Except Exc CollectionScope :=
  if requestedModeOf env ≠ [] ∧ requestedModeOf env ≠ collectionScopeMode then
    .error (.configError "ETH_COLLECTION_SCOPE_MODE must be transfer_topic_all_addresses.")
  else do
    (configuredScope env chainId).validate
    .ok (configuredScope env chainId)

def validate (settings : PipelineSettings) : Except Exc Unit :=
  if settings.maxBlocksPerLogRequest ≠ EthereumLogs.maxBlocksPerLogRequest then
    .error (.configError ("ETH_LOG_MAX_BLOCK_RANGE must be exactly " ++
      s!"{EthereumLogs.maxBlocksPerLogRequest} for Alchemy Free compatibility."))
  else if PyFloat.lt (.finite 4) settings.rpcRequestsPerSecond then
    .error (.configError "ETH_RPC_REQUESTS_PER_SECOND must be less than or equal to 4.")
  else if settings.rpcConcurrency ≠ 1 then
    .error (.configError "ETH_RPC_CONCURRENCY must be 1 for local single-writer safety.")
  else if settings.collectionScope.chainId ≠ settings.chainId then
    .error (.configError "collection_scope chain_id must match ETH_CHAIN_ID.")
  else do
    settings.collectionScope.validate
    validateAddress settings.usdtContractAddress "DBT_USDT_CONTRACT_ADDRESS"
    validateAddress settings.tetherTreasuryAddress "DBT_TETHER_TREASURY_ADDRESS"

def usdtAddressOf (env : Environ) : Text :=
  (env "DBT_USDT_CONTRACT_ADDRESS").getD EthereumLogs.usdtContractAddress

def treasuryAddressOf (env : Environ) : Text :=
  (env "DBT_TETHER_TREASURY_ADDRESS").getD EthereumLogs.tetherTreasuryAddress

def fromProvider (env : Environ) (chainId : Int) (provider : ProviderConfig) :
    Except Exc PipelineSettings := do
  let maxBlocks ← readInt env EthereumLogs.maxBlocksPerLogRequest 1 "ETH_LOG_MAX_BLOCK_RANGE"
  let timeout ← withFallback (readFloat env (.finite 20)) env "ETH_RPC_TIMEOUT_SECONDS"
    "RPC_TIMEOUT_SECONDS"
  let maxRetries ← readInt env 3 0 "ETH_RPC_MAX_RETRIES"
  let requestsPerSecond ← readFloat env (.finite 4) "ETH_RPC_REQUESTS_PER_SECOND"
  let concurrency ← readInt env 1 1 "ETH_RPC_CONCURRENCY"
  let scope ← readCollectionScope env chainId
  let decimals ← readInt env 6 0 "DBT_USDT_DECIMALS"
  let settings : PipelineSettings := {
    provider := provider
    chainId := chainId
    maxBlocksPerLogRequest := maxBlocks
    rpcTimeoutSeconds := timeout
    rpcMaxRetries := maxRetries
    rpcRequestsPerSecond := requestsPerSecond
    rpcConcurrency := concurrency
    deltaLogsPath := readPath env "DELTA_LOGS_PATH" "/opt/airflow/data/delta/ethereum_logs".toList
    duckdbPath := readPath env "DUCKDB_PATH"
      "/opt/airflow/data/analytics/ethereum_analytics.duckdb".toList
    dbtProjectDir := readPath env "DBT_PROJECT_DIR" "/opt/airflow/dbt".toList
    dbtProfilesDir := readPath env "DBT_PROFILES_DIR" "/opt/airflow/dbt".toList
    dbtBin := (env "DBT_BIN").getD "dbt".toList
    collectionScope := scope
    usdtContractAddress := usdtAddressOf env
    tetherTreasuryAddress := treasuryAddressOf env
    usdtDecimals := decimals }
  settings.validate
  .ok settings

def fromEnv (nfkc : Text → Text) (env : Environ) : Except Exc PipelineSettings := do
  let chainId ← withFallback (readInt env 1 1) env "ETH_CHAIN_ID" "EXPECTED_CHAIN_ID"
  let provider ← ProviderConfig.fromEnv nfkc env
  fromProvider env chainId provider

end PipelineSettings

end EthereumLogs
