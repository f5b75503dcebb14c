import EthereumLogs.Settings
import EthereumLogs.Library.Validation

namespace EthereumLogs
open Python Validation

variable {α : Type} {nfkc : Text → Text} {env : Environ} {s : Text} {e : Exc}

def IsConfigError (e : Exc) : Prop := ∃ message, e = .configError message

def IsBareValueError (e : Exc) : Prop := ∃ message, e = .valueError message

theorem isConfigError_intro (message : String) : IsConfigError (.configError message) := ⟨message, rfl⟩

theorem IsBareValueError.not_config (h : IsBareValueError e) : ¬ IsConfigError e := by
  obtain ⟨message, rfl⟩ := h
  rintro ⟨other, hother⟩
  cases hother

section Url

variable {netloc url host : Text}

theorem checkBracketedHost_errors (h : checkBracketedHost host = .error e) : IsBareValueError e := by
  unfold checkBracketedHost at h
  split_ifs at h
  all_goals
    cases h
    exact ⟨_, rfl⟩

theorem checkBrackets_errors (h : checkBrackets netloc = .error e) : IsBareValueError e := by
  unfold checkBrackets checkBracketedNetloc at h
  dsimp only at h
  split_ifs at h
  · cases h
    exact ⟨_, rfl⟩
  · cases h
    exact ⟨_, rfl⟩
  · exact checkBracketedHost_errors h
  · exact checkBracketedHost_errors h

theorem checkNetloc_errors (h : checkNetloc nfkc netloc = .error e) : IsBareValueError e := by
  unfold checkNetloc at h
  dsimp only at h
  split_ifs at h
  cases h
  exact ⟨_, rfl⟩

theorem urlsplit_errors (h : urlsplit nfkc url = .error e) : IsBareValueError e := by
  unfold urlsplit at h
  dsimp only [bind, Except.bind] at h
  split at h
  · next hbrackets =>
    cases h
    exact checkBrackets_errors hbrackets
  · split at h
    · next hnetloc =>
      cases h
      exact checkNetloc_errors hnetloc
    · cases h

end Url

section Readers

variable {parse : Text → Option α} {below : α → Bool} {kind shown name primary fallback : String}
  {default : α} {P : Option Text → α → Prop} {read : String → Except Exc α}

-- a blank text counts as a missing one
def NumberIs (parse : Text → Option α) (raw : Option Text) (default value : α) : Prop :=
  match emptyToNone raw with
  | none => value = default
  | some text => parse text = some value

def primaryOr (env : Environ) (primary fallback : String) : Option Text :=
  if ¬ isUnset (env primary) then env primary else env fallback

theorem emptyToNone_blank (h : strip s = []) : emptyToNone (some s) = none := by
  rw [emptyToNone, Option.filter_some, if_neg (by simp [h])]

theorem emptyToNone_given (h : strip s ≠ []) : emptyToNone (some s) = some s := by
  rw [emptyToNone, Option.filter_some, if_pos (by simp [h])]

namespace PipelineSettings

theorem parsedOr_reads :
    Reads IsConfigError (NumberIs parse (env name) default) (parsedOr parse kind env name default) := by
  unfold NumberIs parsedOr
  cases env name with
  | none => exact Reads.pure default
  | some raw =>
    by_cases hblank : strip raw = []
    · rw [emptyToNone_blank hblank]
      simp only [if_pos hblank]
      exact Reads.pure default
    · rw [emptyToNone_given hblank]
      simp only [if_neg hblank]
      cases parse raw with
      | none => exact (Reads.throw (isConfigError_intro _)).imp_iff fun v => by simp
      | some value =>
        exact (Reads.pure value).imp_iff fun v =>
          ⟨fun h => congrArg some h.symm, fun h => (Option.some.inj h).symm⟩

theorem readNumber_reads :
    Reads IsConfigError (fun v => NumberIs parse (env name) default v ∧ below v = false)
      (readNumber parse below kind shown env name default) := by
  have hparsed : Reads IsConfigError (NumberIs parse (env name) default)
      (parsedOr parse kind env name default) := parsedOr_reads
  have hall := hparsed.bind fun v _ =>
    Reads.guard (isConfigError_intro s!"{name} must be greater than or equal to {shown}.")
      fun _ : ¬ below v = true => Reads.pure v
  refine hall.imp_iff fun v => ⟨?_, ?_⟩
  · rintro ⟨v', hnumber, hbelow, rfl⟩
    exact ⟨hnumber, Bool.eq_false_iff.mpr hbelow⟩
  · rintro ⟨hnumber, hbelow⟩
    exact ⟨v, hnumber, Bool.eq_false_iff.mp hbelow, rfl⟩

theorem withFallback_reads (h : ∀ name, Reads IsConfigError (P (env name)) (read name)) :
    Reads IsConfigError (P (primaryOr env primary fallback)) (withFallback read env primary fallback) := by
  unfold withFallback primaryOr
  by_cases hgiven : ¬ isUnset (env primary) = true
  · rw [if_pos hgiven, if_pos hgiven]
    exact h primary
  · rw [if_neg hgiven, if_neg hgiven]
    exact h fallback

def IntIs (default minimum : Int) (raw : Option Text) (value : Int) : Prop :=
  NumberIs intBase10 raw default value ∧ minimum ≤ value

def FloatIs (default : PyFloat) (raw : Option Text) (value : PyFloat) : Prop :=
  NumberIs floatOf raw default value ∧ value.lt .tenth = false

theorem readInt_reads (default minimum : Int) (name : String) :
    Reads IsConfigError (IntIs default minimum (env name)) (readInt env default minimum name) :=
  readNumber_reads.imp_iff fun v => and_congr_right fun _ => by simp

theorem readFloat_reads (default : PyFloat) (name : String) :
    Reads IsConfigError (FloatIs default (env name)) (readFloat env default name) :=
  readNumber_reads

end PipelineSettings

end Readers

section Scope

structure DefaultScope (env : Environ) : Prop where
  mode : PipelineSettings.requestedModeOf env ∈ [[], collectionScopeMode]
  address : strip ((env "ETH_LOG_ADDRESS_FILTER").getD []) = []
  topic : strLower (strip ((env "ETH_LOG_TOPIC0").getD transferTopic0)) = transferTopic0

theorem CollectionScope.validate_reads (scope : CollectionScope) :
    Reads IsConfigError (fun _ => scope = defaultTransferTopicAllAddresses 1) scope.validate := by
  refine ⟨fun _ => validate_ok_iff scope, fun e he => ?_⟩
  unfold validate at he
  split_ifs at he
  all_goals
    cases he
    exact isConfigError_intro _

namespace PipelineSettings

theorem configuredScope_default_iff (chainId : Int) :
    configuredScope env chainId = .defaultTransferTopicAllAddresses 1 ↔ chainId = 1 ∧
      strip ((env "ETH_LOG_ADDRESS_FILTER").getD []) = [] ∧
      strLower (strip ((env "ETH_LOG_TOPIC0").getD transferTopic0)) = transferTopic0 := by
  have haddress : ∀ filter : Text, (if filter = [] then none else some filter) = none ↔ filter = [] := by
    intro filter
    by_cases h : filter = []
    · simp [h]
    · simp [h]
  simp only [configuredScope, CollectionScope.defaultTransferTopicAllAddresses,
    CollectionScope.mk.injEq, true_and, and_true, List.cons.injEq, haddress]

theorem requestedMode_iff :
    ¬ (requestedModeOf env ≠ [] ∧ requestedModeOf env ≠ collectionScopeMode) ↔
      requestedModeOf env ∈ [[], collectionScopeMode] := by
  rw [List.mem_cons, List.mem_singleton]
  tauto

theorem readCollectionScope_reads (chainId : Int) :
    Reads IsConfigError (fun scope => scope = .defaultTransferTopicAllAddresses 1 ∧
      DefaultScope env ∧ chainId = 1) (readCollectionScope env chainId) := by
  have hconfigured : Reads IsConfigError _ _ :=
    (CollectionScope.validate_reads (configuredScope env chainId)).bind
      fun _ _ => Reads.pure (configuredScope env chainId)
  refine (Reads.guard (isConfigError_intro _) fun _ => hconfigured).imp_iff fun scope => ?_
  rw [requestedMode_iff, configuredScope_default_iff]
  constructor
  · rintro ⟨hmode, -, ⟨hchain, haddress, htopic⟩, rfl⟩
    exact ⟨(configuredScope_default_iff chainId).mpr ⟨hchain, haddress, htopic⟩,
      ⟨hmode, haddress, htopic⟩, hchain⟩
  · rintro ⟨rfl, hdefault, hchain⟩
    have hfields := And.intro hchain (And.intro hdefault.address hdefault.topic)
    exact ⟨hdefault.mode, (), hfields, ((configuredScope_default_iff chainId).mpr hfields).symm⟩

end PipelineSettings

end Scope

section Provider

variable {url : Text} {Q : ProviderConfig → Prop}

structure ProviderGiven (env : Environ) (url : Text) : Prop where
  endpoint : ProviderConfig.endpointOf env = some url
  authMode : ProviderConfig.isAuthMode (ProviderConfig.authModeOf env) = true

structure ProviderValid (nfkc : Text → Text) (env : Environ) (url : Text) : Prop
    extends ProviderGiven env url where
  http : ∃ parsed, urlsplit nfkc url = .ok parsed ∧ ProviderConfig.isAbsoluteHttp parsed = true ∧
    ProviderConfig.isPlaceholder url parsed = false
  basic : ProviderConfig.authModeOf env = "basic".toList →
    isUnset (firstNonEmpty env ["ETH_RPC_USERNAME", "CHAINSTACK_RPC_USERNAME"]) = false ∧
      isUnset (firstNonEmpty env ["ETH_RPC_PASSWORD", "CHAINSTACK_RPC_PASSWORD"]) = false
  bearer : ProviderConfig.authModeOf env = "bearer".toList →
    isUnset (emptyToNone (env "ETH_RPC_BEARER_TOKEN")) = false

def EndpointSplits (nfkc : Text → Text) (env : Environ) : Prop :=
  ∀ url, ProviderGiven env url → ∃ parsed, urlsplit nfkc url = .ok parsed

namespace ProviderConfig

variable {config : ProviderConfig}

structure Accepts (config : ProviderConfig) (parsed : SplitResult) : Prop where
  absolute : isAbsoluteHttp parsed = true
  real : isPlaceholder config.endpointUrl parsed = false
  basic : config.authMode = "basic".toList →
    isUnset config.username = false ∧ isUnset config.password = false
  bearer : config.authMode = "bearer".toList → isUnset config.bearerToken = false

theorem validate_meets {R : Prop} : Meets IsConfigError (fun _ => R) (config.validate nfkc) ↔
    ∃ parsed, urlsplit nfkc config.endpointUrl = .ok parsed ∧ (config.Accepts parsed → R) := by
  rw [validate, meets_bind]
  cases hsplit : urlsplit nfkc config.endpointUrl with
  | error e =>
    refine ⟨fun h => absurd (meets_error.mp h) (urlsplit_errors hsplit).not_config, ?_⟩
    rintro ⟨parsed, hparsed, -⟩
    cases hparsed
  | ok parsed =>
    simp only [meets_ok, meets_guard (isConfigError_intro _), Except.ok.injEq, exists_eq_left']
    constructor
    · intro h haccepts
      refine h (not_not.mpr haccepts.absolute) (Bool.eq_false_iff.mp haccepts.real) ?_ ?_
      · rintro ⟨hmode, hunset⟩
        simp [haccepts.basic hmode] at hunset
      · rintro ⟨hmode, hunset⟩
        simp [haccepts.bearer hmode] at hunset
    · intro h habsolute hreal hbasic hbearer
      refine h ⟨not_not.mp habsolute, Bool.eq_false_iff.mpr hreal, fun hmode => ?_, fun hmode => ?_⟩
      · simpa [hmode] using hbasic
      · simpa [hmode] using hbearer

theorem fromEnv_meets {R : Prop} : Meets IsConfigError (fun _ => R) (fromEnv nfkc env) ↔
    EndpointSplits nfkc env ∧ ((∃ url, ProviderValid nfkc env url) → R) := by
  unfold fromEnv
  cases hendpoint : endpointOf env with
  | none =>
    refine ⟨fun _ => ⟨fun url hgiven => ?_, ?_⟩, fun _ => isConfigError_intro _⟩
    · rw [hgiven.endpoint] at hendpoint
      cases hendpoint
    · rintro ⟨url, hvalid⟩
      rw [hvalid.endpoint] at hendpoint
      cases hendpoint
  | some url =>
    have honly : ∀ url', ProviderGiven env url' → url' = url := fun url' hgiven =>
      Option.some.inj (hgiven.endpoint.symm.trans hendpoint)
    simp only [meets_guard (isConfigError_intro _), not_not, meets_bind, meets_ok, validate_meets]
    constructor
    · intro h
      refine ⟨fun url' hgiven => ?_, ?_⟩
      · obtain ⟨parsed, hparsed, -⟩ := h hgiven.authMode
        rw [honly url' hgiven]
        exact ⟨parsed, hparsed⟩
      · rintro ⟨url', hvalid⟩
        obtain ⟨parsed, hparsed, hR⟩ := h hvalid.authMode
        obtain ⟨parsed', hparsed', habsolute, hreal⟩ := hvalid.http
        obtain rfl := honly url' hvalid.toProviderGiven
        rw [hparsed] at hparsed'
        cases hparsed'
        exact hR ⟨habsolute, hreal, hvalid.basic, hvalid.bearer⟩
    · rintro ⟨hsplits, hvalid⟩ hmode
      obtain ⟨parsed, hparsed⟩ := hsplits url ⟨hendpoint, hmode⟩
      refine ⟨parsed, hparsed, fun haccepts => hvalid ⟨url, ?_⟩⟩
      exact ⟨⟨hendpoint, hmode⟩, ⟨parsed, hparsed, haccepts.absolute, haccepts.real⟩,
        haccepts.basic, haccepts.bearer⟩

end ProviderConfig

end Provider

section Addresses

variable {value name : Text} {usdt treasury : Text}

-- ^0x[0-9a-fA-F]{40}$
def HexAddress (address : Text) : Prop :=
  ∃ digits, address = '0' :: 'x' :: digits ∧ digits.length = 40 ∧ ∀ c ∈ digits, isHexDigit c = true

def AddressShape (address : Text) : Prop := address.length = 42 ∧ startsWith0x address = true

-- a misshapen address stops the checks with ConfigError
def AddressesChecked (usdt treasury : Text) : Prop :=
  AddressShape usdt → BaseSixteenLiteral (usdt.drop 2) ∧
    (AddressShape treasury → HexAddress usdt ∧ HexAddress treasury)

theorem HexAddress.literal (h : HexAddress value) : BaseSixteenLiteral (value.drop 2) := by
  obtain ⟨digits, rfl, hlength, hdigits⟩ := h
  have hne : digits ≠ [] := by
    rintro rfl
    cases hlength
  exact int16_ok_iff.mp ⟨_, int16_hexDigits hdigits hne⟩

theorem validateAddress_meets {R : Prop} (name : String) :
    Meets IsConfigError (fun _ => R) (PipelineSettings.validateAddress value name) ↔
      (AddressShape value → BaseSixteenLiteral (value.drop 2) ∧ R) := by
  have hshape : ¬ (value.length ≠ 42 ∨ ¬ startsWith0x value = true) ↔ AddressShape value := by
    rw [not_or, not_not, not_not]
    rfl
  rw [PipelineSettings.validateAddress, meets_guard (isConfigError_intro _), hshape]
  refine imp_congr_right fun _ => ?_
  rw [meets_bind]
  cases hliteral : int16 (value.drop 2) with
  | ok n =>
    exact ⟨fun h => ⟨int16_ok_iff.mp ⟨n, hliteral⟩, h⟩, And.right⟩
  | error e =>
    refine ⟨fun h => absurd (meets_error.mp h) ?_, fun h => ?_⟩
    · exact IsBareValueError.not_config ⟨_, int16_error hliteral⟩
    · obtain ⟨n, hn⟩ := int16_ok_iff.mpr h.1
      rw [hliteral] at hn
      cases hn

theorem validateAddresses_meets (usdtName treasuryName : String) :
    Meets IsConfigError (fun _ => HexAddress usdt ∧ HexAddress treasury)
        (PipelineSettings.validateAddress usdt usdtName >>= fun _ =>
          PipelineSettings.validateAddress treasury treasuryName) ↔
      AddressesChecked usdt treasury := by
  rw [meets_bind]
  simp only [validateAddress_meets]
  refine imp_congr_right fun _ => and_congr_right fun _ => imp_congr_right fun _ => ?_
  exact ⟨And.right, fun h => ⟨h.2.literal, h⟩⟩

end Addresses

namespace PipelineSettings

variable {settings : PipelineSettings} {chainId : Int} {provider : ProviderConfig}

structure SettingsValid (env : Environ) : Prop where
  maxBlocks : IntIs EthereumLogs.maxBlocksPerLogRequest 1 (env "ETH_LOG_MAX_BLOCK_RANGE")
    EthereumLogs.maxBlocksPerLogRequest
  timeout : ∃ timeout, FloatIs (.finite 20)
    (primaryOr env "ETH_RPC_TIMEOUT_SECONDS" "RPC_TIMEOUT_SECONDS") timeout
  maxRetries : ∃ retries, IntIs 3 0 (env "ETH_RPC_MAX_RETRIES") retries
  requestsPerSecond : ∃ rate, FloatIs (.finite 4) (env "ETH_RPC_REQUESTS_PER_SECOND") rate ∧
    PyFloat.lt (.finite 4) rate = false
  concurrency : IntIs 1 1 (env "ETH_RPC_CONCURRENCY") 1
  scope : DefaultScope env
  decimals : ∃ decimals, IntIs 6 0 (env "DBT_USDT_DECIMALS") decimals

def HasHexAddresses (settings : PipelineSettings) : Prop :=
  HexAddress settings.usdtContractAddress ∧ HexAddress settings.tetherTreasuryAddress

structure LimitsMet (settings : PipelineSettings) : Prop where
  maxBlocks : settings.maxBlocksPerLogRequest = EthereumLogs.maxBlocksPerLogRequest
  requestsPerSecond : PyFloat.lt (.finite 4) settings.rpcRequestsPerSecond = false
  concurrency : settings.rpcConcurrency = 1
  chain : settings.collectionScope.chainId = settings.chainId
  scope : settings.collectionScope = .defaultTransferTopicAllAddresses 1

theorem validate_meets :
    Meets IsConfigError (fun _ => settings.HasHexAddresses) settings.validate ↔
      (settings.LimitsMet →
        AddressesChecked settings.usdtContractAddress settings.tetherTreasuryAddress) := by
  unfold validate HasHexAddresses
  simp only [meets_guard (isConfigError_intro _), not_not,
    (CollectionScope.validate_reads _).meets_bind, validateAddresses_meets, Bool.not_eq_true]
  constructor
  · intro h hlimits
    exact h hlimits.maxBlocks hlimits.requestsPerSecond hlimits.concurrency hlimits.chain () hlimits.scope
  · intro h hblocks hrate hconcurrency hchain _ hscope
    exact h ⟨hblocks, hrate, hconcurrency, hchain, hscope⟩

theorem readTimeout_reads :
    Reads IsConfigError (FloatIs (.finite 20) (primaryOr env "ETH_RPC_TIMEOUT_SECONDS"
        "RPC_TIMEOUT_SECONDS"))
      (withFallback (readFloat env (.finite 20)) env "ETH_RPC_TIMEOUT_SECONDS" "RPC_TIMEOUT_SECONDS") :=
  withFallback_reads (readFloat_reads (.finite 20))

theorem readChainId_reads :
    Reads IsConfigError (IntIs 1 1 (primaryOr env "ETH_CHAIN_ID" "EXPECTED_CHAIN_ID"))
      (withFallback (readInt env 1 1) env "ETH_CHAIN_ID" "EXPECTED_CHAIN_ID") :=
  withFallback_reads (readInt_reads 1 1)

theorem fromProvider_meets :
    Meets IsConfigError HasHexAddresses (fromProvider env chainId provider) ↔
      (chainId = 1 → SettingsValid env →
        AddressesChecked (usdtAddressOf env) (treasuryAddressOf env)) := by
  unfold fromProvider
  simp only [(readInt_reads _ _ _).meets_bind, (readFloat_reads _ _).meets_bind,
    readTimeout_reads.meets_bind, (readCollectionScope_reads _).meets_bind, meets_bind, meets_ok,
    validate_meets]
  constructor
  · intro h hchain hvalid
    obtain ⟨timeout, htimeout⟩ := hvalid.timeout
    obtain ⟨retries, hretries⟩ := hvalid.maxRetries
    obtain ⟨rate, hrate, hlimit⟩ := hvalid.requestsPerSecond
    obtain ⟨decimals, hdecimals⟩ := hvalid.decimals
    refine h _ hvalid.maxBlocks timeout htimeout retries hretries rate hrate 1 hvalid.concurrency _
      ⟨rfl, hvalid.scope, hchain⟩ decimals hdecimals ?_
    exact ⟨rfl, hlimit, rfl, hchain.symm, rfl⟩
  · intro h blocks hblocks timeout htimeout retries hretries rate hrate concurrency hconcurrency scope
      hscope decimals hdecimals hlimits
    obtain ⟨hblocksLimit, hrateLimit, hconcurrencyLimit, -, -⟩ := hlimits
    dsimp only at hblocksLimit hrateLimit hconcurrencyLimit
    subst hblocksLimit hconcurrencyLimit
    exact h hscope.2.2 ⟨hblocks, ⟨timeout, htimeout⟩, ⟨retries, hretries⟩, ⟨rate, hrate, hrateLimit⟩,
      hconcurrency, hscope.2.1, ⟨decimals, hdecimals⟩⟩

def chainIdText (env : Environ) : Option Text := primaryOr env "ETH_CHAIN_ID" "EXPECTED_CHAIN_ID"

theorem fromEnv_meets :
    Meets IsConfigError HasHexAddresses (fromEnv nfkc env) ↔
      ∀ chainId, IntIs 1 1 (chainIdText env) chainId → EndpointSplits nfkc env ∧
        ((∃ url, ProviderValid nfkc env url) → chainId = 1 → SettingsValid env →
          AddressesChecked (usdtAddressOf env) (treasuryAddressOf env)) := by
  unfold fromEnv
  simp only [readChainId_reads.meets_bind, meets_bind, fromProvider_meets, ProviderConfig.fromEnv_meets]
  rfl

def Configured (outcome : Except Exc PipelineSettings) : Prop :=
  Meets IsConfigError HasHexAddresses outcome

structure ChecksSuffice (nfkc : Text → Text) (env : Environ) : Prop where
  endpoint : (∃ chainId, IntIs 1 1 (chainIdText env) chainId) → EndpointSplits nfkc env
  addresses : IntIs 1 1 (chainIdText env) 1 → (∃ url, ProviderValid nfkc env url) →
    SettingsValid env → AddressesChecked (usdtAddressOf env) (treasuryAddressOf env)

theorem fromEnv_configured_iff (nfkc : Text → Text) (env : Environ) :
    Configured (fromEnv nfkc env) ↔ ChecksSuffice nfkc env := by
  rw [Configured, fromEnv_meets]
  constructor
  · intro h
    refine ⟨?_, fun hchain hprovider hvalid => (h 1 hchain).2 hprovider rfl hvalid⟩
    rintro ⟨chainId, hchain⟩
    exact (h chainId hchain).1
  · intro h chainId hchain
    refine ⟨h.endpoint ⟨chainId, hchain⟩, fun hprovider hone hvalid => ?_⟩
    exact h.addresses (hone ▸ hchain) hprovider hvalid

theorem fromEnv_configured_plain (husdt : HexAddress (usdtAddressOf env))
    (htreasury : HexAddress (treasuryAddressOf env))
    (hplain : ∀ url, ProviderConfig.endpointOf env = some url → PlainText url) :
    Configured (fromEnv nfkc env) := by
  refine fromEnv_meets.mpr fun chainId _ => ⟨fun url hgiven => ?_, fun _ _ _ _ => ?_⟩
  · exact urlsplit_plain (hplain url hgiven.endpoint)
  · exact ⟨husdt.literal, fun _ => ⟨husdt, htreasury⟩⟩

def environOf (pairs : List (String × String)) : Environ := fun name =>
  (pairs.lookup name).map String.toList

def mistypedUsdt : Environ := environOf
  [("ETH_RPC_URL", "https://rpc.example"),
   ("DBT_USDT_CONTRACT_ADDRESS", "0xdac17f958d2ee523a2206206994597c13d831eO7")]

def underscoredTreasury : Environ := environOf
  [("ETH_RPC_URL", "https://rpc.example"),
   ("DBT_TETHER_TREASURY_ADDRESS", "0x5754284f345afc66a98fbb0a0afe71e0f007b_49")]

def bracketedEndpoint : Environ := environOf [("ETH_RPC_URL", "https://[rpc.example")]

theorem fromEnv_configured_fails :
    ¬ Configured (fromEnv id mistypedUsdt) ∧ ¬ Configured (fromEnv id bracketedEndpoint) ∧
      ¬ Configured (fromEnv id underscoredTreasury) := by
  have husdt : fromEnv id mistypedUsdt =
      .error (.valueError "invalid literal for int() with base 16") := by decide +kernel
  have hendpoint : fromEnv id bracketedEndpoint = .error (.valueError "Invalid IPv6 URL") := by
    decide +kernel
  have htreasury : (fromEnv id underscoredTreasury).map PipelineSettings.tetherTreasuryAddress =
      .ok "0x5754284f345afc66a98fbb0a0afe71e0f007b_49".toList := by decide +kernel
  refine ⟨?_, ?_, ?_⟩
  · rw [husdt]
    exact IsBareValueError.not_config ⟨_, rfl⟩
  · rw [hendpoint]
    exact IsBareValueError.not_config ⟨_, rfl⟩
  · cases hsettings : fromEnv id underscoredTreasury with
    | error e =>
      rw [hsettings] at htreasury
      cases htreasury
    | ok settings =>
      rw [hsettings] at htreasury
      rintro ⟨-, digits, hdigits, -, hhex⟩
      rw [Except.ok.inj htreasury] at hdigits
      have htail : "5754284f345afc66a98fbb0a0afe71e0f007b_49".toList = digits := by
        simpa using hdigits
      have hunderscore := hhex '_' (htail ▸ by decide)
      exact absurd hunderscore (by decide)

end PipelineSettings

end EthereumLogs
