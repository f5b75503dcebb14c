import EthereumLogs.RpcClient
import EthereumLogs.Library.Retry
import Mathlib.Algebra.Order.Ring.Rat

namespace EthereumLogs
open Python Effect

structure RpcPayload where
  id : ℕ
  method : String
  params : List Json
deriving Repr

-- body is none where response.json() raises ValueError
inductive HttpOutcome where
  | timeout
  | transportError (className : String)
  | response (statusCode : Int) (body : Option Json)
deriving Repr

-- sleep_fn, called after so many clock readings; it raises nothing of this package
structure SleepFn where
  run : ℕ → Rat → Except Exc Unit
  foreign : ∀ readings seconds e, run readings seconds = .error e → e.isPipelineError = false

-- the seconds are rounded to whole nanoseconds, away from zero, in a signed 64-bit integer
def timeSleep (seconds : Rat) : Except Exc Unit :=
  if seconds * 10 ^ 9 < -2 ^ 63 ∨ 2 ^ 63 - 1 < seconds * 10 ^ 9 then
    .error (.overflowError "timestamp out of range for platform time_t")
  else if seconds < 0 then .error (.valueError "sleep length must be non-negative")
  else .ok ()

theorem timeSleep_foreign (seconds : Rat) (e : Exc) (h : timeSleep seconds = .error e) :
    e.isPipelineError = false := by
  unfold timeSleep at h
  split_ifs at h
  · cases h
    rfl
  · cases h
    rfl

def SleepFn.timeSleep : SleepFn := ⟨fun _ => EthereumLogs.timeSleep, fun _ => timeSleep_foreign⟩

-- the replies, the clock and the random draws around one client; str is str() of a JSON value
-- that is not a string
structure HttpEnvironment where
  post : RpcPayload → HttpOutcome
  monotonic : ℕ → Rat
  uniform : ℕ → Rat → Rat
  str : Json → Text
  sleep : SleepFn := .timeSleep

def HttpEnvironment.answering (env : HttpEnvironment) (post : RpcPayload → HttpOutcome) :
    HttpEnvironment := { env with post := post }

-- a clock that ticks once a reading, and time.sleep
def HttpEnvironment.ticking (post : RpcPayload → HttpOutcome) : HttpEnvironment where
  post := post
  monotonic n := n
  uniform _ _ := 0
  str _ := []

inductive RpcEvent where
  | clockRead (now : Rat)
  | stamped (now : Rat)
  | paced (seconds : Rat)
  | backedOff (seconds : Rat)
  | posted (payload : RpcPayload)
deriving Repr

structure RpcState where
  nextId : ℕ
  lastRequestAt : Option Rat
  readings : ℕ
  draws : ℕ
  events : List RpcEvent

structure EthereumJsonRpcClient where
  maxRetries : Int
  retryBackoffSeconds : Rat
  retryJitterSeconds : Rat
  minIntervalSeconds : Rat
deriving DecidableEq, Repr

namespace RpcState

def initial : RpcState := ⟨1, none, 0, 0, []⟩

def emit (event : RpcEvent) (s : RpcState) : RpcState := { s with events := s.events ++ [event] }

end RpcState

namespace EthereumJsonRpcClient

def init (maxRetries : Int) (requestsPerSecond retryBackoffSeconds retryJitterSeconds : Rat) :
    Except Exc EthereumJsonRpcClient :=
  if requestsPerSecond ≤ 0 ∨ 4 < requestsPerSecond then
    .error (.valueError "requests_per_second must be > 0 and <= 4.")
  else .ok ⟨maxRetries, retryBackoffSeconds, retryJitterSeconds, 1 / requestsPerSecond⟩

def hasMarker (marker : Text) : Text → Bool
  | [] => marker.isEmpty
  | c :: cs => marker.isPrefixOf (c :: cs) || hasMarker marker cs

def tooManyMarkers : List Text :=
  ["too many".toList, "more than".toList, "response size".toList, "log response".toList]

def rangeMarkers : List Text := ["large".toList, "limit".toList, "exceed".toList]

def timeoutMarkers : List Text := ["timeout".toList, "timed out".toList]

def rateLimitMarkers : List Text :=
  ["rate limit".toList, "rate-limit".toList, "throttle".toList, "compute unit".toList]

def errorMessage (str : Json → Text) : Json → Text
  | .obj fields =>
    match JsonObject.get fields "message" with
    | some (.str message) => message
    | some value => str value
    | none => "JSON-RPC error".toList
  | .str payload => payload
  | payload => str payload

-- bool is an int in Python
def errorCode : Json → Option Int
  | .obj fields =>
    match JsonObject.get fields "code" with
    | some (.int code) => some code
    | some (.bool code) => some (if code then 1 else 0)
    | _ => none
  | _ => none

-- lower is str.lower on ASCII; elsewhere str.lower yields an ASCII letter for two characters only,
-- k and the i before U+0307, and no marker has a k or ends in i
def classifyMessage (method : String) (message : Text) (code : Option Int) : RpcError :=
  let lowered := lower message
  let detail (retryable : Bool) : RpcErrorDetail :=
    ⟨method, String.ofList message, retryable, code, none⟩
  if tooManyMarkers.any (hasMarker · lowered) then .retryable .tooManyResults (detail true)
  else if hasMarker "range".toList lowered && rangeMarkers.any (hasMarker · lowered) then
    .retryable .rangeTooLarge (detail true)
  else if timeoutMarkers.any (hasMarker · lowered) then .retryable .timeout (detail true)
  else if rateLimitMarkers.any (hasMarker · lowered) then .retryable .rateLimit (detail true)
  else if code = some (-32005) ∨ code = some (-32002) then .retryable .base (detail true)
  else .nonRetryable (detail false)

def classifyRpcError (str : Json → Text) (method : String) (payload : Json) : RpcError :=
  classifyMessage method (errorMessage str payload) (errorCode payload)

def mustSplitInsteadOfRetry : Exc → Bool
  | .rpc (.retryable .rangeTooLarge _) => true
  | .rpc (.retryable .tooManyResults _) => true
  | _ => false

def retryable (kind : RetryableKind) (method message : String) (httpStatus : Option Int) : Exc :=
  .rpc (.retryable kind ⟨method, message, true, none, httpStatus⟩)

def readBody (env : HttpEnvironment) (method : String) : Option Json → Except Exc Json
  | some (.obj fields) =>
    match JsonObject.get fields "error" with
    | some payload => .error (.rpc (classifyRpcError env.str method payload))
    | none =>
      match JsonObject.get fields "result" with
      | some result => .ok result
      | none => .error (retryable .base method s!"{method} missed result field." none)
  | some _ => .error (retryable .base method s!"{method} returned non-object JSON." none)
  | none => .error (retryable .base method s!"{method} returned invalid JSON." none)

def readOutcome (env : HttpEnvironment) (method : String) : HttpOutcome → Except Exc Json
  | .timeout => .error (retryable .timeout method s!"{method} timed out." none)
  | .transportError className =>
    .error (retryable .base method s!"{method} transport error: {className}." none)
  | .response statusCode body =>
    if statusCode = 429 then
      .error (retryable .rateLimit method s!"{method} provider rate limit." (some 429))
    else if 500 ≤ statusCode ∧ statusCode ≤ 599 then
      .error (retryable .base method s!"{method} provider HTTP {statusCode}." (some statusCode))
    else if statusCode ≥ 400 then
      .error (.rpc (.nonRetryable
        ⟨method, s!"{method} provider HTTP {statusCode}.", false, none, some statusCode⟩))
    else readBody env method body

def requestOnce (env : HttpEnvironment) (call : RpcCall) : Action RpcState Json := do
  let s ← Eff.get
  let payload : RpcPayload := ⟨s.nextId, call.method, call.params⟩
  Eff.modify fun s => { s with nextId := s.nextId + 1 }.emit (.posted payload)
  Eff.ofExcept (readOutcome env call.method (env.post payload))

def readClock (env : HttpEnvironment) : Action RpcState Rat := do
  let s ← Eff.get
  Eff.modify fun s => { s with readings := s.readings + 1 }.emit (.clockRead (env.monotonic s.readings))
  pure (env.monotonic s.readings)

def stamp (now : Rat) : Action RpcState Unit :=
  Eff.modify fun s => { s with lastRequestAt := some now }.emit (.stamped now)

def sleepFor (env : HttpEnvironment) (event : Rat → RpcEvent) (seconds : Rat) :
    Action RpcState Unit := do
  let s ← Eff.get
  Eff.ofExcept (env.sleep.run s.readings seconds)
  Eff.modify (RpcState.emit (event seconds))

def rateLimit (env : HttpEnvironment) (client : EthereumJsonRpcClient) : Action RpcState Unit := do
  let now ← readClock env
  let s ← Eff.get
  match s.lastRequestAt with
  | some lastRequestAt =>
    let remaining := client.minIntervalSeconds - (now - lastRequestAt)
    if remaining > 0 then do
      sleepFor env .paced remaining
      stamp (← readClock env)
    else stamp now
  | none => stamp now

-- the least int that rounds to no float of the given largest exponent and half last place
def floatOverflow (maxExponent halfUlp : ℕ) : ℕ := 2 ^ (maxExponent + 1) - 2 ^ halfUlp

-- a float times an int first converts the int
def timesFloat (x : Rat) (n : ℕ) : Except Exc Rat :=
  if n < floatOverflow 1023 970 then .ok (x * n)
  else .error (.overflowError "int too large to convert to float")

def backoffDelay (env : HttpEnvironment) (client : EthereumJsonRpcClient) (attempt : ℕ) :
    Action RpcState Rat := do
  let base ← Eff.ofExcept (timesFloat client.retryBackoffSeconds (2 ^ attempt))
  let s ← Eff.get
  Eff.modify fun s => { s with draws := s.draws + 1 }
  pure (base + env.uniform s.draws client.retryJitterSeconds)

-- for attempt in range(max_retries + 1)
def requestLoop (env : HttpEnvironment) (client : EthereumJsonRpcClient) (call : RpcCall) :
    ℕ → ℕ → Action RpcState Json
  | 0, _ => throw (.runtimeError "unreachable RPC retry state")
  | remaining + 1, attempt =>
    tryCatch (do
      rateLimit env client
      requestOnce env call)
    fun exc =>
      if exc.isRetryableRpcError then
        if mustSplitInsteadOfRetry exc || decide (client.maxRetries ≤ attempt) then throw exc
        else do
          let delay ← backoffDelay env client attempt
          sleepFor env .backedOff delay
          requestLoop env client call remaining (attempt + 1)
      else throw exc

def request (env : HttpEnvironment) (client : EthereumJsonRpcClient) : JsonRpc RpcState :=
  fun call => requestLoop env client call (client.maxRetries + 1).toNat 0

def connect (env : HttpEnvironment) (client : EthereumJsonRpcClient) : EthereumClient RpcState :=
  ofRequest (request env client)

end EthereumJsonRpcClient

end EthereumLogs
