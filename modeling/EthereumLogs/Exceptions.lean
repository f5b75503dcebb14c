import EthereumLogs.Library.Effect

namespace EthereumLogs

structure RpcErrorDetail where
  method : String
  message : String
  retryable : Bool
  code : Option Int
  httpStatus : Option Int
deriving DecidableEq, Repr

inductive RetryableKind where
  | base | rateLimit | timeout | rangeTooLarge | tooManyResults
deriving DecidableEq, Repr

inductive RpcError where
  | retryable (kind : RetryableKind) (detail : RpcErrorDetail)
  | nonRetryable (detail : RpcErrorDetail)
deriving DecidableEq, Repr

inductive Exc where
  | configError (message : String)
  | blockRangeError (message : String)
  | retryableIntervalNotFinalized (message : String)
  | logCollectionError (message : String) (failedRange : Option (Int × Int))
  | normalizationError (message : String)
  | deltaWriteError (message : String)
  | dbtBuildError (message : String)
  | rpc (error : RpcError)
  | valueError (message : String)
  | typeError (message : String)
  | keyError (key : String)
  | overflowError (message : String)
  | osError (message : String)
  | runtimeError (message : String)
deriving DecidableEq, Repr

def RpcError.detail : RpcError → RpcErrorDetail
  | .retryable _ d => d
  | .nonRetryable d => d

def Exc.isRetryableRpcError : Exc → Bool
  | .rpc (.retryable _ _) => true
  | _ => false

def Exc.isRpcError : Exc → Bool
  | .rpc _ => true
  | _ => false

def Exc.isPipelineError : Exc → Bool
  | .configError _ => true
  | .blockRangeError _ => true
  | .retryableIntervalNotFinalized _ => true
  | .logCollectionError _ _ => true
  | .normalizationError _ => true
  | .deltaWriteError _ => true
  | .dbtBuildError _ => true
  | .rpc _ => true
  | _ => false

theorem Exc.not_rpc_of_foreign {e : Exc} (h : e.isPipelineError = false) : e.isRpcError = false := by
  cases e with
  | rpc error => cases h
  | _ => rfl

-- ConfigError derives from ValueError
def Exc.isValueError : Exc → Bool
  | .valueError _ => true
  | .configError _ => true
  | _ => false

abbrev Action (σ α : Type) := Effect.Eff σ Exc α

end EthereumLogs
