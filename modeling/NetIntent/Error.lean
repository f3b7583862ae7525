namespace NetIntent

/-!
# Failures

Why an operation failed, by cause.

* `Failure.code` — the stable code of a cause;
* `Failure.message` — its text;
* `Failure.isPrecondition` — whether the request or the state of the entity is to blame, and not the
  infrastructure;
* `Failure.primary` — the failure that a failed cleanup followed.
-/

/-- Why an operation failed. -/
inductive Failure where
  /-- There is no such entity. -/
  | notFound (entity key : String)
  /-- There is such an entity already. -/
  | alreadyExists (entity key : String)
  /-- The cluster is in a state that is never valid for network intents. -/
  | invalidState (cluster state : String)
  /-- The network intents of the cluster are applied and must be terminated first. -/
  | mustTerminateFirst (cluster operation : String)
  /-- The network intents of the cluster are applied already. -/
  | alreadyApplied (cluster : String)
  /-- The network intents of the cluster are not applied. -/
  | notApplied (cluster : String)
  /-- An earlier context of the cluster has not finished terminating. -/
  | terminationPending (cluster contextId : String)
  /-- The ledger changed between its check and its write. -/
  | stateConflict (cluster : String)
  /-- A ledger holds no actions. -/
  | noStateInfo
  /-- There is nothing at the requested place of a context. -/
  | handleNotFound (handle level : String)
  /-- A handle or context id is malformed or belongs to another context. -/
  | invalidHandle (handle reason : String)
  /-- A field of the request is not valid. -/
  | validation (field reason : String)
  /-- A call of a store failed. -/
  | store (operation details : String)
  /-- A stored value cannot be decoded. -/
  | serialization (context details : String)
  /-- There is no connection to the synchronizer. -/
  | rsyncUnavailable (service : String)
  /-- The synchronizer failed or declined. -/
  | rsyncFailed (operation contextId details : String)
  /-- The synchronizer did not answer in time. -/
  | rsyncTimeout (operation contextId : String) (timeoutMs : Nat)
  /-- The caller cancelled the operation. -/
  | cancelled (operation : String)
  /-- The operation failed, and so did the cleanup of the context it had begun. -/
  | cleanupRequired (contextId : String) (primary : Failure) (cleanup : String)
deriving DecidableEq, Inhabited

namespace Failure

/-- The stable code of a cause. -/
def code : Failure → String
  | .notFound .. => "NOT_FOUND"
  | .alreadyExists .. => "ALREADY_EXISTS"
  | .invalidState .. => "INVALID_STATE"
  | .mustTerminateFirst .. => "MUST_TERMINATE_FIRST"
  | .alreadyApplied .. => "ALREADY_APPLIED"
  | .notApplied .. => "NOT_APPLIED"
  | .terminationPending .. => "TERMINATION_PENDING"
  | .stateConflict .. => "STATE_CONFLICT"
  | .noStateInfo => "NO_STATE_INFO"
  | .handleNotFound .. => "HANDLE_NOT_FOUND"
  | .invalidHandle .. => "INVALID_HANDLE"
  | .validation .. => "VALIDATION_ERROR"
  | .store .. => "STORE_ERROR"
  | .serialization .. => "SERIALIZATION_ERROR"
  | .rsyncUnavailable .. => "RSYNC_UNAVAILABLE"
  | .rsyncFailed .. => "RSYNC_FAILED"
  | .rsyncTimeout .. => "RSYNC_TIMEOUT"
  | .cancelled .. => "CANCELLED"
  | .cleanupRequired .. => "CLEANUP_REQUIRED"

/-- Whether the request or the state of the entity is to blame. A failed cleanup is judged by the
    failure it followed. -/
def isPrecondition : Failure → Bool
  | .notFound .. | .alreadyExists .. | .invalidState .. | .mustTerminateFirst ..
  | .alreadyApplied .. | .notApplied .. | .terminationPending .. | .stateConflict ..
  | .validation .. | .invalidHandle .. | .rsyncUnavailable .. => true
  | .cleanupRequired _ primary _ => primary.isPrecondition
  | _ => false

/-- The failure that a failed cleanup followed, and every other failure itself. -/
def primary : Failure → Failure
  | .cleanupRequired _ first _ => first.primary
  | other => other

/-- The text of a failure. -/
def message : Failure → String
  | .notFound entity key => entity ++ " '" ++ key ++ "' not found"
  | .alreadyExists entity key => entity ++ " '" ++ key ++ "' already exists"
  | .invalidState cluster state => "Cluster is in an invalid state: " ++ cluster ++ " " ++ state
  | .mustTerminateFirst cluster operation =>
    "Existing cluster network intents must be terminated before " ++ operation ++ ": " ++ cluster
  | .alreadyApplied cluster => "Cluster network intents have already been applied: " ++ cluster
  | .notApplied cluster => "Cluster network intents have not been applied: " ++ cluster
  | .terminationPending cluster contextId =>
    "Network intents for cluster have not completed terminating: " ++ cluster ++
      " (AppContext '" ++ contextId ++ "')"
  | .stateConflict cluster => "Cluster state changed concurrently: " ++ cluster
  | .noStateInfo => "No state information"
  | .handleNotFound handle level =>
    "No handle was found for level '" ++ level ++ "' under '" ++ handle ++ "'"
  | .invalidHandle handle reason =>
    "Invalid run time context handle '" ++ handle ++ "': " ++ reason
  | .validation field reason => "Validation error for '" ++ field ++ "': " ++ reason
  | .store operation details => "Store error during '" ++ operation ++ "': " ++ details
  | .serialization context details => "Invalid data for '" ++ context ++ "': " ++ details
  | .rsyncUnavailable service => "No connection to remote sync service '" ++ service ++ "'"
  | .rsyncFailed operation contextId details =>
    operation ++ " failed for AppContext '" ++ contextId ++ "': " ++ details
  | .rsyncTimeout operation contextId timeoutMs =>
    operation ++ " for AppContext '" ++ contextId ++ "' timed out after " ++ toString timeoutMs ++
      "ms, outcome unknown"
  | .cancelled operation => operation ++ " was cancelled"
  | .cleanupRequired contextId primary cleanup =>
    primary.message ++ " (manual cleanup of AppContext '" ++ contextId ++ "' required: " ++
      cleanup ++ ")"

end Failure

end NetIntent
