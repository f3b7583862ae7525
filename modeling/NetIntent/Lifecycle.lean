import NetIntent.Ledger

namespace NetIntent

/-!
# The lifecycle of a cluster

A cluster is created, and then its network intents are applied and terminated in turn. While they
are applied they are frozen, and the cluster stays.

* `ClusterState.ofLedger` — the state of a cluster, if its ledger is one of a cluster;
* `Lifecycle.check` — whether an operation is allowed in the present state.
-/

/-- The state of a cluster. -/
inductive ClusterState where
  /-- The network intents were never applied. -/
  | created
  /-- The network intents are applied. -/
  | applied
  /-- The network intents were applied and are no more. -/
  | terminated
deriving DecidableEq, Inhabited

namespace ClusterState

/-- The state as a ledger records it. -/
def toLedgerState : ClusterState → LedgerState
  | created => .created
  | applied => .applied
  | terminated => .terminated

/-- The name of a state. -/
def name (s : ClusterState) : String := s.toLedgerState.name

/-- The state of a cluster that a ledger records; the other states are none of a cluster. -/
def ofLedgerState? : LedgerState → Option ClusterState
  | .created => some created
  | .applied => some applied
  | .terminated => some terminated
  | _ => none

/-- The state of a cluster by its ledger. -/
def ofLedger (cluster : String) (l : Ledger) : Except Failure ClusterState :=
  match l.current with
  | .error e => .error e
  | .ok s =>
    match ofLedgerState? s with
    | some state => .ok state
    | none => .error (.invalidState cluster s.name)

end ClusterState

/-- The operations on a cluster that depend on its state. -/
inductive ClusterOperation where
  | createIntent
  | deleteIntent
  | apply
  | terminate
  | deleteCluster
deriving DecidableEq, Inhabited

/-- What is said of an operation that is refused. -/
def ClusterOperation.phrase : ClusterOperation → String
  | createIntent => "creating"
  | deleteIntent => "deleting"
  | apply => "applying"
  | terminate => "terminating"
  | deleteCluster => "deleting the cluster"

namespace Lifecycle

/-- Whether an operation is allowed in a state: applied intents can only be terminated, and only
    applied ones can. -/
def allowed (cluster : String) (state : ClusterState) (operation : ClusterOperation) :
    Except Failure Unit :=
  match state, operation with
  | .applied, .terminate => .ok ()
  | .applied, .apply => .error (.alreadyApplied cluster)
  | .applied, op => .error (.mustTerminateFirst cluster op.phrase)
  | _, .terminate => .error (.notApplied cluster)
  | _, _ => .ok ()

/-- The state of a cluster by its ledger, if the operation is allowed in it. -/
def check (cluster : String) (l : Ledger) (operation : ClusterOperation) :
    Except Failure ClusterState :=
  match ClusterState.ofLedger cluster l with
  | .error e => .error e
  | .ok state =>
    match allowed cluster state operation with
    | .error e => .error e
    | .ok () => .ok state

end Lifecycle

end NetIntent
