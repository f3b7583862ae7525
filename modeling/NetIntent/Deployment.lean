import NetIntent.Intent
import NetIntent.Report.Gather

namespace NetIntent

/-!
# Applying and terminating the intents of a cluster

To apply the intents of a cluster is to build a context with a custom resource for each of them, to
record it in the ledger, and to ask the synchronizer to install it. Until that request nothing is
final: a failure removes the context again. From then on the context stays, whatever the answer.

* `Deployment.commit` — build and record a context; `Deployment.apply` — and ask for it;
* `Deployment.terminate` — ask for the removal, record it, and delete the context;
* `Deployment.status` — the report on the intents of a cluster.
-/

/-- A custom resource as it is placed in a context. -/
structure Rendered where
  name : String
  text : String
deriving DecidableEq, Inhabited

namespace Deployment

/-- The custom resources of intents of one kind. -/
def render {α : Type} [Intent α] (intents : List α) : List Rendered :=
  intents.map fun i => ⟨Intent.resourceName i, Intent.resourceText i⟩

/-! ### The instructions of a context -/

/-- What an instruction says of a name that depends on nothing. -/
def independent : Json := .string "go"

/-- The order of the apps. -/
def appOrder : String := (Json.ofMembers [("apporder", Json.ofStrings [networkApp])]).text

/-- What the apps depend on. -/
def appDependency : String :=
  (Json.ofMembers [("appdependency", Json.ofMembers [(networkApp, independent)])]).text

/-- The order of resources. -/
def resourceOrder (resources : List Rendered) : String :=
  (Json.ofMembers [("resorder", Json.ofStrings (resources.map (·.name)))]).text

/-- What resources depend on. -/
def resourceDependency (resources : List Rendered) : String :=
  (Json.ofMembers
    [("resdependency", Json.ofMembers (resources.map fun r => (r.name, independent)))]).text

/-! ### Applying -/

/-- Store resources under a cluster, one after the other. -/
def addResources (c : AppContext) (cluster : Handle) : List Rendered → Op Unit
  | [] => return ()
  | r :: rest => do
    let _ ← c.addResource cluster r.name r.text
    addResources c cluster rest

/-- Store the context of a cluster. Its root comes first. -/
def buildContext (c : AppContext) (cluster : String) (resources : List Rendered) : Op Unit := do
  let root ← c.create
  let _ ← c.setStatus .instantiating
  let app ← c.addApp root networkApp
  let _ ← c.addInstruction root .app .order appOrder
  let _ ← c.addInstruction root .app .dependency appDependency
  let cluster ← c.addCluster app cluster
  addResources c cluster resources
  let _ ← c.addInstruction cluster .resource .order (resourceOrder resources)
  let _ ← c.addInstruction cluster .resource .dependency (resourceDependency resources)
  return ()

/-- Record an action that belongs to a context, if the ledger is still the one that was read. -/
def record (provider cluster : String) (l : Ledger) (state : LedgerState) (id : String) :
    Op Unit := do
  let time ← Op.now
  replaceLedger provider cluster l (l.append state id time)

/-- Remove a context after a failure: the failure to report. A context without a root was never
    begun. -/
def cleanUp (c : AppContext) (id : String) (e : Failure) : Op Failure := do
  match ← c.delete.attempt with
  | .ok _ => return e
  | .error (.notFound ..) => return e
  | .error f => return .cleanupRequired id e f.message

/-- Build the context with an id and record it. -/
def build (provider cluster : String) (l : Ledger) (resources : List Rendered) (id : String) :
    Op Unit := do
  buildContext (.ofId id) (contextClusterName provider cluster) resources
  record provider cluster l .applied id

/-- Build a context for the intents of a cluster and record it; the id of the context. After a
    failure there is no such context. -/
def commit (provider cluster : String) : Op String := do
  let (l, _) ← checkCluster provider cluster .apply
  Op.requireSynchronizer
  let networks ← Intent.getAll Network provider cluster
  let providerNetworks ← Intent.getAll ProviderNetwork provider cluster
  let id ← Op.mintId
  match ← (build provider cluster l (render networks ++ render providerNetworks) id).attempt with
  | .ok _ => return id
  | .error e =>
    let e ← cleanUp (.ofId id) id e
    throw e

/-- Apply the intents of a cluster; the id of their context. -/
def apply (provider cluster : String) (cancellation : Cancellation) : Op String := do
  let id ← commit provider cluster
  Op.ask .install id cancellation
  return id

/-! ### Terminating -/

/-- Terminate the intents of a cluster. That their context cannot be deleted is no failure. -/
def terminate (provider cluster : String) (cancellation : Cancellation) : Op Unit := do
  let (l, _) ← checkCluster provider cluster .terminate
  Op.requireSynchronizer
  let c ← AppContext.fromId l.lastId
  Op.ask .uninstall l.lastId cancellation
  record provider cluster l .terminated l.lastId
  let _ ← c.delete.attempt
  return ()

/-! ### Reporting -/

/-- The report on the intents of a cluster. -/
def status (provider cluster : String) (q : StatusQuery) : Op StatusReport := do
  let l ← getLedger provider cluster
  if q.contextId = "" ∧ l.lastId = "" then
    throw (.notApplied (contextClusterName provider cluster))
  let report ← gather l [networkApp] q
  return { report with name := cluster }

end Deployment

end NetIntent
