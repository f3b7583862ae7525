import NetIntent.Context.App
import NetIntent.Lifecycle
import NetIntent.Metadata

namespace NetIntent

/-!
# Cluster providers and clusters

Providers and clusters are documents of one store. A cluster has three tags: its metadata, its
content and its ledger.

* `createProvider`, `getProvider`, `getProviders`, `deleteProvider` — providers;
* `createCluster`, `getCluster`, `getClusterContent`, `getLedger`, `getClusters` — clusters;
* `checkCluster` — the ledger of a cluster on which an operation is allowed;
* `replaceLedger` — write a ledger, if it is still the one that was read;
* `deleteCluster` — delete a cluster and what is left of its contexts.
-/

/-- A cluster provider. -/
structure Provider where
  metadata : Metadata
deriving DecidableEq, Inhabited

/-- A cluster. -/
structure Cluster where
  metadata : Metadata
deriving DecidableEq, Inhabited

/-- What gives access to a cluster. -/
structure ClusterContent where
  kubeconfig : String := ""
deriving DecidableEq, Inhabited

/-- A record with metadata as its only field. -/
def metadataDocument (m : Metadata) : Json := Json.ofMembers [("metadata", m.toJson)]

/-- The metadata of such a record. -/
def metadataOf? (v : Json) : Option Metadata := do
  let fields ← v.fields? ["metadata"]
  Json.required? fields "metadata" Metadata.ofJson?

namespace Provider

/-- The provider in a document. -/
def toJson (p : Provider) : Json := metadataDocument p.metadata

/-- The provider of a document. -/
def ofJson? (v : Json) : Option Provider := (metadataOf? v).map .mk

end Provider

namespace Cluster

/-- The cluster in a document. -/
def toJson (c : Cluster) : Json := metadataDocument c.metadata

/-- The cluster of a document. -/
def ofJson? (v : Json) : Option Cluster := (metadataOf? v).map .mk

end Cluster

namespace ClusterContent

/-- The content in a document. -/
def toJson (c : ClusterContent) : Json := Json.ofMembers [("kubeconfig", .string c.kubeconfig)]

/-- The content of a document. -/
def ofJson? (v : Json) : Option ClusterContent := do
  let fields ← v.fields? ["kubeconfig"]
  let kubeconfig ← Json.required? fields "kubeconfig" Json.string?
  some ⟨kubeconfig⟩

end ClusterContent

namespace Registry

/-- The store of all declared objects. -/
def store : String := "cluster"

/-- The tag of the metadata of providers and clusters. -/
def metadataTag : String := "clustermetadata"

/-- The tag of the content of a cluster. -/
def contentTag : String := "clustercontent"

/-- The tag of the ledger of a cluster. -/
def ledgerTag : String := "stateInfo"

/-- The key of a provider. -/
def providerKey (provider : String) : DocumentKey := .ofFields [("provider", provider)]

/-- The key of a cluster. -/
def clusterKey (provider cluster : String) : DocumentKey :=
  .ofFields [("provider", provider), ("cluster", cluster)]

/-- Store the value of a tag. -/
def put (key : DocumentKey) (tag : String) (value : Json) : Op Unit :=
  Op.insertDocument store key.toJson tag value

/-- Remove a document. -/
def remove (key : DocumentKey) : Op Unit := Op.removeDocument store key.toJson

/-- The first value that is found, decoded. -/
def findOne {α : Type} (read : Json → Option α) (key : DocumentKey) (tag : String) :
    Op (Option α) := do
  match ← Op.findDocuments store key.toJson tag with
  | [] => return none
  | v :: _ =>
    match read v with
    | some a => return some a
    | none => throw (Op.malformed tag)

/-- The values that are found, each decoded. -/
def findAll {α : Type} (read : Json → Option α) (key : DocumentKey) (tag : String) :
    Op (List α) := do
  let values ← Op.findDocuments store key.toJson tag
  match values.mapM read with
  | some found => return found
  | none => throw (Op.malformed tag)

/-- The first value that is found, or a failure if there is none. -/
def require {α : Type} (found : Option α) (entity key : String) : Op α :=
  match found with
  | some a => return a
  | none => throw (.notFound entity key)

end Registry

open Registry

/-! ### Providers -/

/-- Look up a provider. -/
def getProvider (provider : String) : Op Provider := do
  if provider = "" then throw (.notFound "ClusterProvider" provider)
  let found ← findOne Provider.ofJson? (providerKey provider) metadataTag
  require found "ClusterProvider" provider

/-- All providers. -/
def getProviders : Op (List Provider) := findAll Provider.ofJson? (providerKey "") metadataTag

/-- Register a provider. -/
def createProvider (p : Provider) : Op Provider := do
  Op.of p.metadata.validate
  let key := providerKey p.metadata.name
  if (← findOne Provider.ofJson? key metadataTag).isSome then
    throw (.alreadyExists "ClusterProvider" p.metadata.name)
  put key metadataTag p.toJson
  return p

/-- Delete a provider. -/
def deleteProvider (provider : String) : Op Unit := do
  let _ ← getProvider provider
  remove (providerKey provider)

/-! ### Clusters -/

/-- The key of a cluster whose names are given. -/
def exactClusterKey (provider cluster : String) : Except Failure DocumentKey :=
  if provider = "" ∨ cluster = "" then
    .error (.notFound "Cluster" (contextClusterName provider cluster))
  else .ok (clusterKey provider cluster)

/-- Look up one of the tags of a cluster. -/
def getClusterTag {α : Type} (read : Json → Option α) (tag entity : String)
    (provider cluster : String) : Op α := do
  let key ← Op.of (exactClusterKey provider cluster)
  let found ← findOne read key tag
  require found entity (contextClusterName provider cluster)

/-- Look up a cluster. -/
def getCluster (provider cluster : String) : Op Cluster :=
  getClusterTag Cluster.ofJson? metadataTag "Cluster" provider cluster

/-- Look up the content of a cluster. -/
def getClusterContent (provider cluster : String) : Op ClusterContent :=
  getClusterTag ClusterContent.ofJson? contentTag "ClusterContent" provider cluster

/-- Look up the ledger of a cluster. -/
def getLedger (provider cluster : String) : Op Ledger :=
  getClusterTag Ledger.ofJson? ledgerTag "Cluster" provider cluster

/-- All clusters of a provider. -/
def getClusters (provider : String) : Op (List Cluster) :=
  findAll Cluster.ofJson? (clusterKey provider "") metadataTag

/-- Register a cluster under a provider, and begin its ledger. -/
def createCluster (provider : String) (c : Cluster) (content : ClusterContent) : Op Cluster := do
  Op.of c.metadata.validate
  let _ ← getProvider provider
  let key := clusterKey provider c.metadata.name
  if (← findOne Cluster.ofJson? key metadataTag).isSome then
    throw (.alreadyExists "Cluster" (contextClusterName provider c.metadata.name))
  put key metadataTag c.toJson
  put key contentTag content.toJson
  let time ← Op.now
  put key ledgerTag (Ledger.append {} .created "" time).toJson
  return c

/-- Write the ledger of a cluster. -/
def putLedger (provider cluster : String) (l : Ledger) : Op Unit :=
  put (clusterKey provider cluster) ledgerTag l.toJson

/-- Write the ledger of a cluster, if it is still the one that was read. -/
def replaceLedger (provider cluster : String) (expected l : Ledger) : Op Unit := do
  let current ← getLedger provider cluster
  if current ≠ expected then throw (.stateConflict (contextClusterName provider cluster))
  putLedger provider cluster l

/-- The ledger and the state of a cluster on which the operation is allowed. -/
def checkCluster (provider cluster : String) (operation : ClusterOperation) :
    Op (Ledger × ClusterState) := do
  let l ← getLedger provider cluster
  let state ← Op.of (Lifecycle.check (contextClusterName provider cluster) l operation)
  return (l, state)

/-- The contexts of these ids that are still stored. Each of them has to have finished
    terminating. -/
def finishedContexts (cluster : String) : List String → Op (List AppContext)
  | [] => return []
  | id :: rest => do
    match ← (AppContext.fromId id).attempt with
    | .error (.notFound ..) => finishedContexts cluster rest
    | .error e => throw e
    | .ok c =>
      match ← (AppContext.statusOf id).attempt with
      | .ok status =>
        if status.isTerminal then
          let more ← finishedContexts cluster rest
          return c :: more
        else throw (.terminationPending cluster id)
      | .error e =>
        match e with
        | .store .. => throw e
        | _ => throw (.terminationPending cluster id)

/-- Delete contexts one after the other. -/
def deleteContexts : List AppContext → Op Unit
  | [] => return ()
  | c :: rest => do
    c.delete
    deleteContexts rest

/-- Delete a cluster and the contexts of its ledger that are still stored. -/
def deleteCluster (provider cluster : String) : Op Unit := do
  let (l, _) ← checkCluster provider cluster .deleteCluster
  let live ← finishedContexts (contextClusterName provider cluster) l.ids
  deleteContexts live
  remove (clusterKey provider cluster)

end NetIntent
