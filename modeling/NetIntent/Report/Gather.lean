import NetIntent.Report.Status

namespace NetIntent

/-!
# Gathering a report

A report walks through the apps, the clusters and the resources of one context. A resource or a
cluster that cannot be read is passed over; only the context itself and its overall status have to
be readable.

* `AppContext.observe` — one resource as the context shows it;
* `contextResources` — the resources of a cluster by what the context shows;
* `snapshotReports`, `snapshotCounts` — the same by a snapshot of the cluster;
* `gather` — the report on a context.

Filters are applied to what is reported, never to what is counted.
-/

/-- A resource as a context shows it. -/
structure Observed where
  object : KubeObject
  status : Option InstallStatus
deriving Inhabited

namespace AppContext

/-- The status that the synchronizer wrote for a resource, if it wrote one. -/
def installStatus (c : AppContext) (h : Handle) : Op (Option InstallStatus) := do
  match ← (c.getLevelHandle h "status").attempt with
  | .ok status =>
    let written ← c.nodes.value InstallStatus.ofDocument? status
    return some written
  | .error (.handleNotFound ..) => return none
  | .error e => throw e

/-- A resource and its status; nothing if either of them cannot be read. -/
def observe (c : AppContext) (h : Handle) : Op (Option Observed) := do
  match ← (c.nodes.rawValue h).attempt with
  | .ok (.string text) =>
    match ← (c.installStatus h).attempt with
    | .ok status => return (KubeObject.ofManifest? text).map fun object => ⟨object, status⟩
    | .error _ => return none
  | _ => return none

/-- The resources that can be read, in order. -/
def observeAll (c : AppContext) : List Handle → Op (List Observed)
  | [] => return []
  | h :: rest => do
    let first ← c.observe h
    let others ← observeAll c rest
    return first.toList ++ others

/-- The resources of a cluster that can be read. -/
def observeCluster (c : AppContext) (cluster : Handle) : Op (List Observed) := do
  let handles ← c.nodes.handles cluster
  c.observeAll (handles.filter (·.isResourceOf cluster))

/-- The snapshot of a cluster of an app, if there is one that can be read. -/
def snapshot (c : AppContext) (app cluster : String) : Op (Option Snapshot) := do
  match ← (c.getClusterStatusHandle app cluster).attempt with
  | .error _ => return none
  | .ok h =>
    match ← (c.nodes.rawValue h).attempt with
    | .ok value => return Snapshot.ofValue? value
    | .error _ => return none

end AppContext

/-- The whole object, where the output asks for it. -/
def detailOf (output : StatusOutput) (o : KubeObject) : Option Json :=
  if output = .detail then some o.toJson else none

/-! ### Resources in a context -/

/-- The reports on the observed resources that the filter lets pass. -/
def resourceReports (output : StatusOutput) (filter : List String) (seen : List Observed) :
    List ResourceReport :=
  (seen.filter fun r => keeps filter r.object.name).map fun r =>
    { gvk := r.object.gvk, name := r.object.name, detail := detailOf output r.object,
      rsyncStatus := r.status }

/-- Count the observed resources by their status; those without one are not counted. -/
def observedCounts (seen : List Observed) (counts : Counts) : Counts :=
  seen.foldl (fun counts r => match r.status with
    | some s => counts.add s.name 1
    | none => counts) counts

/-- The reports on the resources of a cluster as the context shows them, and the counts with all of
    them. -/
def contextResources (c : AppContext) (cluster : Handle) (output : StatusOutput)
    (filter : List String) (counts : Counts) : Op (List ResourceReport × Counts) := do
  let seen ← c.observeCluster cluster
  return (resourceReports output filter seen, observedCounts seen counts)

/-! ### Resources in a snapshot -/

/-- The status of an object in a snapshot. -/
def present : String := "Present"

/-- The reports on the objects of a snapshot that the filter lets pass. -/
def snapshotReports (output : StatusOutput) (filter : List String) (s : Snapshot) :
    List ResourceReport :=
  (s.objects.filter fun o => keeps filter o.name).map fun o =>
    { gvk := o.gvk, name := o.name, detail := detailOf output o, clusterStatus := some present }

/-- Count the objects of a snapshot, if there are any. -/
def snapshotCounts (s : Snapshot) (counts : Counts) : Counts :=
  if s.objects.isEmpty then counts else counts.add present s.objects.length

/-! ### Clusters and apps -/

/-- The reports on the resources of a cluster, and the counts with them. Nothing is reported of a
    cluster that cannot be read. -/
def clusterResources (c : AppContext) (q : StatusQuery) (app cluster : String) (counts : Counts) :
    Op (List ResourceReport × Counts) :=
  match q.source with
  | .rsync => do
    match ← (c.getClusterHandle app cluster).attempt with
    | .error _ => return ([], counts)
    | .ok h =>
      match ← (contextResources c h q.output q.resources counts).attempt with
      | .error _ => return ([], counts)
      | .ok found => return found
  | .cluster => do
    match ← c.snapshot app cluster with
    | none => return ([], counts)
    | some s => return (snapshotReports q.output q.resources s, snapshotCounts s counts)

/-- The report on a cluster by its name inside the context; none without resources, or if the name
    has no separator. -/
def clusterReport? (cluster : String) (resources : List ResourceReport) : Option ClusterReport :=
  if resources.isEmpty then none
  else (Text.splitOnce '+' cluster).map fun (provider, name) => ⟨provider, name, resources⟩

/-- The reports on the clusters of an app, and the counts with them. -/
def clusterReports (c : AppContext) (q : StatusQuery) (app : String) :
    List String → Counts → Op (List ClusterReport × Counts)
  | [], counts => return ([], counts)
  | cluster :: rest, counts => do
    let (resources, counts) ← clusterResources c q app cluster counts
    let (reports, counts) ← clusterReports c q app rest counts
    return ((clusterReport? cluster resources).toList ++ reports, counts)

/-- The report on an app; none without clusters, or if only the counts are asked for. -/
def appReport? (q : StatusQuery) (app : String) (clusters : List ClusterReport) :
    Option AppReport :=
  if clusters.isEmpty ∨ q.output = .summary then none else some ⟨app, clusters⟩

/-- The reports on apps, and the counts with them. An app whose clusters cannot be listed is passed
    over. -/
def appReports (c : AppContext) (q : StatusQuery) :
    List String → Counts → Op (List AppReport × Counts)
  | [], counts => return ([], counts)
  | app :: rest, counts => do
    match ← (c.getClusterNames app).attempt with
    | .error _ => appReports c q rest counts
    | .ok clusters =>
      let (clusters, counts) ← clusterReports c q app (clusters.filter (keeps q.clusters)) counts
      let (reports, counts) ← appReports c q rest counts
      return ((appReport? q app clusters).toList ++ reports, counts)

/-- The report on the context that a query names, or on the last one of a ledger. -/
def gather (l : Ledger) (apps : List String) (q : StatusQuery) : Op StatusReport := do
  let id := if q.contextId = "" then l.lastId else q.contextId
  let c ← AppContext.fromId id
  let status ← c.overallStatus
  let (reports, counts) ← appReports c q (apps.filter (keeps q.apps)) .empty
  match q.source with
  | .rsync => return { ledger := l, status := status, rsyncCounts := counts, apps := reports }
  | .cluster => return { ledger := l, status := status, clusterCounts := counts, apps := reports }

end NetIntent
