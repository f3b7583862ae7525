import NetIntent.Context.App
import NetIntent.Ledger
import NetIntent.Report.Query
import NetIntent.Report.Snapshot

namespace NetIntent

/-!
# Status reports

* `ResourceReport`, `ClusterReport`, `AppReport`, `StatusReport` — a report and its parts;
* `Counts` — how many resources there are of each status.
-/

/-- How many resources there are of each status. -/
abbrev Counts := OrderedMap Nat

namespace Counts

/-- Count so many more of a status. -/
def add (counts : Counts) (status : String) (n : Nat) : Counts :=
  counts.insert status ((counts.get? status).getD 0 + n)

/-- The counts in a document. -/
def toJson (counts : Counts) : Json :=
  .object (counts.entries.map fun e => (e.1, Json.ofNat e.2))

/-- The counts of a document. -/
def ofJson? : Json → Option Counts
  | .object members =>
    (members.mapM fun m => (Json.nat? m.2).map fun n => (m.1, n)).map OrderedMap.ofList
  | _ => none

end Counts

/-- One resource in a report. -/
structure ResourceReport where
  gvk : Gvk
  name : String
  /-- The whole object. -/
  detail : Option Json := none
  /-- The status that the synchronizer wrote. -/
  rsyncStatus : Option InstallStatus := none
  /-- The status on the cluster. -/
  clusterStatus : Option String := none
deriving DecidableEq, Inhabited

/-- The member of a field that is left out where it has no content. -/
def optionalMember {α : Type} (name : String) (write : α → Json) :
    Option α → List (String × Json)
  | some a => [(name, write a)]
  | none => []

namespace ResourceReport

/-- The names of the fields, in order. -/
def fieldNames : List String := ["GVK", "name", "detail", "rsync-status", "cluster-status"]

/-- The report in a document. -/
def toJson (r : ResourceReport) : Json :=
  Json.ofMembers
    ([("GVK", r.gvk.toJson), ("name", .string r.name)] ++
      optionalMember "detail" id r.detail ++
      optionalMember "rsync-status" (fun s => .string s.name) r.rsyncStatus ++
      optionalMember "cluster-status" .string r.clusterStatus)

/-- The report of a document. -/
def ofJson? (v : Json) : Option ResourceReport := do
  let fields ← v.fields? fieldNames
  let gvk ← Json.required? fields "GVK" Gvk.ofJson?
  let name ← Json.required? fields "name" Json.string?
  let detail ← Json.optional? fields "detail" none (Json.nullable? some)
  let rsyncStatus ←
    Json.optional? fields "rsync-status" none (Json.nullable? InstallStatus.ofJson?)
  let clusterStatus ← Json.optional? fields "cluster-status" none (Json.nullable? Json.string?)
  some ⟨gvk, name, detail, rsyncStatus, clusterStatus⟩

end ResourceReport

/-- The resources of an app on one cluster. -/
structure ClusterReport where
  provider : String
  cluster : String
  resources : List ResourceReport
deriving DecidableEq, Inhabited

namespace ClusterReport

/-- The report in a document. -/
def toJson (r : ClusterReport) : Json :=
  Json.ofMembers
    [("cluster-provider", .string r.provider), ("cluster", .string r.cluster),
      ("resources", .array (r.resources.map ResourceReport.toJson))]

/-- The report of a document. -/
def ofJson? (v : Json) : Option ClusterReport := do
  let fields ← v.fields? ["cluster-provider", "cluster", "resources"]
  let provider ← Json.required? fields "cluster-provider" Json.string?
  let cluster ← Json.required? fields "cluster" Json.string?
  let resources ← Json.required? fields "resources" (Json.list? ResourceReport.ofJson?)
  some ⟨provider, cluster, resources⟩

end ClusterReport

/-- The resources of one app. -/
structure AppReport where
  name : String
  clusters : List ClusterReport
deriving DecidableEq, Inhabited

namespace AppReport

/-- The report in a document. -/
def toJson (r : AppReport) : Json :=
  Json.ofMembers
    [("name", .string r.name), ("clusters", .array (r.clusters.map ClusterReport.toJson))]

/-- The report of a document. -/
def ofJson? (v : Json) : Option AppReport := do
  let fields ← v.fields? ["name", "clusters"]
  let name ← Json.required? fields "name" Json.string?
  let clusters ← Json.required? fields "clusters" (Json.list? ClusterReport.ofJson?)
  some ⟨name, clusters⟩

end AppReport

/-- The report on one context. -/
structure StatusReport where
  /-- The name of the entity that is reported on. -/
  name : String := ""
  /-- Its ledger. -/
  ledger : Ledger
  /-- The overall status of the context. -/
  status : ContextStatus
  /-- How many resources there are of each status that the synchronizer wrote. -/
  rsyncCounts : Counts := .empty
  /-- How many resources there are of each status on the clusters. -/
  clusterCounts : Counts := .empty
  /-- The apps that have resources to report. -/
  apps : List AppReport := []

namespace StatusReport

/-- The names of the fields, in order. -/
def fieldNames : List String :=
  ["name", "states", "status", "rsync-status", "cluster-status", "apps"]

/-- The report in a document. An empty name and an empty list of apps are left out. -/
def toJson (r : StatusReport) : Json :=
  Json.ofMembers
    ((if r.name = "" then [] else [("name", .string r.name)]) ++
      [("states", r.ledger.toJson), ("status", .string r.status.name),
        ("rsync-status", r.rsyncCounts.toJson), ("cluster-status", r.clusterCounts.toJson)] ++
      (if r.apps.isEmpty then [] else [("apps", .array (r.apps.map AppReport.toJson))]))

/-- The report of a document. -/
def ofJson? (v : Json) : Option StatusReport := do
  let fields ← v.fields? fieldNames
  let name ← Json.optional? fields "name" "" Json.string?
  let ledger ← Json.required? fields "states" Ledger.ofJson?
  let status ← Json.required? fields "status" ContextStatus.ofJson?
  let rsyncCounts ← Json.required? fields "rsync-status" Counts.ofJson?
  let clusterCounts ← Json.required? fields "cluster-status" Counts.ofJson?
  let apps ← Json.optional? fields "apps" [] (Json.list? AppReport.ofJson?)
  some ⟨name, ledger, status, rsyncCounts, clusterCounts, apps⟩

end StatusReport

end NetIntent
