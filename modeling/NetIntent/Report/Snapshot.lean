import NetIntent.Json.Literal
import NetIntent.Report.Object

namespace NetIntent

/-!
# Snapshots of a cluster

What the monitor of a cluster found there: lists of objects by their kind. A snapshot is stored as a
value, or as the text of that value.

* `Snapshot.objects` — all objects, kind after kind;
* `Snapshot.ofValue?` — the snapshot of a stored value.
-/

/-- What the monitor of a cluster found. -/
structure Snapshot where
  ready : Bool := false
  resourceCount : Int := 0
  pods : List KubeObject := []
  services : List KubeObject := []
  configMaps : List KubeObject := []
  deployments : List KubeObject := []
  secrets : List KubeObject := []
  daemonSets : List KubeObject := []
  ingresses : List KubeObject := []
  jobs : List KubeObject := []
  statefulSets : List KubeObject := []
  /-- The requests for the signing of certificates. -/
  signingRequests : List KubeObject := []
deriving Inhabited

namespace Snapshot

/-- All objects, kind after kind. -/
def objects (s : Snapshot) : List KubeObject :=
  s.pods ++ s.services ++ s.deployments ++ s.configMaps ++ s.secrets ++ s.daemonSets ++
    s.ingresses ++ s.jobs ++ s.statefulSets ++ s.signingRequests

/-- The names of the fields, in order. -/
def fieldNames : List String :=
  ["ready", "resourceCount", "podStatuses", "serviceStatuses", "configMapStatuses",
    "deploymentStatuses", "secretStatuses", "daemonSetStatuses", "ingressStatuses", "jobStatuses",
    "statefulSetStatuses", "csrStatuses"]

/-- A list of objects in a document. -/
def listToJson (objects : List KubeObject) : Json := .array (objects.map KubeObject.toJson)

/-- The snapshot in a document. -/
def toJson (s : Snapshot) : Json :=
  Json.ofMembers
    [("ready", .bool s.ready), ("resourceCount", .number (.int s.resourceCount)),
      ("podStatuses", listToJson s.pods), ("serviceStatuses", listToJson s.services),
      ("configMapStatuses", listToJson s.configMaps),
      ("deploymentStatuses", listToJson s.deployments), ("secretStatuses", listToJson s.secrets),
      ("daemonSetStatuses", listToJson s.daemonSets), ("ingressStatuses", listToJson s.ingresses),
      ("jobStatuses", listToJson s.jobs), ("statefulSetStatuses", listToJson s.statefulSets),
      ("csrStatuses", listToJson s.signingRequests)]

/-- A list of objects; null is the empty one. -/
def objectList? (v : Json) : Option (List KubeObject) :=
  (Json.nullable? (Json.list? KubeObject.ofJson?) v).map (·.getD [])

/-- The snapshot of a document. -/
def ofJson? (v : Json) : Option Snapshot := do
  let fields ← v.fields? fieldNames
  let ready ← Json.optional? fields "ready" false Json.bool?
  let resourceCount ←
    Json.optional? fields "resourceCount" 0 (Json.int? (-Int.pow 2 31) (Int.pow 2 31 - 1))
  let list := fun name => Json.optional? fields name [] objectList?
  let pods ← list "podStatuses"
  let services ← list "serviceStatuses"
  let configMaps ← list "configMapStatuses"
  let deployments ← list "deploymentStatuses"
  let secrets ← list "secretStatuses"
  let daemonSets ← list "daemonSetStatuses"
  let ingresses ← list "ingressStatuses"
  let jobs ← list "jobStatuses"
  let statefulSets ← list "statefulSetStatuses"
  let signingRequests ← list "csrStatuses"
  some ⟨ready, resourceCount, pods, services, configMaps, deployments, secrets, daemonSets,
    ingresses, jobs, statefulSets, signingRequests⟩

/-- The literal without the members that a snapshot does not know. -/
def dropUnknown : Json.Literal → Json.Literal
  | .object members =>
    .object (members.filter fun (key, _) =>
      match key with
      | some key => fieldNames.contains key
      | none => true)
  | v => v

/-- The snapshot of a text. What is inside unknown members is not looked at. -/
def ofText? (text : String) : Option Snapshot :=
  (((Json.Literal.ofText? text).map dropUnknown).bind (·.read? Json.Literal.maxDepth)).bind ofJson?

/-- The snapshot of a stored value: the value itself, or the text of one. -/
def ofValue? : Json → Option Snapshot
  | .string text => ofText? text
  | v => ofJson? v

end Snapshot

end NetIntent
