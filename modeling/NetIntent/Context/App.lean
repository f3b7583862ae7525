import NetIntent.Context.Run
import NetIntent.Context.Values

namespace NetIntent

/-!
# App contexts

An app context is the typed face of a run context: a composite app with its apps, the clusters of
each app, the resources of each cluster, and instructions for each of these levels.

* `AppContext.create`, `load`, `delete` — the context as a whole;
* `AppContext.getAppHandle`, `getClusterHandle`, `getResourceHandle` — look up by name;
* `AppContext.getAppNames`, `getClusterNames`, `getResourceNames` — list by name;
* `AppContext.addInstruction` — instructions, which have to be JSON texts;
* `AppContext.groupMap` — the clusters of an app by the group they were selected through;
* `AppContext.overallStatus`, `statusOf` — the overall status recorded at the root.
-/

/-- The typed face of a run context. -/
structure AppContext where
  nodes : RunContext := {}
deriving DecidableEq, Inhabited

namespace AppContext

/-- An app context without an id. -/
def unbound : AppContext := ⟨.unbound⟩

/-- The app context with an id. -/
def ofId (id : String) : AppContext := ⟨⟨some id⟩⟩

/-! ### Checks of handles -/

/-- The handle is the root. -/
def expectRoot (h : Handle) : Except Failure Unit :=
  if h.isRoot then .ok () else .error (.invalidHandle h.key "not a composite app handle")

/-- The handle is a named node of the level. -/
def expectLevel (h : Handle) (level : String) : Except Failure Unit :=
  if (h.nameAt? level).isSome then .ok ()
  else .error (.invalidHandle h.key ("not a " ++ level ++ " handle"))

/-- The handle is an instruction. -/
def expectInstruction (h : Handle) : Except Failure Unit :=
  match h.last? with
  | some (.instruction ..) => .ok ()
  | _ => .error (.invalidHandle h.key "not an instruction handle")

/-- The text is JSON. -/
def expectJsonText (text : String) : Except Failure Unit :=
  if (Json.ofText? text).isSome then .ok ()
  else .error (.validation "instruction value" "not a JSON text")

/-- The handle, if there is such a node. -/
def existing (c : AppContext) (h : Handle) (level : String) : Op Handle := do
  if ← c.nodes.nodeExists h then return h
  else throw (.handleNotFound h.key level)

/-- The names of the nodes of a level directly under a node. -/
def childNames (c : AppContext) (parent : Handle) (level : String) : Op (List String) := do
  let handles ← c.nodes.handles parent
  return handles.filterMap fun h =>
    match h.relativeTo? parent with
    | some [.level l name] => if l = level then some name else none
    | _ => none

/-! ### The context as a whole -/

/-- Take a fresh id. -/
def init (c : AppContext) : Op AppContext := do
  let nodes ← c.nodes.init
  return ⟨nodes⟩

/-- Load a context, with the app context after it. No id at all is refused at once. -/
def load (c : AppContext) (id : String) : Op (Except Failure Handle × AppContext) := do
  if id = "" then return (.error (.validation "context id" "must not be empty"), c)
  let (r, nodes) ← c.nodes.load id
  return (r, ⟨nodes⟩)

/-- The app context of a stored context. -/
def fromId (id : String) : Op AppContext := do
  let (r, c) ← unbound.load id
  let _ ← Op.of r
  return c

/-- Store the root node. -/
def create (c : AppContext) : Op Handle := c.nodes.create

/-- The root handle, if the root node is stored. -/
def root (c : AppContext) : Op Handle := c.nodes.root

/-- Attach the metadata of the composite app. -/
def addMeta (c : AppContext) (m : CompositeMeta) : Op Unit := c.nodes.addMeta m.toJson

/-- What is reported of metadata that are no object. -/
def metaNoMap : String := "composite app meta is not a map"

/-- The metadata of the composite app; they have to be an object. -/
def getMeta (c : AppContext) : Op CompositeMeta := do
  let value ← c.nodes.getMeta
  match value with
  | .object _ =>
    match CompositeMeta.ofJson? value with
    | some m => return m
    | none => throw (Op.malformed "meta")
  | _ => throw (.serialization "meta" metaNoMap)

/-- Delete the whole context; it has to be there. -/
def delete (c : AppContext) : Op Unit := do
  let root ← c.nodes.root
  let _ ← c.nodes.deletePrefix root

/-- Set the overall status of the context. -/
def setStatus (c : AppContext) (s : ContextStatus) : Op Handle := do
  let root ← c.nodes.root
  c.nodes.addOneLevel root "status" s.document

/-! ### Apps, clusters and resources -/

/-- Store an app under the root. -/
def addApp (c : AppContext) (h : Handle) (name : String) : Op Handle := do
  Op.of (expectRoot h)
  c.nodes.addLevel h "app" name

/-- Store a cluster under an app. -/
def addCluster (c : AppContext) (h : Handle) (name : String) : Op Handle := do
  Op.of (expectLevel h "app")
  c.nodes.addLevel h "cluster" name

/-- Store a resource under a cluster. -/
def addResource (c : AppContext) (h : Handle) (name value : String) : Op Handle := do
  Op.of (expectLevel h "cluster")
  c.nodes.addResource h name (.string value)

/-- Delete a node of a level and everything beneath it. -/
def deleteLevel (c : AppContext) (h : Handle) (level : String) : Op Unit := do
  Op.of (expectLevel h level)
  let _ ← c.nodes.deletePrefix h

/-- Delete an app. -/
def deleteApp (c : AppContext) (h : Handle) : Op Unit := c.deleteLevel h "app"

/-- Delete a cluster of an app. -/
def deleteCluster (c : AppContext) (h : Handle) : Op Unit := c.deleteLevel h "cluster"

/-- Delete a resource. -/
def deleteResource (c : AppContext) (h : Handle) : Op Unit := c.deleteLevel h "resource"

/-- The handle of an app. -/
def getAppHandle (c : AppContext) (app : String) : Op Handle := do
  Op.of (validateName "app" app)
  let root ← c.nodes.root
  c.existing (root.child "app" app) "app"

/-- The names of the apps. -/
def getAppNames (c : AppContext) : Op (List String) := do
  let root ← c.nodes.root
  c.childNames root "app"

/-- The handle of a cluster of an app. -/
def getClusterHandle (c : AppContext) (app cluster : String) : Op Handle := do
  Op.of (validateName "cluster" cluster)
  let app ← c.getAppHandle app
  c.existing (app.child "cluster" cluster) "cluster"

/-- The names of the clusters of an app. -/
def getClusterNames (c : AppContext) (app : String) : Op (List String) := do
  let app ← c.getAppHandle app
  c.childNames app "cluster"

/-- The handle of a resource of a cluster. -/
def getResourceHandle (c : AppContext) (app cluster resource : String) : Op Handle := do
  Op.of (validateName "resource" resource)
  let cluster ← c.getClusterHandle app cluster
  c.existing (cluster.child "resource" resource) "resource"

/-- The names of the resources of a cluster. -/
def getResourceNames (c : AppContext) (app cluster : String) : Op (List String) := do
  let cluster ← c.getClusterHandle app cluster
  c.childNames cluster "resource"

/-- Replace the text of a resource. -/
def updateResource (c : AppContext) (h : Handle) (value : String) : Op Unit := do
  Op.of (expectLevel h "resource")
  let _ ← c.existing h "resource"
  c.nodes.updateValue h (.string value)

/-! ### Groups of clusters -/

/-- The record of the group of a cluster. -/
def groupDocument (group : String) : Json := Json.ofMembers [("group", .string group)]

/-- The group of such a record. -/
def groupOf? (v : Json) : Option String := do
  let fields ← v.fields? ["group"]
  Json.required? fields "group" Json.string?

/-- Record the group that a cluster was selected through. -/
def addGroup (c : AppContext) (h : Handle) (group : String) : Op Handle := do
  Op.of (expectLevel h "cluster")
  if group = "" then throw (.validation "group" "must not be empty")
  c.nodes.addOneLevel h "meta" (groupDocument group)

/-- The group of a cluster. -/
def getGroup (c : AppContext) (h : Handle) : Op String := do
  Op.of (expectLevel h "cluster")
  c.nodes.value groupOf? (h.leaf "meta")

/-- Add a cluster to the clusters of a group. -/
def addToGroup (groups : OrderedMap (List String)) (group cluster : String) :
    OrderedMap (List String) :=
  groups.insert group ((groups.get? group).getD [] ++ [cluster])

/-- Add clusters of an app to their groups; a cluster without a group is left out. -/
def groupClusters (c : AppContext) (app : Handle) :
    List String → OrderedMap (List String) → Op (OrderedMap (List String))
  | [], groups => return groups
  | cluster :: rest, groups => do
    match ← (c.getGroup (app.child "cluster" cluster)).attempt with
    | .ok group => groupClusters c app rest (addToGroup groups group cluster)
    | .error (.handleNotFound ..) => groupClusters c app rest groups
    | .error e => throw e

/-- The clusters of an app by their groups. -/
def groupMap (c : AppContext) (app : String) : Op (OrderedMap (List String)) := do
  let app ← c.getAppHandle app
  let clusters ← c.childNames app "cluster"
  c.groupClusters app clusters .empty

/-! ### Instructions -/

/-- Where an instruction of a level is attached: apps are ordered at the root, resources at their
    cluster, and parts at their resource. -/
def expectPlace (h : Handle) : InstructionLevel → Except Failure Unit
  | .app => expectRoot h
  | .resource => expectLevel h "cluster"
  | .subresource => expectLevel h "resource"

/-- Attach an instruction, which has to be a JSON text. -/
def addInstruction (c : AppContext) (h : Handle) (level : InstructionLevel)
    (kind : InstructionKind) (value : String) : Op Handle := do
  Op.of (expectPlace h level)
  Op.of (expectJsonText value)
  c.nodes.addInstruction h level.name kind.name (.string value)

/-- Delete an instruction. -/
def deleteInstruction (c : AppContext) (h : Handle) : Op Unit := do
  Op.of (expectInstruction h)
  c.nodes.deletePair h

/-- The instruction for the apps. -/
def getAppInstruction (c : AppContext) (kind : InstructionKind) : Op String := do
  let root ← c.nodes.root
  c.nodes.value Json.string? (root.instruction InstructionLevel.app.name kind.name)

/-- The instruction for the resources of a cluster. -/
def getResourceInstruction (c : AppContext) (app cluster : String) (kind : InstructionKind) :
    Op String := do
  let cluster ← c.getClusterHandle app cluster
  c.nodes.value Json.string? (cluster.instruction InstructionLevel.resource.name kind.name)

/-- Replace an instruction. -/
def updateInstruction (c : AppContext) (h : Handle) (value : String) : Op Unit := do
  Op.of (expectInstruction h)
  Op.of (expectJsonText value)
  let _ ← c.existing h "instruction"
  c.nodes.updateValue h (.string value)

/-! ### Leaves and values -/

/-- The handle of a leaf under a node. -/
def getLevelHandle (c : AppContext) (h : Handle) (word : String) : Op Handle := do
  Op.of (validateName "level" word)
  c.existing (h.leaf word) word

/-- The handle of the status of a cluster. -/
def getClusterStatusHandle (c : AppContext) (app cluster : String) : Op Handle := do
  let cluster ← c.getClusterHandle app cluster
  c.getLevelHandle cluster "status"

/-- Replace the value of a status. -/
def updateStatus (c : AppContext) (h : Handle) (value : Json) : Op Unit :=
  if h.last? = some (.leaf "status") then c.nodes.updateValue h value
  else throw (.invalidHandle h.key "not a status handle")

/-- The overall status recorded at the root. -/
def overallStatus (c : AppContext) : Op ContextStatus := do
  let root ← c.root
  let status ← c.getLevelHandle root "status"
  c.nodes.value ContextStatus.ofDocument? status

/-- The overall status of a stored context. -/
def statusOf (id : String) : Op ContextStatus := do
  let c ← fromId id
  c.overallStatus

end AppContext

end NetIntent
