import NetIntent.Error
import NetIntent.Json.Fields

namespace NetIntent

/-!
# Values inside a context

* `CompositeMeta` — what is attached once at the root;
* `ContextStatus` — the overall status of a context, kept in a status document;
* `InstallStatus` — the progress of one resource, written by the synchronizer;
* `InstructionLevel`, `InstructionKind` — the place and the sort of an instruction.
-/

/-- What identifies the composite app of a context. -/
structure CompositeMeta where
  project : String
  compositeApp : String
  version : String
  release : String
  deploymentIntentGroup : String
deriving DecidableEq, Inhabited

namespace CompositeMeta

/-- The metadata in a node. -/
def toJson (m : CompositeMeta) : Json :=
  Json.ofMembers
    [("Project", .string m.project), ("CompositeApp", .string m.compositeApp),
      ("Version", .string m.version), ("Release", .string m.release),
      ("DeploymentIntentGroup", .string m.deploymentIntentGroup)]

/-- The metadata of a node. -/
def ofJson? (v : Json) : Option CompositeMeta := do
  let fields ←
    v.fields? ["Project", "CompositeApp", "Version", "Release", "DeploymentIntentGroup"]
  let project ← Json.required? fields "Project" Json.string?
  let compositeApp ← Json.required? fields "CompositeApp" Json.string?
  let version ← Json.required? fields "Version" Json.string?
  let release ← Json.required? fields "Release" Json.string?
  let group ← Json.required? fields "DeploymentIntentGroup" Json.string?
  some ⟨project, compositeApp, version, release, group⟩

end CompositeMeta

/-- A record with a status as its only field. -/
def statusDocument (status : String) : Json := Json.ofMembers [("Status", .string status)]

/-- The status of such a record. -/
def statusOf? {α : Type} (read : Json → Option α) (v : Json) : Option α := do
  let fields ← v.fields? ["Status"]
  Json.required? fields "Status" read

/-- The overall status of a context. -/
inductive ContextStatus where
  | instantiating
  | instantiated
  | terminating
  | terminated
  | instantiateFailed
  | terminateFailed
deriving DecidableEq, Inhabited

namespace ContextStatus

/-- All statuses. -/
def all : List ContextStatus :=
  [instantiating, instantiated, terminating, terminated, instantiateFailed, terminateFailed]

/-- The name of a status. -/
def name : ContextStatus → String
  | instantiating => "Instantiating"
  | instantiated => "Instantiated"
  | terminating => "Terminating"
  | terminated => "Terminated"
  | instantiateFailed => "InstantiateFailed"
  | terminateFailed => "TerminateFailed"

/-- The removal has come to its end, successfully or not. -/
def isTerminal : ContextStatus → Bool
  | terminated | terminateFailed => true
  | _ => false

/-- The status that a value names. -/
def ofJson? (v : Json) : Option ContextStatus := Json.case? all name v

/-- The status document of a context. -/
def document (s : ContextStatus) : Json := statusDocument s.name

/-- The status of a status document. -/
def ofDocument? (v : Json) : Option ContextStatus := statusOf? ofJson? v

end ContextStatus

/-- The progress of one resource. -/
inductive InstallStatus where
  | pending
  | applied
  | failed
  | retrying
  | deleted
deriving DecidableEq, Inhabited

namespace InstallStatus

/-- All statuses. -/
def all : List InstallStatus := [pending, applied, failed, retrying, deleted]

/-- The name of a status. -/
def name : InstallStatus → String
  | pending => "Pending"
  | applied => "Applied"
  | failed => "Failed"
  | retrying => "Retrying"
  | deleted => "Deleted"

/-- The status that a value names. -/
def ofJson? (v : Json) : Option InstallStatus := Json.case? all name v

/-- The status document of a resource. -/
def document (s : InstallStatus) : Json := statusDocument s.name

/-- The status of a status document. -/
def ofDocument? (v : Json) : Option InstallStatus := statusOf? ofJson? v

end InstallStatus

/-- The level that an instruction orders. -/
inductive InstructionLevel where
  /-- The apps of a context. -/
  | app
  /-- The resources of a cluster. -/
  | resource
  /-- The parts of a resource. -/
  | subresource
deriving DecidableEq, Inhabited

namespace InstructionLevel

/-- The word of a level. -/
def name : InstructionLevel → String
  | app => "app"
  | resource => "resource"
  | subresource => "subresource"

/-- The level with this word. -/
def parse (s : String) : Except Failure InstructionLevel :=
  match [app, resource, subresource].find? fun l => l.name = s with
  | some l => .ok l
  | none =>
    .error (.validation "instruction level"
      ("'" ++ s ++ "' is not a valid app context instruction level"))

end InstructionLevel

/-- The sort of an instruction. -/
inductive InstructionKind where
  /-- In which order to install. -/
  | order
  /-- What has to be ready first. -/
  | dependency
deriving DecidableEq, Inhabited

namespace InstructionKind

/-- The word of a sort. -/
def name : InstructionKind → String
  | order => "order"
  | dependency => "dependency"

/-- The sort with this word. -/
def parse (s : String) : Except Failure InstructionKind :=
  match [order, dependency].find? fun k => k.name = s with
  | some k => .ok k
  | none =>
    .error (.validation "instruction type"
      ("'" ++ s ++ "' is not a valid app context instruction type"))

end InstructionKind

end NetIntent
