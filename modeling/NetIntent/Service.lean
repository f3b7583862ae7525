import NetIntent.Deployment
import NetIntent.Settings.Basic

namespace NetIntent

/-!
# Services

A service is a world to operate on, with the output of its status queries.

* `Service.build` — a service over given stores;
* `Service.ofSettings` — a service over the stores that settings name.
-/

/-- A service. -/
structure Service where
  world : World
  /-- The output of a status query that names none. -/
  output : StatusOutput := .all

/-- Why a service cannot be built. -/
inductive BuildFault where
  | noContexts
  | noDocuments
  | noLimit
  /-- A store cannot be reached. -/
  | unreachable (e : Failure)
deriving DecidableEq

/-- What is reported of it. -/
def BuildFault.message : BuildFault → String
  | noContexts => "context db is required"
  | noDocuments => "document store is required"
  | noLimit => "rsync timeout must be positive"
  | unreachable e => e.message

namespace Service

/-- The status query of a service. -/
def statusQuery (s : Service) : StatusQuery := { output := s.output }

/-- A service over two stores, both of which have to be there. The time limit has to be positive. -/
def build (contextId : Nat → String) (contexts : Option ContextStore)
    (documents : Option DocumentStore) (synchronizer : Option Synchronizer) (limitMs : Nat)
    (output : StatusOutput) : Except BuildFault Service :=
  match contexts, documents with
  | none, _ => .error .noContexts
  | _, none => .error .noDocuments
  | some contexts, some documents =>
    if limitMs = 0 then .error .noLimit
    else
      let world : World :=
        { contexts := contexts, documents := documents, synchronizer := synchronizer,
          limitMs := limitMs, contextId := contextId }
      .ok ⟨world, output⟩

/-- The address of a database that lives in memory. -/
def memoryUrl : String := "sqlite::memory:"

/-- Connect to a database, if there is an address. Only databases in memory can be reached. -/
def connect (url : Option String) : Except BuildFault Unit :=
  match url with
  | none => .ok ()
  | some url =>
    if url = memoryUrl then .ok ()
    else .error (.unreachable (.store "connect" ("Failed to connect to SQLite at " ++ url)))

/-- A service over the stores that settings name, which are empty. -/
def ofSettings (contextId : Nat → String) (s : Settings) (synchronizer : Option Synchronizer) :
    Except BuildFault Service := do
  connect s.contextUrl
  connect s.documentUrl
  build contextId (some .empty) (some .empty) synchronizer s.limitMs s.output

end Service

end NetIntent
