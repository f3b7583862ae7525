import NetIntent.Error
import NetIntent.Json.Fields
import NetIntent.Time.Reader

namespace NetIntent

/-!
# Ledgers

The history of a cluster: the list of actions taken on it, the oldest first. An action that made a
context carries its id. The ledger itself enforces no order; that is the lifecycle's.

* `Ledger.append` — record an action;
* `Ledger.current`, `Ledger.lastId`, `Ledger.ids` — the state, the last context id, and all of them.
-/

/-- The state that an action enters. -/
inductive LedgerState where
  | undefined
  | created
  | approved
  | applied
  | instantiated
  | terminated
deriving DecidableEq, Inhabited

namespace LedgerState

/-- All states. -/
def all : List LedgerState := [undefined, created, approved, applied, instantiated, terminated]

/-- The name of a state. -/
def name : LedgerState → String
  | undefined => "Undefined"
  | created => "Created"
  | approved => "Approved"
  | applied => "Applied"
  | instantiated => "Instantiated"
  | terminated => "Terminated"

/-- The state that a value names. -/
def ofJson? (v : Json) : Option LedgerState := Json.case? all name v

end LedgerState

/-- An action in a ledger. -/
structure LedgerEntry where
  state : LedgerState
  /-- The context that the action made; empty if it made none. -/
  contextId : String
  time : Timestamp
deriving DecidableEq, Inhabited

namespace LedgerEntry

/-- The entry in a document. -/
def toJson (e : LedgerEntry) : Json :=
  Json.ofMembers
    [("state", .string e.state.name), ("instance", .string e.contextId),
      ("time", .string e.time.text)]

/-- The entry of a document. -/
def ofJson? (v : Json) : Option LedgerEntry := do
  let fields ← v.fields? ["state", "instance", "time"]
  let state ← Json.required? fields "state" LedgerState.ofJson?
  let contextId ← Json.optional? fields "instance" "" Json.string?
  let time ← Json.required? fields "time" fun v => v.string?.bind Timestamp.ofText?
  some ⟨state, contextId, time⟩

end LedgerEntry

/-- The history of a cluster, the oldest action first. -/
structure Ledger where
  entries : List LedgerEntry := []
deriving DecidableEq, Inhabited

namespace Ledger

/-- Record an action. -/
def append (l : Ledger) (state : LedgerState) (contextId : String) (time : Timestamp) : Ledger :=
  ⟨l.entries ++ [⟨state, contextId, time⟩]⟩

/-- The state that the last action entered. -/
def current (l : Ledger) : Except Failure LedgerState :=
  match l.entries.getLast? with
  | some e => .ok e.state
  | none => .error .noStateInfo

/-- The context id of the last action; empty if there is none. -/
def lastId (l : Ledger) : String :=
  match l.entries.getLast? with
  | some e => e.contextId
  | none => ""

/-- The context ids, in order and each once. -/
def ids (l : Ledger) : List String :=
  (OrderedMap.ofList
    ((l.entries.filter fun e => !decide (e.contextId = "")).map fun e => (e.contextId, ()))).keys

/-- The ledger in a document. -/
def toJson (l : Ledger) : Json :=
  Json.ofMembers [("actions", .array (l.entries.map LedgerEntry.toJson))]

/-- The ledger of a document. -/
def ofJson? (v : Json) : Option Ledger := do
  let fields ← v.fields? ["actions"]
  let entries ← Json.optional? fields "actions" [] (Json.list? LedgerEntry.ofJson?)
  some ⟨entries⟩

end Ledger

end NetIntent
