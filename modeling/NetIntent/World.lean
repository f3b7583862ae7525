import NetIntent.Store.Context
import NetIntent.Store.Document
import NetIntent.Store.Fault
import NetIntent.Synchronizer
import NetIntent.Time.Timestamp

namespace NetIntent

/-!
# The world of the operations

An operation reads and changes the two stores, makes requests of the synchronizer, and may fail
midway; what it has done by then stays done.

* `World` — the stores, the faults that wait for their calls, the synchronizer, the clock, and the
  supply of context ids;
* `Op` — an operation: from a world, a result or a failure, and the world afterwards;
* `Op.onContexts`, `Op.onDocuments` — the two ways through which every call of a store goes: a
  fault may answer it, a closed store fails it, and otherwise it has its effect.
-/

/-- Everything that operations read and change. -/
structure World where
  contexts : ContextStore := .empty
  documents : DocumentStore := .empty
  /-- The context store is closed and fails every call. -/
  contextsClosed : Bool := false
  /-- The document store is closed and fails every call. -/
  documentsClosed : Bool := false
  faults : Faults := []
  /-- The synchronizer, if there is one. -/
  synchronizer : Option Synchronizer := some {}
  /-- The time limit of a request. -/
  limitMs : Nat := 10000
  /-- The time that requests have taken so far. -/
  elapsedMs : Nat := 0
  /-- The time that entries of a ledger are stamped with. -/
  now : Timestamp := ⟨0, 0⟩
  /-- The supply of context ids. -/
  contextId : Nat → String
  /-- How many context ids have been taken from the supply. -/
  minted : Nat := 0

/-- An operation: a result or a failure, and the world afterwards. -/
abbrev Op (α : Type) := ExceptT Failure (StateM World) α

namespace Op

variable {α β : Type}

/-- Run an operation. -/
def run (op : Op α) (w : World) : Except Failure α × World := op w

/-- The operation that does nothing and has the given result. -/
def of (r : Except Failure α) : Op α := fun w => (r, w)

/-- The outcome of an operation as a result, failure or not. -/
def attempt (op : Op α) : Op (Except Failure α) := fun w =>
  let (r, w) := op w
  (.ok r, w)

/-- A result is given without a change. -/
@[simp] theorem run_pure (a : α) (w : World) : (pure a : Op α).run w = (.ok a, w) := rfl

/-- A failure is given without a change. -/
@[simp] theorem run_throw (e : Failure) (w : World) : (throw e : Op α).run w = (.error e, w) := rfl

/-- An outcome that is known is given without a change. -/
@[simp] theorem run_of (r : Except Failure α) (w : World) : (of r).run w = (r, w) := rfl

/-- After a result comes the next operation, in the world that the first one left; after a failure
    nothing does. -/
theorem run_bind (op : Op α) (next : α → Op β) (w : World) :
    (op >>= next).run w =
      match op.run w with
      | (.ok a, w') => (next a).run w'
      | (.error e, w') => (.error e, w') := by
  show ExceptT.bind op next w = _
  simp only [ExceptT.bind, ExceptT.mk, run]
  rcases h : op w with ⟨r | a, w'⟩ <;>
    simp only [bind, StateT.bind, h] <;>
    rfl

/-- An attempt never fails; it leaves the world that the operation left. -/
@[simp] theorem run_attempt (op : Op α) (w : World) :
    op.attempt.run w = (.ok (op.run w).1, (op.run w).2) := rfl

/-! ### Calls of the stores -/

/-- The failure of a call that a fault fails. -/
def injected (call : StoreCall) : Failure := .store call.method.name "injected"

/-- The failure of a call of a closed store. -/
def closed : Failure :=
  .store "query" "attempted to acquire a connection on a closed pool"

/-- A call of the context store: the first fault for it may answer in its place, a closed store
    fails it, and otherwise it has its effect. -/
def onContexts (call : StoreCall) (instead : FaultEffect → Option α)
    (effect : ContextStore → Except Failure α × ContextStore) : Op α := fun w =>
  let (fault, faults) := w.faults.consult call
  let w := { w with faults := faults }
  match fault with
  | some f => ((instead f).elim (.error (injected call)) .ok, w)
  | none =>
    if w.contextsClosed then (.error closed, w)
    else
      let (r, contexts) := effect w.contexts
      (r, { w with contexts := contexts })

/-- A call of the document store, likewise. It has no effect if its key is none. -/
def onDocuments (call : StoreCall) (instead : FaultEffect → Option α)
    (effect : Except Failure (DocumentStore → α × DocumentStore)) : Op α := fun w =>
  let (fault, faults) := w.faults.consult call
  let w := { w with faults := faults }
  match fault with
  | some f => ((instead f).elim (.error (injected call)) .ok, w)
  | none =>
    match effect with
    | .error e => (.error e, w)
    | .ok effect =>
      if w.documentsClosed then (.error closed, w)
      else
        let (a, documents) := effect w.documents
        (.ok a, { w with documents := documents })

/-- What is reported of a stored value that cannot be decoded. -/
def malformed (context : String) : Failure := .serialization context "malformed value"

/-- Store a value at a key. -/
def putNode (key : String) (value : Json) : Op Unit :=
  onContexts ⟨.put, key⟩ (fun _ => none) fun s => (.ok (), s.insert key (.value value))

/-- The value stored at a key, if any. -/
def getNode (key : String) : Op (Option Json) :=
  onContexts ⟨.get, key⟩ (fun | .value v => some v | _ => none) fun s =>
    match s.get? key with
    | none => (.ok none, s)
    | some (.value v) => (.ok (some v), s)
    | some .unreadable => (.error (malformed key), s)

/-- Remove what is stored at a key. -/
def deleteNode (key : String) : Op Unit :=
  onContexts ⟨.delete, key⟩ (fun _ => none) fun s => (.ok (), s.erase key)

/-- Remove what is stored at every key that begins with the piece; how many there were. -/
def deleteNodes (piece : String) : Op Nat :=
  onContexts ⟨.deleteAll, piece⟩ (fun _ => none) fun s =>
    (.ok (s.scan piece).length, s.eraseScan piece)

/-- The keys that begin with the piece, in order. -/
def nodeKeys (piece : String) : Op (List String) :=
  onContexts ⟨.allKeys, piece⟩ (fun _ => none) fun s => (.ok ((s.scan piece).map (·.1)), s)

/-- The context store answers. -/
def contextHealth : Op Bool :=
  onContexts ⟨.contextHealth, ""⟩ (fun _ => none) fun s => (.ok true, s)

/-- The effect of a call whose key is a value that may be no key. -/
def onKey (key : Json) (effect : DocumentKey → DocumentStore → α × DocumentStore) :
    Except Failure (DocumentStore → α × DocumentStore) :=
  (DocumentKey.ofJson key).map effect

/-- Store the value of a tag of a document. -/
def insertDocument (store : String) (key : Json) (tag : String) (value : Json) : Op Unit :=
  onDocuments ⟨.insert, tag⟩ (fun _ => none) (onKey key fun k d => ((), d.insert store k tag value))

/-- The values of a tag on all documents whose key the pattern covers. -/
def findDocuments (store : String) (pattern : Json) (tag : String) : Op (List Json) :=
  onDocuments ⟨.find, tag⟩ (fun | .values vs => some vs | _ => none)
    (onKey pattern fun k d => (d.find store k tag, d))

/-- Remove a document. -/
def removeDocument (store : String) (key : Json) : Op Unit :=
  onDocuments ⟨.remove, ""⟩ (fun _ => none) (onKey key fun k d => ((), d.remove store k))

/-- Remove a tag of a document. -/
def removeTag (store : String) (key : Json) (tag : String) : Op Unit :=
  onDocuments ⟨.removeTag, tag⟩ (fun _ => none) (onKey key fun k d => ((), d.removeTag store k tag))

/-- The document store answers. -/
def documentHealth : Op Bool :=
  onDocuments ⟨.documentHealth, ""⟩ (fun _ => none) (.ok fun d => (true, d))

/-- Both stores answer. -/
def health : Op Bool := do
  if ← contextHealth then documentHealth else return false

/-! ### The clock, the ids and the synchronizer -/

/-- A context id that was not taken before. -/
def mintId : Op String := fun w => (.ok (w.contextId w.minted), { w with minted := w.minted + 1 })

/-- The current time. -/
def now : Op Timestamp := fun w => (.ok w.now, w)

/-- There is a synchronizer. -/
def requireSynchronizer : Op Unit := fun w =>
  match w.synchronizer with
  | none => (.error (.rsyncUnavailable Synchronizer.serviceName), w)
  | some _ => (.ok (), w)

/-- Make a request of the synchronizer. -/
def ask (request : Request) (id : String) (cancellation : Cancellation) : Op Unit := fun w =>
  match w.synchronizer with
  | none => (.error (.rsyncUnavailable Synchronizer.serviceName), w)
  | some s =>
    let (r, time, s) := s.ask request id w.limitMs w.elapsedMs cancellation
    (r, { w with synchronizer := some s, elapsedMs := time })

end Op

end NetIntent
