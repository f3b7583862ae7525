import NetIntent.Handle.Key
import NetIntent.World

namespace NetIntent

/-!
# Run contexts

A run context is bound to the id of one context and works on its nodes. It holds nothing of them:
every operation goes to the store.

* `RunContext.init`, `load` — how a run context comes to its id;
* `RunContext.create`, `root` — the root node, which holds the id;
* `RunContext.addLevel`, `addOneLevel`, `addResource`, `addInstruction` — the nodes below, whose
  names are checked so that their keys can be read back;
* `RunContext.handles`, `rawValue`, `value`, `updateValue`, `deletePair`, `deletePrefix` — nodes by
  handle. A handle of another context is refused.
-/

/-- A view of one context: its id, once it has one. -/
structure RunContext where
  id? : Option String := none
deriving DecidableEq, Inhabited

namespace RunContext

/-- A run context without an id. -/
def unbound : RunContext := ⟨none⟩

/-- The root handle of the id. -/
def boundRoot (c : RunContext) : Except Failure Handle :=
  match c.id? with
  | some id => .ok (Handle.root id)
  | none => .error (.invalidHandle "" "context not initialized")

/-- The handle is one of this context. -/
def check (c : RunContext) (h : Handle) : Except Failure Unit :=
  if c.id? = some h.contextId then .ok ()
  else .error (.invalidHandle h.key "not a handle of this run time context")

/-- Take a fresh id, unless there is one already. Nothing is stored. -/
def init (c : RunContext) : Op RunContext :=
  match c.id? with
  | some id => throw (.invalidHandle (Handle.root id).key "context already initialized")
  | none => do
    let id ← Op.mintId
    return ⟨some id⟩

/-- An id that can stand in a key. -/
def isValidId (id : String) : Bool := !decide (id = "") && !Text.hasChar '/' id

/-- The root handle, if the root node is stored and holds the id. -/
def root (c : RunContext) : Op Handle := do
  let root ← Op.of c.boundRoot
  match ← Op.getNode root.key with
  | none => throw (.notFound "AppContext" root.contextId)
  | some v =>
    if v = .string root.contextId then return root
    else throw (.invalidHandle root.key "root value does not match context id")

/-- Load a context: the root handle of the id, or why there is none, and the run context after it.
    An id that can stand in a key is taken on before its root is looked for, and kept whatever comes
    of that. -/
def load (c : RunContext) (id : String) : Op (Except Failure Handle × RunContext) :=
  if isValidId id then do
    let c : RunContext := ⟨some id⟩
    let r ← c.root.attempt
    return (r, c)
  else return (.error (.invalidHandle id "not a valid context id"), c)

/-- Store the root node. -/
def create (c : RunContext) : Op Handle := do
  let root ← Op.of c.boundRoot
  Op.putNode root.key (.string root.contextId)
  return root

/-- Store the metadata of the composite app. -/
def addMeta (c : RunContext) (value : Json) : Op Unit := do
  let root ← Op.of c.boundRoot
  Op.putNode (root.leaf "meta").key value

/-- The metadata of the composite app. -/
def getMeta (c : RunContext) : Op Json := do
  let root ← Op.of c.boundRoot
  let handle := root.leaf "meta"
  match ← Op.getNode handle.key with
  | some v => return v
  | none => throw (.handleNotFound handle.key "meta")

/-- Store a named node of a level; it holds its name. -/
def addLevel (c : RunContext) (h : Handle) (level name : String) : Op Handle := do
  Op.of (c.check h)
  if level ∉ namedLevels then
    throw (.validation "level" ("'" ++ level ++ "' is not a named level"))
  Op.of (validateName level name)
  let child := h.child level name
  Op.putNode child.key (.string name)
  return child

/-- Store a node of one word, which is no level's. -/
def addOneLevel (c : RunContext) (h : Handle) (word : String) (value : Json) : Op Handle := do
  Op.of (c.check h)
  Op.of (validateName "level" word)
  if word ∈ namedLevels then
    throw (.validation "level" ("'" ++ word ++ "' is a named level"))
  if value = .null then throw (.validation "value" "must not be empty")
  let child := h.leaf word
  Op.putNode child.key value
  return child

/-- Store a resource. -/
def addResource (c : RunContext) (h : Handle) (name : String) (value : Json) : Op Handle := do
  Op.of (c.check h)
  Op.of (validateName "resource" name)
  if value = .null then throw (.validation "value" "resource value must not be empty")
  let child := h.child "resource" name
  Op.putNode child.key value
  return child

/-- Store an instruction. -/
def addInstruction (c : RunContext) (h : Handle) (level kind : String) (value : Json) :
    Op Handle := do
  Op.of (c.check h)
  Op.of (validateName "level" level)
  Op.of (validateName "instruction type" kind)
  if value = .null then throw (.validation "value" "instruction value must not be empty")
  let child := h.instruction level kind
  Op.putNode child.key value
  return child

/-- Remove a node and leave what is beneath it. -/
def deletePair (c : RunContext) (h : Handle) : Op Unit := do
  Op.of (c.check h)
  Op.deleteNode h.key

/-- Remove a node and everything beneath it; how many nodes there were. -/
def deletePrefix (c : RunContext) (h : Handle) : Op Nat := do
  Op.of (c.check h)
  Op.deleteNodes h.key

/-- The handles of a node and of everything beneath it. -/
def handles (c : RunContext) (h : Handle) : Op (List Handle) := do
  Op.of (c.check h)
  let keys ← Op.nodeKeys h.key
  Op.of (keys.mapM Handle.parse)

/-- There is such a node. -/
def nodeExists (c : RunContext) (h : Handle) : Op Bool := do
  Op.of (c.check h)
  let value ← Op.getNode h.key
  return value.isSome

/-- The value of a node. -/
def rawValue (c : RunContext) (h : Handle) : Op Json := do
  Op.of (c.check h)
  match ← Op.getNode h.key with
  | some v => return v
  | none => throw (.handleNotFound h.key h.label)

/-- The value of a node, decoded. -/
def value {α : Type} (c : RunContext) (read : Json → Option α) (h : Handle) : Op α := do
  let raw ← c.rawValue h
  match read raw with
  | some a => return a
  | none => throw (Op.malformed h.key)

/-- Store a value at a node. -/
def updateValue (c : RunContext) (h : Handle) (value : Json) : Op Unit := do
  Op.of (c.check h)
  Op.putNode h.key value

end RunContext

end NetIntent
