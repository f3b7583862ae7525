import NetIntent.Data.Text

namespace NetIntent

/-!
# Handles

A handle is the address of a node inside one context: the context's id and the steps that lead from
its root to the node.

* `Segment` — one step: a named level, a leaf of one word, or an instruction of a level;
* `Handle.isWithin`, `Handle.relativeTo?` — the tree order and the path below an ancestor;
* `Handle.isResourceOf` — the node is a resource directly under a cluster;
* `Handle.compare` — the order of handles: by context id, then step by step.
-/

/-- One step of a handle. -/
inductive Segment where
  /-- A named node of a level, such as the app with some name. -/
  | level (level name : String)
  /-- A node that is one word, such as the status. -/
  | leaf (word : String)
  /-- An instruction of some kind for a level. -/
  | instruction (level kind : String)
deriving DecidableEq, Inhabited

/-- The address of a node inside one context. -/
structure Handle where
  /-- The context. -/
  contextId : String
  /-- The steps below its root. -/
  segments : List Segment
deriving DecidableEq, Inhabited

/-- The levels whose nodes carry a name. -/
def namedLevels : List String := ["app", "cluster", "resource", "subresource"]

/-- The word between a level and the kind of an instruction. No node may have it as its name. -/
def instructionWord : String := "instruction"

namespace Segment

/-- The place of a step's kind in the order of steps. -/
def rank : Segment → Nat
  | level .. => 0
  | leaf .. => 1
  | instruction .. => 2

/-- The texts of a step, in the order in which they are compared. -/
def texts : Segment → List String
  | level l n => [l, n]
  | leaf w => [w]
  | instruction l k => [l, k]

/-- The order of steps: named levels, leaves, instructions, each by their texts. -/
def compare (a b : Segment) : Ordering :=
  (Ord.compare a.rank b.rank).then (List.compareLex Ord.compare a.texts b.texts)

/-- What is reported as missing where a step leads nowhere. -/
def label : Segment → String
  | level l _ => l
  | leaf w => w
  | instruction _ k => k

end Segment

namespace Handle

/-- The root of a context. -/
def root (contextId : String) : Handle := ⟨contextId, []⟩

/-- The handle one step further. -/
def push (h : Handle) (s : Segment) : Handle := ⟨h.contextId, h.segments ++ [s]⟩

/-- The named node of a level below. -/
def child (h : Handle) (level name : String) : Handle := h.push (.level level name)

/-- The node of one word below. -/
def leaf (h : Handle) (word : String) : Handle := h.push (.leaf word)

/-- The instruction below. -/
def instruction (h : Handle) (level kind : String) : Handle := h.push (.instruction level kind)

/-- Whether this is the root of its context. -/
def isRoot (h : Handle) : Bool := h.segments.isEmpty

/-- The last step. -/
def last? (h : Handle) : Option Segment := h.segments.getLast?

/-- The name of the node, where its last step is the given level. -/
def nameAt? (h : Handle) (level : String) : Option String :=
  match h.last? with
  | some (.level l name) => if l = level then some name else none
  | _ => none

/-- The node is the ancestor or lies beneath it. -/
def isWithin (h ancestor : Handle) : Bool :=
  decide (h.contextId = ancestor.contextId) && ancestor.segments.isPrefixOf h.segments

/-- The node lies strictly beneath the ancestor. -/
def isBelow (h ancestor : Handle) : Bool :=
  h.isWithin ancestor && decide (ancestor.segments.length < h.segments.length)

/-- The steps from the ancestor to the node, if it lies there. -/
def relativeTo? (h ancestor : Handle) : Option (List Segment) :=
  if h.isWithin ancestor then some (h.segments.drop ancestor.segments.length) else none

/-- The name of a resource is a name and a kind with one plus sign between them. -/
def isResourceName (name : String) : Bool :=
  decide ((Text.splitAt '+' name).length = 2)

/-- The node is a resource directly under the cluster. -/
def isResourceOf (h cluster : Handle) : Bool :=
  match h.relativeTo? cluster with
  | some [.level level name] => decide (level = "resource") && isResourceName name
  | _ => false

/-- What is reported as missing where there is no node. -/
def label (h : Handle) : String :=
  match h.last? with
  | none => "root"
  | some s => s.label

/-- The order of handles: by context id, then step by step. -/
def compare (a b : Handle) : Ordering :=
  (Ord.compare a.contextId b.contextId).then (List.compareLex Segment.compare a.segments b.segments)

end Handle

end NetIntent
