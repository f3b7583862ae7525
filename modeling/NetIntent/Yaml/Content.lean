import NetIntent.Yaml.Node

namespace NetIntent.Yaml

/-!
# The content of a document

A document with every alias replaced by what stands at its anchor. How deep the content may nest and
how many aliases it may replace are bounded, so that a short document has no endless content.

* `Content` — scalars, lists and maps;
* `Node.expand?` — the content of a node;
* `Content.ofText?` — the content of a text that is one document.
-/

/-- The content of a document. -/
inductive Content where
  | scalar (tag : Option String) (style : Style) (text : String)
  | list (tag : Option String) (items : List Content)
  | map (tag : Option String) (members : List (Content × Content))
deriving Inhabited

namespace Node

mutual

/-- How many starts and ends of nodes a node has. -/
def size : Node → Nat
  | .alias _ | .scalar .. => 1
  | .list _ _ items => sizeItems items + 2
  | .map _ _ members => sizeMembers members + 2

/-- The same of a list of items. -/
def sizeItems : List Node → Nat
  | [] => 0
  | n :: rest => size n + sizeItems rest

/-- The same of a list of members. -/
def sizeMembers : List (Node × Node) → Nat
  | [] => 0
  | (k, v) :: rest => size k + size v + sizeMembers rest

end

/-- The anchor of a node. -/
def anchor? : Node → Option Nat
  | .alias _ => none
  | .scalar anchor .. | .list anchor .. | .map anchor .. => anchor

mutual

/-- The last node with an anchor of this number, in the order in which nodes begin. -/
def target? (number : Nat) : Node → Option Node
  | .alias _ => none
  | .scalar anchor tag style text =>
    if anchor = some number then some (.scalar anchor tag style text) else none
  | .list anchor tag items =>
    (targetInItems? number items).or
      (if anchor = some number then some (.list anchor tag items) else none)
  | .map anchor tag members =>
    (targetInMembers? number members).or
      (if anchor = some number then some (.map anchor tag members) else none)

/-- The same in a list of items. -/
def targetInItems? (number : Nat) : List Node → Option Node
  | [] => none
  | n :: rest => (targetInItems? number rest).or (target? number n)

/-- The same in a list of members. -/
def targetInMembers? (number : Nat) : List (Node × Node) → Option Node
  | [] => none
  | (k, v) :: rest =>
    ((targetInMembers? number rest).or (target? number v)).or (target? number k)

end

/-- A step that replaces aliases: the state is how many more may be replaced. -/
abbrev Expansion (α : Type) := StateT Nat Option α

/-- What stands at an alias, and any other node itself. -/
def follow (root : Node) : Node → Expansion Node
  | .alias number => fun left =>
    match left with
    | 0 => none
    | left + 1 => (target? number root).map fun n => (n, left)
  | n => pure n

/-- The content of a node, which nests at most so deep. -/
def expand (root : Node) : (depth : Nat) → Node → Expansion Content
  | 0, n => do
    match ← follow root n with
    | .scalar _ tag style text => return .scalar tag style text
    | _ => failure
  | depth + 1, n => do
    match ← follow root n with
    | .alias _ => failure
    | .scalar _ tag style text => return .scalar tag style text
    | .list _ tag items =>
      let items ← items.mapM (expand root depth)
      return .list tag items
    | .map _ tag members =>
      let members ← members.mapM fun (k, v) => do
        let k ← expand root depth k
        let v ← expand root depth v
        return (k, v)
      return .map tag members

/-- The deepest nesting of a content. -/
def maxDepth : Nat := 128

/-- How many aliases may be replaced for each start or end of a node. -/
def replacementsPerEvent : Nat := 100

/-- The content of the root of a document. -/
def content? (root : Node) : Option Content :=
  (expand root maxDepth root (replacementsPerEvent * root.size)).map (·.1)

end Node

/-- The content of a text that is one document; `some none` if it is empty. -/
def Content.ofText? (text : String) : Option (Option Content) := do
  let tokens ← Token.ofText? text
  match ← Node.ofTokens? tokens with
  | none => some none
  | some root => root.content?.map some

end NetIntent.Yaml
