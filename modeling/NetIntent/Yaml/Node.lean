import NetIntent.Data.OrderedMap
import NetIntent.Yaml.Lexer

namespace NetIntent.Yaml

/-!
# Nodes

The tree that the tokens of one document spell. Anchors and aliases are kept as numbers: a node
counts the names before it, so the number of a name that is given twice may be taken again.

* `Node` — scalars, lists, maps and aliases;
* `Node.ofTokens?` — the root of a document. `none` if the tokens are not those of one document.
-/

/-- A node of a document as it is written. -/
inductive Node where
  /-- Whatever stands at the anchor with this number. -/
  | alias (number : Nat)
  | scalar (anchor : Option Nat) (tag : Option String) (style : Style) (text : String)
  | list (anchor : Option Nat) (tag : Option String) (items : List Node)
  | map (anchor : Option Nat) (tag : Option String) (members : List (Node × Node))
deriving Inhabited

/-- A scalar of which nothing is written. -/
def Node.empty : Node := .scalar none none .plain ""

/-- The tokens that are left, and the numbers of the anchors so far by their names. -/
structure TokenReader where
  tokens : List Token
  anchors : OrderedMap Nat

/-- A step that reads tokens. -/
abbrev Reading (α : Type) := StateT TokenReader Option α

namespace Reading

/-- The next token, which is left in place. -/
def peek : Reading Token := fun r => r.tokens.head?.map fun t => (t, r)

/-- Pass over the next token. -/
def skip : Reading Unit := fun r => some ((), { r with tokens := r.tokens.drop 1 })

/-- The next token is this one; pass over it. -/
def expect (t : Token) : Reading Unit := do
  let next ← peek
  if next = t then skip else failure

/-- Pass over the next token, if it is this one; whether it was. -/
def accept (t : Token) : Reading Bool := do
  let next ← peek
  if next = t then
    skip
    return true
  else return false

/-- Give a name to the node that begins here. -/
def anchor (name : Option String) : Reading (Option Nat) := fun r =>
  match name with
  | none => some (none, r)
  | some name =>
    let number := r.anchors.size
    some (some number, { r with anchors := r.anchors.insert name number })

/-- The number of a name that was given before. -/
def number (name : String) : Reading Nat := fun r =>
  (r.anchors.get? name).map fun number => (number, r)

/-! ### Tags and anchors -/

/-- What the tags with a handle start with. -/
abbrev Handles := List (String × String)

/-- The handles that are defined everywhere. -/
def standardHandles : Handles := [("!", "!"), ("!!", "tag:yaml.org,2002:")]

/-- The whole tag. -/
def resolveTag (handles : Handles) (handle suffix : String) : Reading String := fun r =>
  if handle = "" then some (suffix, r)
  else (handles.lookup handle).map fun start => (start ++ suffix, r)

/-- An anchor, if there is one here. -/
def anchor? : Reading (Option String) := do
  match ← peek with
  | .anchor name =>
    skip
    return some name
  | _ => return none

/-- A tag, if there is one here. -/
def tag? (handles : Handles) : Reading (Option String) := do
  match ← peek with
  | .tag handle suffix =>
    skip
    let tag ← resolveTag handles handle suffix
    return some tag
  | _ => return none

/-- The anchor and the tag in front of a node, in either order. -/
def properties (handles : Handles) : Reading (Option String × Option String) := do
  match ← anchor? with
  | some name =>
    let tag ← tag? handles
    return (some name, tag)
  | none =>
    let tag ← tag? handles
    let name ← if tag.isSome then anchor? else pure none
    return (name, tag)

/-- The tag of a scalar. A lone exclamation mark is none. -/
def scalarTag (tag : Option String) : Option String := if tag = some "!" then none else tag

/-! ### Nodes -/

/-- Where a node stands. -/
inductive Place where
  | flow
  /-- In a block, where a list has to be further right. -/
  | block
  /-- After a key in a block, where a list may begin at the level of the key. -/
  | member
deriving DecidableEq

mutual

/-- Read a node. -/
def node (handles : Handles) : (fuel : Nat) → Place → Reading Node
  | 0, _ => failure
  | fuel + 1, place => do
    match ← peek with
    | .alias name =>
      skip
      let n ← number name
      return .alias n
    | _ =>
      let (name, tag) ← properties handles
      let anchor ← anchor name
      match ← peek with
      | .scalar style text =>
        skip
        return .scalar anchor (scalarTag tag) style text
      | .flowListStart =>
        skip
        let items ← flowItems handles fuel true
        return .list anchor tag items
      | .flowMapStart =>
        skip
        let members ← flowMembers handles fuel true
        return .map anchor tag members
      | .item =>
        if place = .member then
          let items ← levelItems handles fuel
          return .list anchor tag items
        else if name.isSome || tag.isSome then return .scalar anchor tag .plain ""
        else failure
      | .blockListStart =>
        if place ≠ .flow then
          skip
          let items ← blockItems handles fuel
          return .list anchor tag items
        else if name.isSome || tag.isSome then return .scalar anchor tag .plain ""
        else failure
      | .blockMapStart =>
        if place ≠ .flow then
          skip
          let members ← blockMembers handles fuel
          return .map anchor tag members
        else if name.isSome || tag.isSome then return .scalar anchor tag .plain ""
        else failure
      | _ =>
        if name.isSome || tag.isSome then return .scalar anchor tag .plain ""
        else failure

/-- Read a node, unless one of these tokens shows that nothing is written. -/
def nodeUnless (handles : Handles) : (fuel : Nat) → Place → List Token → Reading Node
  | 0, _, _ => failure
  | fuel + 1, place, ends => do
    let next ← peek
    if ends.contains next then return Node.empty else node handles fuel place

/-- Read the items of a block list, to the end of the block. -/
def blockItems (handles : Handles) : (fuel : Nat) → Reading (List Node)
  | 0 => failure
  | fuel + 1 => do
    if ← accept .item then
      let first ← nodeUnless handles fuel .block [.item, .blockEnd]
      let rest ← blockItems handles fuel
      return first :: rest
    else
      expect .blockEnd
      return []

/-- Read the items of a list at the level of its key, as long as there are any. -/
def levelItems (handles : Handles) : (fuel : Nat) → Reading (List Node)
  | 0 => failure
  | fuel + 1 => do
    if ← accept .item then
      let first ← nodeUnless handles fuel .block [.item, .key, .value, .blockEnd]
      let rest ← levelItems handles fuel
      return first :: rest
    else return []

/-- Read the members of a block map, to the end of the block. -/
def blockMembers (handles : Handles) : (fuel : Nat) → Reading (List (Node × Node))
  | 0 => failure
  | fuel + 1 => do
    if ← accept .key then
      let key ← nodeUnless handles fuel .member [.key, .value, .blockEnd]
      let value ←
        if ← accept .value then nodeUnless handles fuel .member [.key, .value, .blockEnd]
        else pure Node.empty
      let rest ← blockMembers handles fuel
      return (key, value) :: rest
    else
      expect .blockEnd
      return []

/-- Read the items of a flow list, to its bracket. A key among them makes a map of one member. -/
def flowItems (handles : Handles) : (fuel : Nat) → (first : Bool) → Reading (List Node)
  | 0, _ => failure
  | fuel + 1, first => do
    if ← accept .flowListEnd then return []
    else
      if !first then expect .comma
      match ← peek with
      | .key =>
        skip
        let member ← flowPair handles fuel
        let rest ← flowItems handles fuel false
        return .map none none [member] :: rest
      | .flowListEnd =>
        skip
        return []
      | _ =>
        let item ← node handles fuel .flow
        let rest ← flowItems handles fuel false
        return item :: rest

/-- Read the key and the value of a map in a flow list that has one member. Where the key is left
    out, the token in its place is passed over. -/
def flowPair (handles : Handles) : (fuel : Nat) → Reading (Node × Node)
  | 0 => failure
  | fuel + 1 => do
    let next ← peek
    let key ←
      if [.value, .comma, .flowListEnd].contains next then do
        skip
        pure Node.empty
      else node handles fuel .flow
    let value ←
      if ← accept .value then nodeUnless handles fuel .flow [.comma, .flowListEnd]
      else pure Node.empty
    return (key, value)

/-- Read the members of a flow map, to its brace. -/
def flowMembers (handles : Handles) : (fuel : Nat) → (first : Bool) →
    Reading (List (Node × Node))
  | 0, _ => failure
  | fuel + 1, first => do
    if ← accept .flowMapEnd then return []
    else
      if !first then expect .comma
      match ← peek with
      | .flowMapEnd =>
        skip
        return []
      | .key =>
        skip
        let key ← nodeUnless handles fuel .flow [.value, .comma, .flowMapEnd]
        let value ←
          if ← accept .value then nodeUnless handles fuel .flow [.comma, .flowMapEnd]
          else pure Node.empty
        let rest ← flowMembers handles fuel false
        return (key, value) :: rest
      | _ =>
        let key ← node handles fuel .flow
        let rest ← flowMembers handles fuel false
        return (key, Node.empty) :: rest

end

/-! ### Documents -/

/-- The versions of the notation that are read. -/
def isKnownVersion (major minor : Nat) : Bool := major == 1 && (minor == 1 || minor == 2)

/-- Read the directives in front of a document: one version at most, and each handle once. The
    handles that they define are tried before the standard ones. -/
def directives : (fuel : Nat) → (versioned : Bool) → Handles → Reading Handles
  | 0, _, _ => failure
  | fuel + 1, versioned, handles => do
    match ← peek with
    | .versionDirective major minor =>
      if versioned || !isKnownVersion major minor then failure
      else
        skip
        directives fuel true handles
    | .tagDirective handle start =>
      if (handles.lookup handle).isSome then failure
      else
        skip
        directives fuel versioned ((handle, start) :: handles)
    | _ => return handles ++ standardHandles

/-- Read the ends of a document, as many as there are. -/
def documentEnds : (fuel : Nat) → Reading Unit
  | 0 => failure
  | fuel + 1 => do
    if ← accept .documentEnd then documentEnds fuel

/-- Whether a document begins without a mark. -/
def beginsDocument : Token → Bool
  | .versionDirective .. | .tagDirective .. | .documentStart | .streamEnd => false
  | _ => true

/-- Whether nothing is written between the mark of a document and this token. -/
def endsDocument : Token → Bool
  | .documentEnd => true
  | t => !beginsDocument t

/-- Read the only document of a text; nothing at all is none. -/
def document (fuel : Nat) : Reading (Option Node) := do
  match ← peek with
  | .streamEnd => return none
  | next =>
    let root ←
      if beginsDocument next then node standardHandles fuel .block
      else do
        let handles ← directives fuel false []
        expect .documentStart
        let next ← peek
        if endsDocument next then pure Node.empty else node handles fuel .block
    documentEnds fuel
    expect .streamEnd
    return some root

end Reading

/-- The root of the only document that the tokens spell; `some none` if they spell nothing. -/
def Node.ofTokens? (tokens : List Token) : Option (Option Node) :=
  (Reading.document (4 * tokens.length + 4) ⟨tokens, .empty⟩).map (·.1)

end NetIntent.Yaml
