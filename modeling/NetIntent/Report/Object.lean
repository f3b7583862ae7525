import NetIntent.Json.Fields
import NetIntent.Yaml.Value

namespace NetIntent

/-!
# Objects of a cluster

An object has a version, a kind and metadata with a name; all its other members are kept as they
are.

* `Gvk` — group, version and kind;
* `KubeObject.ofJson?`, `toJson` — the object of a value, and the value with all its members;
* `KubeObject.ofManifest?` — the object of the text of a document.
-/

/-- The group, version and kind of an object. -/
structure Gvk where
  /-- Empty for the core group. -/
  group : String
  version : String
  kind : String
deriving DecidableEq, Inhabited

namespace Gvk

/-- The group is what stands before the last slash, the version what stands behind it. -/
def ofApiVersion (apiVersion kind : String) : Gvk :=
  match Text.splitLast '/' apiVersion with
  | some (group, version) => ⟨group, version, kind⟩
  | none => ⟨"", apiVersion, kind⟩

/-- The group, version and kind in a document. -/
def toJson (g : Gvk) : Json :=
  Json.ofMembers
    [("Group", .string g.group), ("Version", .string g.version), ("Kind", .string g.kind)]

/-- The group, version and kind of a document. -/
def ofJson? (v : Json) : Option Gvk := do
  let fields ← v.fields? ["Group", "Version", "Kind"]
  let group ← Json.required? fields "Group" Json.string?
  let version ← Json.required? fields "Version" Json.string?
  let kind ← Json.required? fields "Kind" Json.string?
  some ⟨group, version, kind⟩

end Gvk

/-- The metadata of an object. -/
structure ObjectMeta where
  name : String := ""
  /-- The other members. -/
  others : OrderedMap Json := .empty
deriving Inhabited

/-- An object of any kind. -/
structure KubeObject where
  apiVersion : String := ""
  kind : String := ""
  metadata : ObjectMeta := {}
  /-- The other members. -/
  others : OrderedMap Json := .empty
deriving Inhabited

/-- The members without those of the given names. -/
def otherMembers {α : Type} (names : List String) (members : List (String × α)) :
    List (String × α) :=
  members.filter fun m => !names.contains m.1

namespace ObjectMeta

/-- The names of the members that are not kept as they are. -/
def known : List String := ["name"]

/-- The members of metadata. -/
def members (m : ObjectMeta) : List (String × Json) := ("name", .string m.name) :: m.others.entries

/-- The metadata in a document. -/
def toJson (m : ObjectMeta) : Json := Json.ofMembers m.members

/-- The metadata of a document, which have to be an object. -/
def ofJson? : Json → Option ObjectMeta
  | .object members => do
    let fields ← Json.knownMembers? known members
    let name ← Json.optional? fields "name" "" Json.string?
    some ⟨name, .ofList (Json.normalizeMembers (otherMembers known members))⟩
  | _ => none

end ObjectMeta

namespace KubeObject

/-- The name of an object. -/
def name (o : KubeObject) : String := o.metadata.name

/-- The group, version and kind of an object. -/
def gvk (o : KubeObject) : Gvk := .ofApiVersion o.apiVersion o.kind

/-- The names of the members that are not kept as they are. -/
def known : List String := ["apiVersion", "kind", "metadata"]

/-- The members of an object. -/
def members (o : KubeObject) : List (String × Json) :=
  ("apiVersion", .string o.apiVersion) :: ("kind", .string o.kind) ::
    ("metadata", o.metadata.toJson) :: o.others.entries

/-- The object in a document. -/
def toJson (o : KubeObject) : Json := Json.ofMembers o.members

/-- The object of a document. -/
def ofJson? : Json → Option KubeObject
  | .object members => do
    let fields ← Json.knownMembers? known members
    let apiVersion ← Json.optional? fields "apiVersion" "" Json.string?
    let kind ← Json.optional? fields "kind" "" Json.string?
    let metadata ← Json.optional? fields "metadata" {} ObjectMeta.ofJson?
    some ⟨apiVersion, kind, metadata,
      .ofList (Json.normalizeMembers (otherMembers known members))⟩
  | _ => none

end KubeObject

/-! ### Manifests -/

namespace Manifest

open Yaml (Content)

/-- The content of the member with a name, if there is one. It may stand only once. -/
def member? (name : String) (members : List (String × Content)) : Option (Option Content) :=
  match members.filter fun m => m.1 = name with
  | [] => some none
  | [(_, c)] => some (some c)
  | _ => none

/-- The text of the member with a name, empty if there is none. Any scalar is a text. -/
def text? (name : String) (members : List (String × Content)) : Option String :=
  match member? name members with
  | none => none
  | some none => some ""
  | some (some c) => c.text?

/-- The other members with their values. -/
def others? (names : List String) (members : List (String × Content)) :
    Option (OrderedMap Json) :=
  ((otherMembers names members).mapM fun (m : String × Content) =>
    m.2.toJson?.map fun v => (m.1, v)).map .ofList

/-- The metadata of an object. -/
def metadata? (c : Content) : Option ObjectMeta := do
  let members ← c.members?
  let name ← text? "name" members
  let others ← others? ObjectMeta.known members
  some ⟨name, others⟩

/-- The object that a content is. -/
def object? (c : Content) : Option KubeObject := do
  let members ← c.members?
  let apiVersion ← text? "apiVersion" members
  let kind ← text? "kind" members
  let metadata ←
    match ← member? "metadata" members with
    | none => some {}
    | some c => metadata? c
  let others ← others? KubeObject.known members
  some ⟨apiVersion, kind, metadata, others⟩

end Manifest

/-- The object of the text of a document. An empty text is an object without members. -/
def KubeObject.ofManifest? (text : String) : Option KubeObject := do
  match ← Yaml.Content.ofText? text with
  | none => some {}
  | some c => Manifest.object? c

end NetIntent
