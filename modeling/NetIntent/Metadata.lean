import NetIntent.Error
import NetIntent.Data.Text
import NetIntent.Json.Fields

namespace NetIntent

/-!
# Metadata and names

* `Metadata` — what every declared object carries, with the rule for its name;
* `contextClusterName` — the name of a cluster inside a context;
* `networkApp` — the app that holds the network intents of a cluster.
-/

/-- What stands between a provider and a cluster, and between a resource's name and its kind. -/
def separator : String := "+"

/-- The app that holds the network intents of a cluster. -/
def networkApp : String := "network-intents"

/-- The name of a cluster inside a context. -/
def contextClusterName (provider cluster : String) : String := provider ++ separator ++ cluster

/-- What every declared object carries. -/
structure Metadata where
  /-- The name, unique within its parent. -/
  name : String
  /-- A free text. -/
  description : String := ""
  /-- A free text. -/
  userData1 : String := ""
  /-- A free text. -/
  userData2 : String := ""
deriving DecidableEq, Inhabited

namespace Metadata

/-- A name is not empty and has neither a plus sign nor a slash, so that it can be a key of a
    document and a part of a node's name. -/
def validate (m : Metadata) : Except Failure Unit :=
  if m.name = "" then .error (.validation "metadata.name" "must not be empty")
  else if Text.hasChar '+' m.name || Text.hasChar '/' m.name then
    .error (.validation "metadata.name" ("'" ++ m.name ++ "' must not contain '+' or '/'"))
  else .ok ()

/-- The metadata in a document. -/
def toJson (m : Metadata) : Json :=
  Json.ofMembers
    [("name", .string m.name), ("description", .string m.description),
      ("userData1", .string m.userData1), ("userData2", .string m.userData2)]

/-- The metadata of a document. -/
def ofJson? (v : Json) : Option Metadata := do
  let fields ← v.fields? ["name", "description", "userData1", "userData2"]
  let name ← Json.required? fields "name" Json.string?
  let description ← Json.optional? fields "description" "" Json.string?
  let userData1 ← Json.optional? fields "userData1" "" Json.string?
  let userData2 ← Json.optional? fields "userData2" "" Json.string?
  some ⟨name, description, userData1, userData2⟩

end Metadata

end NetIntent
