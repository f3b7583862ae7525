import NetIntent.Cluster
import NetIntent.Yaml.Writer

namespace NetIntent

/-!
# Network intents

What is declared for a cluster: virtual networks, and networks of the provider that are attached
directly or through a VLAN. Each kind is a document of its own and is rendered as a custom
resource.

* `Network`, `ProviderNetwork` — the two kinds;
* `Intent` — what the kinds have in common: their names, their rule and their rendering;
* `Intent.create`, `get`, `getAll`, `delete` — the intents of one kind on a cluster.
-/

/-- A subnet of a network. -/
structure Subnet where
  subnet : String
  name : String
  gateway : String := ""
  /-- The addresses that are not given out. -/
  excludeIps : String := ""
deriving DecidableEq, Inhabited

namespace Subnet

/-- The subnet in a document. -/
def toJson (s : Subnet) : Json :=
  Json.ofMembers
    [("subnet", .string s.subnet), ("name", .string s.name), ("gateway", .string s.gateway),
      ("excludeIps", .string s.excludeIps)]

/-- The subnet of a document. -/
def ofJson? (v : Json) : Option Subnet := do
  let fields ← v.fields? ["subnet", "name", "gateway", "excludeIps"]
  let subnet ← Json.required? fields "subnet" Json.string?
  let name ← Json.required? fields "name" Json.string?
  let gateway ← Json.optional? fields "gateway" "" Json.string?
  let excludeIps ← Json.optional? fields "excludeIps" "" Json.string?
  some ⟨subnet, name, gateway, excludeIps⟩

/-- The subnet in a custom resource. -/
def outline (s : Subnet) : Yaml.Outline :=
  .map
    [("subnet", .text s.subnet), ("name", .text s.name), ("gateway", .text s.gateway),
      ("excludeIps", .text s.excludeIps)]

end Subnet

/-- The settings of a VLAN. -/
structure Vlan where
  vlanId : String := ""
  /-- The interface of the node. -/
  providerInterfaceName : String := ""
  /-- The interface inside the pod. -/
  logicalInterfaceName : String := ""
  /-- Which nodes the VLAN is made on. -/
  vlanNodeSelector : String := ""
  /-- The labels of these nodes. -/
  nodeLabelList : List String := []
deriving DecidableEq, Inhabited

namespace Vlan

/-- The settings in a document. -/
def toJson (v : Vlan) : Json :=
  Json.ofMembers
    [("vlanID", .string v.vlanId), ("providerInterfaceName", .string v.providerInterfaceName),
      ("logicalInterfaceName", .string v.logicalInterfaceName),
      ("vlanNodeSelector", .string v.vlanNodeSelector),
      ("nodeLabelList", Json.ofStrings v.nodeLabelList)]

/-- The settings of a document. -/
def ofJson? (v : Json) : Option Vlan := do
  let fields ← v.fields?
    ["vlanID", "providerInterfaceName", "logicalInterfaceName", "vlanNodeSelector",
      "nodeLabelList"]
  let vlanId ← Json.required? fields "vlanID" Json.string?
  let providerInterfaceName ← Json.required? fields "providerInterfaceName" Json.string?
  let logicalInterfaceName ← Json.optional? fields "logicalInterfaceName" "" Json.string?
  let vlanNodeSelector ← Json.optional? fields "vlanNodeSelector" "" Json.string?
  let nodeLabelList ← Json.optional? fields "nodeLabelList" [] (Json.list? Json.string?)
  some ⟨vlanId, providerInterfaceName, logicalInterfaceName, vlanNodeSelector, nodeLabelList⟩

/-- The settings in a custom resource, where the id has a spelling of its own. -/
def outline (v : Vlan) : Yaml.Outline :=
  .map
    [("vlanId", .text v.vlanId), ("providerInterfaceName", .text v.providerInterfaceName),
      ("logicalInterfaceName", .text v.logicalInterfaceName),
      ("vlanNodeSelector", .text v.vlanNodeSelector),
      ("nodeLabelList", .list (v.nodeLabelList.map .text))]

end Vlan

/-- A virtual network. -/
structure Network where
  metadata : Metadata
  /-- What realises the network. -/
  cniType : String
  subnets : List Subnet := []
deriving DecidableEq, Inhabited

/-- A network of the provider. -/
structure ProviderNetwork where
  metadata : Metadata
  /-- What realises the network. -/
  cniType : String
  subnets : List Subnet := []
  /-- How the network is attached. -/
  netType : String
  vlan : Vlan := {}
deriving DecidableEq, Inhabited

/-- The metadata in a custom resource. -/
def Metadata.outline (m : Metadata) : Yaml.Outline :=
  .map
    [("name", .text m.name), ("description", .text m.description),
      ("userData1", .text m.userData1), ("userData2", .text m.userData2)]

/-- The version of the custom resources. -/
def resourceVersion : String := "k8s.plugin.opnfv.org/v1alpha1"

/-- A custom resource. -/
def customResource (kind : String) (metadata : Metadata) (spec : Yaml.Outline) : Yaml.Outline :=
  .map
    [("apiVersion", .text resourceVersion), ("kind", .text kind), ("metadata", metadata.outline),
      ("spec", spec)]

/-- The only supported realisation of networks. -/
def supportedCni : String := "ovn4nfv"

/-- The realisation is supported. -/
def validateCni (cniType : String) : Except Failure Unit :=
  if cniType = supportedCni then .ok ()
  else .error (.validation "spec.cniType" ("unsupported CNI type '" ++ cniType ++ "'"))

namespace Network

/-- The rule for a network: its name, and what realises it. -/
def validate (n : Network) : Except Failure Unit :=
  match n.metadata.validate with
  | .error e => .error e
  | .ok () => validateCni n.cniType

/-- The network in a document. -/
def toJson (n : Network) : Json :=
  Json.ofMembers
    [("metadata", n.metadata.toJson),
      ("spec", Json.ofMembers
        [("cniType", .string n.cniType), ("ipv4Subnets", .array (n.subnets.map Subnet.toJson))])]

/-- The network of a document. -/
def ofJson? (v : Json) : Option Network := do
  let fields ← v.fields? ["metadata", "spec"]
  let metadata ← Json.required? fields "metadata" Metadata.ofJson?
  let spec ← Json.required? fields "spec" fun v => v.fields? ["cniType", "ipv4Subnets"]
  let cniType ← Json.required? spec "cniType" Json.string?
  let subnets ← Json.optional? spec "ipv4Subnets" [] (Json.list? Subnet.ofJson?)
  some ⟨metadata, cniType, subnets⟩

/-- The custom resource. -/
def outline (n : Network) : Yaml.Outline :=
  customResource "Network" n.metadata
    (.map
      [("cniType", .text n.cniType), ("ipv4Subnets", .list (n.subnets.map Subnet.outline))])

end Network

namespace ProviderNetwork

/-- The ways to attach a network of the provider. -/
def netTypes : List String := ["VLAN", "DIRECT"]

/-- The rule for a network of the provider: its name, what realises it, and how it is attached. -/
def validate (n : ProviderNetwork) : Except Failure Unit :=
  match n.metadata.validate with
  | .error e => .error e
  | .ok () =>
    match validateCni n.cniType with
    | .error e => .error e
    | .ok () =>
      if n.netType ∈ netTypes then .ok ()
      else
        .error (.validation "spec.providerNetType"
          ("unsupported provider network type '" ++ n.netType ++ "'"))

/-- The network in a document. -/
def toJson (n : ProviderNetwork) : Json :=
  Json.ofMembers
    [("metadata", n.metadata.toJson),
      ("spec", Json.ofMembers
        [("cniType", .string n.cniType), ("ipv4Subnets", .array (n.subnets.map Subnet.toJson)),
          ("providerNetType", .string n.netType), ("vlan", n.vlan.toJson)])]

/-- The network of a document. -/
def ofJson? (v : Json) : Option ProviderNetwork := do
  let fields ← v.fields? ["metadata", "spec"]
  let metadata ← Json.required? fields "metadata" Metadata.ofJson?
  let spec ← Json.required? fields "spec" fun v =>
    v.fields? ["cniType", "ipv4Subnets", "providerNetType", "vlan"]
  let cniType ← Json.required? spec "cniType" Json.string?
  let subnets ← Json.optional? spec "ipv4Subnets" [] (Json.list? Subnet.ofJson?)
  let netType ← Json.required? spec "providerNetType" Json.string?
  let vlan ← Json.optional? spec "vlan" {} Vlan.ofJson?
  some ⟨metadata, cniType, subnets, netType, vlan⟩

/-- The custom resource. -/
def outline (n : ProviderNetwork) : Yaml.Outline :=
  customResource "ProviderNetwork" n.metadata
    (.map
      [("cniType", .text n.cniType), ("ipv4Subnets", .list (n.subnets.map Subnet.outline)),
        ("providerNetType", .text n.netType), ("vlan", n.vlan.outline)])

end ProviderNetwork

/-- What the kinds of intents have in common. -/
class Intent (α : Type) where
  /-- The name of the kind in failures. -/
  entity : String
  /-- The field of a document's key that holds the intent's name. -/
  keyField : String
  /-- The tag of the intent. -/
  tag : String
  /-- The kind of the custom resource. -/
  kind : String
  metadata : α → Metadata
  validate : α → Except Failure Unit
  toJson : α → Json
  ofJson? : Json → Option α
  /-- The custom resource. -/
  outline : α → Yaml.Outline

/-- Networks are intents. -/
instance : Intent Network where
  entity := "Network"
  keyField := "network"
  tag := "networkmetadata"
  kind := "Network"
  metadata := Network.metadata
  validate := Network.validate
  toJson := Network.toJson
  ofJson? := Network.ofJson?
  outline := Network.outline

/-- Provider networks are intents. -/
instance : Intent ProviderNetwork where
  entity := "ProviderNet"
  keyField := "providernet"
  tag := "providernetmetadata"
  kind := "ProviderNetwork"
  metadata := ProviderNetwork.metadata
  validate := ProviderNetwork.validate
  toJson := ProviderNetwork.toJson
  ofJson? := ProviderNetwork.ofJson?
  outline := ProviderNetwork.outline

namespace Intent

variable {α : Type} [Intent α]

/-- The name of an intent. -/
def name (i : α) : String := (Intent.metadata i).name

/-- The name of the resource that an intent is in a context: its name and its kind. -/
def resourceName (i : α) : String := name i ++ separator ++ Intent.kind α

/-- The text of the custom resource. -/
def resourceText (i : α) : String := (Intent.outline i).write

variable (α) in
/-- The key of an intent. -/
def key (provider cluster name : String) : DocumentKey :=
  .ofFields [("provider", provider), ("cluster", cluster), (Intent.keyField α, name)]

/-- Store an intent. Unless it may exist already, its name must be new. -/
def create (i : α) (provider cluster : String) (mayExist : Bool) : Op α := do
  Op.of (Intent.validate i)
  let _ ← checkCluster provider cluster .createIntent
  let key := key α provider cluster (name i)
  if !mayExist then
    if (← Registry.findOne (Intent.ofJson? (α := α)) key (Intent.tag α)).isSome then
      throw (.alreadyExists (Intent.entity α) (name i))
  Registry.put key (Intent.tag α) (Intent.toJson i)
  return i

variable (α) in
/-- Look up an intent. -/
def get (intent provider cluster : String) : Op α := do
  if intent = "" then throw (.notFound (Intent.entity α) intent)
  let found ← Registry.findOne (Intent.ofJson? (α := α)) (key α provider cluster intent)
    (Intent.tag α)
  Registry.require found (Intent.entity α) intent

variable (α) in
/-- All intents of the kind on a cluster. -/
def getAll (provider cluster : String) : Op (List α) := do
  if provider = "" ∨ cluster = "" then
    throw (.notFound "Cluster" (contextClusterName provider cluster))
  Registry.findAll (Intent.ofJson? (α := α)) (key α provider cluster "") (Intent.tag α)

variable (α) in
/-- Delete an intent. -/
def delete (intent provider cluster : String) : Op Unit := do
  let _ ← checkCluster provider cluster .deleteIntent
  let _ ← get α intent provider cluster
  Registry.remove (key α provider cluster intent)

end Intent

end NetIntent
