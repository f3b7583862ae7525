import NetIntent.Intent
import NetIntent.Proofs.DocumentStore
import NetIntent.Proofs.Timestamp

namespace NetIntent

/-!
# Records are read back as they were written

Every declared object is kept as a document, and reading undoes writing. Since fields are found by
name, the order in which a document keeps its members does not matter.

* `Json.knownMembers?_eq` — the known fields of a value;
* `Json.fields?_ofMembers`, `required?_sortMembers`, `optional?_sortMembers` — the fields of a
  written record;
* `Ledger.ofJson?_toJson` — the same for a ledger, whose times have to be those of a clock;
* `LawfulIntent` — what is used of a kind of intents, with its two instances.
-/

namespace Json

variable {α : Type} {l : List (String × Json)}

/-- A member is found among sorted members if no name occurs twice. -/
theorem lookup_sortMembers (h : (l.map (·.1)).Nodup) {name : String} {value : Json}
    (hm : (name, value) ∈ l) : OrderedMap.lookup name (sortMembers l) = some value := by
  rw [sortMembers_eq]
  exact OrderedMap.get?_insertAll_of_mem h hm .empty

/-- The fields are the members with known names, if no two of them have one name. -/
theorem knownMembers?_eq (names : List String) (members : List (String × Json)) :
    knownMembers? names members
      = let known := members.filter fun m => names.contains m.1
        if (known.map (·.1)).Nodup then some known else none := by
  induction members with
  | nil => rfl
  | cons m members ih =>
    obtain ⟨k, v⟩ := m
    by_cases hk : names.contains k = true
    · simp only [knownMembers?, hk, if_true, List.filter_cons, ih, List.map_cons, List.nodup_cons]
      split
      next hnone =>
        -- two of the later members have one name already
        split at hnone
        · cases hnone
        · rw [if_neg fun h => absurd h.2 ‹_›]
      next known hsome =>
        split at hsome
        · cases hsome
          simp only [OrderedMap.lookup_isSome_iff, *, and_true, ite_not]
        · cases hsome
    · simp only [knownMembers?, hk, Bool.false_eq_true, if_false, List.filter_cons, ih]

/-- Members with known names are all known. -/
theorem knownMembers?_of_subset {names : List String} (hnodup : (l.map (·.1)).Nodup)
    (hnames : ∀ e ∈ l, e.1 ∈ names) : knownMembers? names l = some l := by
  have hall : (l.filter fun m => names.contains m.1) = l :=
    List.filter_eq_self.2 fun e he => List.contains_iff_mem.2 (hnames e he)
  rw [knownMembers?_eq, hall]
  exact if_pos hnodup

/-- The fields of a written record are all of its members. -/
theorem fields?_ofMembers {names : List String} (hnames : ∀ name ∈ l.map (·.1), name ∈ names) :
    fields? names (ofMembers l) = some (sortMembers l) := by
  rw [ofMembers, fields?, sortMembers_eq]
  refine knownMembers?_of_subset (OrderedMap.nodup_keys _) fun ⟨k, v⟩ he => hnames k ?_
  by_contra hnot
  have hget := OrderedMap.get?_eq_some_iff.2 he
  have hnone : (OrderedMap.insertAll .empty l).get? k = none :=
    (OrderedMap.get?_insertAll_of_notMem hnot _).trans (OrderedMap.get?_empty k)
  exact absurd (hget.symm.trans hnone) (by simp)

/-- A required field of a written record is read back. -/
theorem required?_sortMembers (value : Json) {name : String} {read : Json → Option α}
    (h : (l.map (·.1)).Nodup := by simp) (hm : (name, value) ∈ l := by simp) :
    required? (sortMembers l) name read = read value := by
  rw [required?, lookup_sortMembers h hm, Option.bind_some]

/-- An optional field of a written record is read back. -/
theorem optional?_sortMembers (value : Json) {name : String} {default : α}
    {read : Json → Option α} (h : (l.map (·.1)).Nodup := by simp)
    (hm : (name, value) ∈ l := by simp) :
    optional? (sortMembers l) name default read = read value := by
  rw [optional?, lookup_sortMembers h hm]

/-- A list is read back item by item. -/
theorem list?_array_map {write : α → Json} {read : Json → Option α} {items : List α}
    (h : ∀ a ∈ items, read (write a) = some a) :
    list? read (.array (items.map write)) = some items := by
  rw [list?]
  induction items with
  | nil => rfl
  | cons a items ih =>
    rw [List.map_cons, List.mapM_cons, h a List.mem_cons_self,
      ih fun b hb => h b (List.mem_cons_of_mem _ hb)]
    rfl

/-- A list of texts is read back. -/
theorem list?_ofStrings (items : List String) : list? string? (ofStrings items) = some items :=
  list?_array_map fun _ _ => rfl

end Json

open Json

/-! ### Providers and clusters -/

/-- Metadata are read back as they were written. -/
theorem Metadata.ofJson?_toJson (m : Metadata) : ofJson? m.toJson = some m := by
  unfold ofJson? toJson
  rw [fields?_ofMembers (by simp)]
  simp only [Option.bind_eq_bind, Option.bind_some]
  rw [required?_sortMembers (.string m.name),
    optional?_sortMembers (.string m.description),
    optional?_sortMembers (.string m.userData1),
    optional?_sortMembers (.string m.userData2)]
  rfl

/-- Metadata are found in a document of them. -/
theorem metadataOf?_metadataDocument (m : Metadata) :
    metadataOf? (metadataDocument m) = some m := by
  unfold metadataOf? metadataDocument
  rw [fields?_ofMembers (by simp)]
  simp only [Option.bind_eq_bind, Option.bind_some]
  rw [required?_sortMembers m.toJson, Metadata.ofJson?_toJson]

/-- A provider is read back as it was written. -/
theorem Provider.ofJson?_toJson (p : Provider) : ofJson? p.toJson = some p := by
  rw [ofJson?, toJson, metadataOf?_metadataDocument]
  rfl

/-- A cluster is read back as it was written. -/
theorem Cluster.ofJson?_toJson (c : Cluster) : ofJson? c.toJson = some c := by
  rw [ofJson?, toJson, metadataOf?_metadataDocument]
  rfl

/-- The content of a cluster is read back as it was written. -/
theorem ClusterContent.ofJson?_toJson (c : ClusterContent) : ofJson? c.toJson = some c := by
  unfold ofJson? toJson
  rw [fields?_ofMembers (by simp)]
  simp only [Option.bind_eq_bind, Option.bind_some]
  rw [required?_sortMembers (.string c.kubeconfig)]
  rfl

/-! ### Ledgers -/

/-- The state of a ledger is read back from its name. -/
theorem LedgerState.ofJson?_name (s : LedgerState) : ofJson? (.string s.name) = some s := by
  cases s <;> rfl

/-- An entry of a ledger is read back if its time can be written. -/
theorem LedgerEntry.ofJson?_toJson {e : LedgerEntry} (h : e.time.IsValid) :
    ofJson? e.toJson = some e := by
  unfold ofJson? toJson
  rw [fields?_ofMembers (by simp)]
  simp only [Option.bind_eq_bind, Option.bind_some]
  rw [required?_sortMembers (.string e.state.name),
    LedgerState.ofJson?_name,
    optional?_sortMembers (.string e.contextId),
    required?_sortMembers (.string e.time.text)]
  simp [string?, Timestamp.ofText?_text h]

namespace Ledger

/-- All times of a ledger are points in time of the calendar. -/
def Timely (l : Ledger) : Prop := ∀ e ∈ l.entries, e.time.IsValid

/-- A ledger stays in time if its new entry has a time that can be written. -/
theorem Timely.append {l : Ledger} (h : l.Timely) (state : LedgerState) (id : String)
    {time : Timestamp} (ht : time.IsValid) : (l.append state id time).Timely := by
  intro e he
  rcases List.mem_append.1 he with he | he
  · exact h e he
  · rw [List.mem_singleton.1 he]
    exact ht

/-- The ledger of a new cluster is in time. -/
theorem timely_begun {time : Timestamp} (ht : time.IsValid) :
    (append {} .created "" time).Timely :=
  Timely.append (fun e he => absurd he (by simp)) _ _ ht

/-- A ledger is read back from its document. -/
theorem ofJson?_toJson {l : Ledger} (h : l.Timely) : ofJson? l.toJson = some l := by
  unfold ofJson? toJson
  rw [fields?_ofMembers (by simp)]
  simp only [Option.bind_eq_bind, Option.bind_some]
  rw [optional?_sortMembers (.array (l.entries.map LedgerEntry.toJson)),
    list?_array_map fun e he => LedgerEntry.ofJson?_toJson (h e he)]
  rfl

end Ledger

/-! ### Intents -/

/-- A subnet is read back as it was written. -/
theorem Subnet.ofJson?_toJson (s : Subnet) : ofJson? s.toJson = some s := by
  unfold ofJson? toJson
  rw [fields?_ofMembers (by simp)]
  simp only [Option.bind_eq_bind, Option.bind_some]
  rw [required?_sortMembers (.string s.subnet),
    required?_sortMembers (.string s.name),
    optional?_sortMembers (.string s.gateway),
    optional?_sortMembers (.string s.excludeIps)]
  rfl

/-- The setting of a VLAN is read back as it was written. -/
theorem Vlan.ofJson?_toJson (v : Vlan) : ofJson? v.toJson = some v := by
  unfold ofJson? toJson
  rw [fields?_ofMembers (by simp)]
  simp only [Option.bind_eq_bind, Option.bind_some]
  rw [required?_sortMembers (.string v.vlanId),
    required?_sortMembers (.string v.providerInterfaceName),
    optional?_sortMembers (.string v.logicalInterfaceName),
    optional?_sortMembers (.string v.vlanNodeSelector),
    optional?_sortMembers (ofStrings v.nodeLabelList),
    list?_ofStrings]
  rfl

/-- A network is read back as it was written. -/
theorem Network.ofJson?_toJson (n : Network) : ofJson? n.toJson = some n := by
  unfold ofJson? toJson
  rw [fields?_ofMembers (by simp)]
  simp only [Option.bind_eq_bind, Option.bind_some]
  rw [required?_sortMembers n.metadata.toJson,
    Metadata.ofJson?_toJson,
    required?_sortMembers (ofMembers
      [("cniType", .string n.cniType), ("ipv4Subnets", .array (n.subnets.map Subnet.toJson))]),
    fields?_ofMembers (by simp)]
  simp only [Option.bind_some]
  rw [required?_sortMembers (.string n.cniType),
    optional?_sortMembers (.array (n.subnets.map Subnet.toJson)),
    list?_array_map fun s _ => Subnet.ofJson?_toJson s]
  rfl

/-- A provider network is read back as it was written. -/
theorem ProviderNetwork.ofJson?_toJson (n : ProviderNetwork) : ofJson? n.toJson = some n := by
  unfold ofJson? toJson
  -- The members stand in the order of their names, and not as they were written.
  rw [fields?_ofMembers (by simp)]
  simp only [Option.bind_eq_bind, Option.bind_some]
  rw [required?_sortMembers n.metadata.toJson,
    Metadata.ofJson?_toJson,
    required?_sortMembers (ofMembers
      [("cniType", .string n.cniType), ("ipv4Subnets", .array (n.subnets.map Subnet.toJson)),
        ("providerNetType", .string n.netType), ("vlan", n.vlan.toJson)]),
    fields?_ofMembers (by simp)]
  simp only [Option.bind_some]
  rw [required?_sortMembers (.string n.cniType),
    optional?_sortMembers (.array (n.subnets.map Subnet.toJson)),
    list?_array_map fun s _ => Subnet.ofJson?_toJson s,
    required?_sortMembers (.string n.netType),
    optional?_sortMembers n.vlan.toJson, Vlan.ofJson?_toJson]
  rfl

/-- What is used of a kind of intents: documents are read back, a valid intent has a valid name, and
    the field of its name is none of the cluster's. -/
class LawfulIntent (α : Type) [Intent α] : Prop where
  ofJson?_toJson : ∀ i : α, Intent.ofJson? (Intent.toJson i) = some i
  validate_metadata : ∀ i : α, Intent.validate i = .ok () → (Intent.metadata i).validate = .ok ()
  keyField_ne_provider : Intent.keyField α ≠ "provider"
  keyField_ne_cluster : Intent.keyField α ≠ "cluster"

/-- Networks are stored as intents have to be. -/
instance : LawfulIntent Network where
  ofJson?_toJson := Network.ofJson?_toJson
  validate_metadata := by
    intro n h
    change Network.validate n = .ok () at h
    unfold Network.validate at h
    split at h
    · cases h
    · assumption
  keyField_ne_provider := by decide
  keyField_ne_cluster := by decide

/-- Provider networks are stored as intents have to be. -/
instance : LawfulIntent ProviderNetwork where
  ofJson?_toJson := ProviderNetwork.ofJson?_toJson
  validate_metadata := by
    intro n h
    change ProviderNetwork.validate n = .ok () at h
    unfold ProviderNetwork.validate at h
    split at h
    · cases h
    · assumption
  keyField_ne_provider := by decide
  keyField_ne_cluster := by decide

end NetIntent
