import NetIntent.Proofs.ContextFrame
import NetIntent.Proofs.Declarations

namespace NetIntent

/-!
# What is applied is what is declared

As long as the ledger of a cluster ends in an application, the context with its last id consists of
one resource for each declared intent and of the nodes that hold them together, and nothing else.

* `Change.agree` — a context stays as it is while its cluster is applied;
* `Change.vacant` — nothing is stored under ids that were not taken yet;
* `Stores.Shows` — a context shows what is declared for a cluster;
* `Stores.Installed` — the invariant: the last context of an applied cluster shows what is declared.
-/

open Registry Deployment

variable {a : Action} {s s' : Stores} {r : Except Failure Unit}

namespace Stores.Chronicled

/-- The ids of a ledger can be words of keys. -/
theorem isWord (h : s.Chronicled) (hword : ∀ n, Handle.IsWord (s.contextId n)) {p c : String}
    {l : Ledger} (hl : s.documents.ledger? p c = some l) {id : String} (hid : id ∈ l.appliedIds) :
    Handle.IsWord id := by
  obtain ⟨n, -, rfl⟩ := h.minted p c l hl id hid
  exact hword n

/-- The ids of a ledger are those of its applied contexts. -/
theorem mem_ids_iff (h : s.Chronicled) (hne : ∀ n, s.contextId n ≠ "") {p c : String}
    {l : Ledger} (hl : s.documents.ledger? p c = some l) {id : String} :
    id ∈ l.ids ↔ id ∈ l.appliedIds := by
  obtain ⟨finished, running, hlife⟩ := h.life p c l hl
  refine hlife.mem_ids_iff fun hempty => ?_
  obtain ⟨n, -, heq⟩ := h.minted p c l hl _ hempty
  exact hne n heq.symm

/-- The last id of a ledger whose intents are applied is one of those that were applied. -/
theorem lastId_mem (h : s.Chronicled) {p c : String} {l : Ledger}
    (hl : s.documents.ledger? p c = some l) (hcurrent : l.current = .ok .applied) :
    l.lastId ∈ l.appliedIds := by
  obtain ⟨finished, running, hlife⟩ := h.life p c l hl
  exact hlife.lastId_mem hcurrent

end Stores.Chronicled

/-- A supply of ids that are fresh and valid. -/
structure ValidIds (ids : Nat → String) : Prop where
  fresh : Function.Injective ids
  valid : ∀ n, RunContext.isValidId (ids n) = true

namespace ValidIds

variable {ids : Nat → String} (h : ValidIds ids)
include h

/-- The ids of a valid supply have no slashes. -/
theorem isWord (n : Nat) : Handle.IsWord (ids n) := (Handle.isValidId_iff.1 (h.valid n)).2

/-- No id of a valid supply is empty. -/
theorem ne_empty (n : Nat) : ids n ≠ "" := (Handle.isValidId_iff.1 (h.valid n)).1

end ValidIds

/-- The supply of one letter more each time is valid. -/
theorem unaryId_valid : ValidIds unaryId where
  fresh := unaryId_injective
  valid := by
    intro n
    rw [Handle.isValidId_iff]
    refine ⟨unaryId_ne_empty n, fun hslash => ?_⟩
    rw [unaryId, String.toList_ofList] at hslash
    exact absurd (List.eq_of_mem_replicate hslash) (by decide)

/-! ### What happens to the contexts -/

/-- A context that is recorded for a cluster as its last one stays as it is, unless its cluster is
    terminated. -/
theorem Change.agree (h : Change a s r s') (hs : s.Chronicled) (hids : ValidIds s.contextId)
    {p c : String} {l : Ledger} (hl : s.documents.ledger? p c = some l)
    (hl' : s'.documents.ledger? p c = some l) (hcurrent : l.current = .ok .applied) :
    s.contexts.Agree s'.contexts l.lastId := by
  have hlast := hs.lastId_mem hl hcurrent
  have hword := hs.isWord hids.isWord hl hlast
  have hnext : l.lastId ≠ s.nextId := fun heq =>
    hs.nextId_notMem hids.fresh hl (heq ▸ hlast)
  have hnextWord : Handle.IsWord s.nextId := hids.isWord s.minted
  -- A ledger with the same id is the same ledger.
  have howner : ∀ {q k : String} {m : Ledger}, s.documents.ledger? q k = some m →
      l.lastId ∈ m.appliedIds → p = q ∧ c = k ∧ m = l := by
    intro q k m hm hmem
    obtain ⟨rfl, rfl⟩ := hs.owner p c l q k m _ hl hm hlast hmem
    exact ⟨rfl, rfl, Option.some.inj (hm.symm.trans hl)⟩
  -- Sweeping goes by the ids of a ledger that is not applied, and so of another one.
  have hswept : ∀ {q k : String} {m : Ledger}, s.documents.ledger? q k = some m →
      m.current ≠ .ok .applied → ∀ done, done ⊆ m.ids →
        s.contexts.Agree (s.contexts.sweep done) l.lastId := by
    intro q k m hm hidle done hdone
    have hall : ∀ id ∈ done, id ∈ m.appliedIds := fun id hid =>
      (hs.mem_ids_iff hids.ne_empty hm).1 (hdone hid)
    refine ContextStore.agree_sweep _ hword (fun id hid => hs.isWord hids.isWord hm (hall id hid)) ?_
    intro hmem
    obtain ⟨-, -, rfl⟩ := howner hm (hall _ hmem)
    exact hidle hcurrent
  cases h with
  | quiet => exact .refl _ _
  | edited _ hedit => exact .refl _ _
  | begun ha hp hvalid hfree htime => exact .refl _ _
  | undone hcontexts =>
    rcases hcontexts with rfl | ⟨resources, n, rfl⟩
    · exact .refl _ _
    · exact (ContextStore.agree_builtUpTo _ hword hnextWord hnext _ _ _).trans
        (ContextStore.agree_eraseScan _ hword hnextWord hnext)
  | left => exact ContextStore.agree_builtUpTo _ hword hnextWord hnext _ _ _
  | recorded _ ha hsurvey hwordy htime =>
    exact ContextStore.agree_built _ hword hnextWord hnext _ _
  | @terminated q k _ m contexts time ha hledger happlied hcontexts htime =>
    rcases hcontexts with rfl | rfl
    · exact .refl _ _
    · have hmem := hs.lastId_mem hledger happlied
      -- If it is this context that is deleted, then it is this ledger that has a new entry.
      refine ContextStore.agree_eraseScan _ hword (hs.isWord hids.isWord hledger hmem) fun heq => ?_
      obtain ⟨rfl, rfl, rfl⟩ := howner hledger (heq ▸ hmem)
      have hl' := hl'
      rw [DocumentStore.ledger?_withLedger ((hs.sound.timely hl).append _ _ htime),
        if_pos ⟨rfl, rfl⟩] at hl'
      exact Ledger.append_ne _ _ _ _ (Option.some.inj hl')
  | swept hledger hidle hdone => exact hswept hledger hidle _ hdone
  | removed ha hledger hidle hlive hgone => exact hswept hledger hidle _ hlive

/-- Nothing is stored under ids that were not taken yet. -/
theorem Change.vacant (h : Change a s r s') (hids : ValidIds s.contextId)
    (hvacant : ∀ n, s.minted ≤ n → s.contexts.Vacant (s.contextId n)) (n : Nat)
    (hn : s'.minted ≤ n) : s'.contexts.Vacant (s.contextId n) := by
  -- A context is begun under the next id only, which is taken by this.
  have hle : s.minted ≤ n := Nat.le_trans h.minted.2 hn
  have hold := hvacant n hle
  have hnext : s.minted + 1 ≤ n → s.contextId n ≠ s.nextId := by
    intro hlt heq
    have hsame : n = s.minted := hids.fresh heq
    omega
  have hbuilt : s.minted + 1 ≤ n → ∀ cluster resources m,
      (s.contexts.builtUpTo s.nextId cluster resources m).Vacant (s.contextId n) := by
    intro hlt cluster resources m
    exact (ContextStore.agree_builtUpTo _ (hids.isWord n) (hids.isWord s.minted) (hnext hlt)
      cluster resources m).vacant hold
  cases h with
  | quiet => exact hold
  | edited _ hedit => exact hold
  | begun ha hp hvalid hfree htime => exact hold
  | undone hcontexts =>
    rcases hcontexts with rfl | ⟨resources, m, rfl⟩
    · exact hold
    · exact (hbuilt hn _ resources m).eraseScan _
  | left => exact hbuilt hn _ _ _
  | recorded _ ha hsurvey hwordy htime =>
    rw [Stores.recording_contexts, ContextStore.built_eq]
    exact hbuilt hn _ _ _
  | terminated ha hledger hcurrent hcontexts htime =>
    rcases hcontexts with rfl | rfl
    · exact hold
    · exact hold.eraseScan _
  | swept hledger hcurrent hdone => exact hold.sweep _
  | removed ha hledger hcurrent hlive hgone => exact hold.sweep _

/-! ### The invariant -/

/-- The context consists of one resource for each intent that is declared for the cluster, and of
    the nodes that hold them together. -/
structure Stores.Shows (s : Stores) (p c id : String) (networks : List Network)
    (providerNetworks : List ProviderNetwork) : Prop where
  declared : s.documents.Declares p c networks
  providerDeclared : s.documents.Declares p c providerNetworks
  nodes : s.contexts.Holds id
    (contextNodes id (contextClusterName p c) (render networks ++ render providerNetworks))

/-- The last context of an applied cluster shows what is declared for it, and nothing is stored
    under ids that were not taken yet. -/
structure Stores.Installed (s : Stores) : Prop where
  chronicled : s.Chronicled
  tidy : s.documents.Tidy
  vacant : ∀ n, s.minted ≤ n → s.contexts.Vacant (s.contextId n)
  shown : ∀ p c l, s.documents.ledger? p c = some l → l.current = .ok .applied →
    ∃ networks providerNetworks, s.Shows p c l.lastId networks providerNetworks

/-- A context that was built from what was surveyed, where nothing was stored, shows what is
    declared. -/
theorem Stores.recording_shows (hfiled : s.documents.Filed) (htidy : s.documents.Tidy)
    (hvacant : s.contexts.Vacant s.nextId) (hnext : Handle.IsWord s.nextId) {p c : String}
    {l : Ledger} {resources : List Rendered} (time : Timestamp)
    (hsurvey : Surveyed s.documents p c l resources) (hwordy : Wordy p c resources) :
    ∃ networks providerNetworks,
      (s.recording p c l resources time).Shows p c s.nextId networks providerNetworks := by
  obtain ⟨networks, providerNetworks, hnetworks, hproviderNetworks, rfl⟩ := hsurvey.intents
  have hdeclared : s.documents.Declares p c networks :=
    DocumentStore.declares_of_find hfiled htidy .network hsurvey.provider_ne hsurvey.cluster_ne
      hnetworks
  have hproviderDeclared : s.documents.Declares p c providerNetworks :=
    DocumentStore.declares_of_find hfiled htidy .providerNetwork hsurvey.provider_ne
      hsurvey.cluster_ne hproviderNetworks
  refine ⟨networks, providerNetworks, ?_, ?_, ?_⟩
  · exact hdeclared.congr fun n => DocumentStore.value?_key_withLedger .network _
  · exact hproviderDeclared.congr fun n => DocumentStore.value?_key_withLedger .providerNetwork _
  · exact hvacant.holds_built hnext hwordy.1 hwordy.2
      (nodup_resourceNames hdeclared hproviderDeclared)

/-- The same, where nothing is stored under ids that were not taken yet. -/
theorem Stores.Installed.recording (hs : s.Installed) (hids : ValidIds s.contextId) {p c : String}
    {l : Ledger} {resources : List Rendered} (time : Timestamp)
    (hsurvey : Surveyed s.documents p c l resources) (hwordy : Wordy p c resources) :
    ∃ networks providerNetworks,
      (s.recording p c l resources time).Shows p c s.nextId networks providerNetworks :=
  Stores.recording_shows hs.chronicled.sound.filed hs.tidy (hs.vacant s.minted (Nat.le_refl _))
    (hids.isWord s.minted) time hsurvey hwordy

/-- While a cluster is applied, its intents stay as they are declared. -/
theorem Change.declares {α : Type} [Intent α] {intents : List α} (h : Change a s r s')
    (kind : IntentKind α) {p c : String} {l : Ledger} (hl : s.documents.ledger? p c = some l)
    (hcurrent : l.current = .ok .applied) (hdeclared : s.documents.Declares p c intents) :
    s'.documents.Declares p c intents := by
  have hclosed : ¬ s.documents.Open p c := by
    rintro ⟨m, hm, hidle⟩
    rw [Option.some.inj (hm.symm.trans hl)] at hidle
    exact hidle hcurrent
  exact hdeclared.congr fun n => h.value?_key kind hclosed n

/-- While a cluster stays applied, its context goes on showing what is declared. -/
theorem Stores.Shows.change {p c : String} {l : Ledger} {networks : List Network}
    {providerNetworks : List ProviderNetwork}
    (hshown : s.Shows p c l.lastId networks providerNetworks) (h : Change a s r s')
    (hs : s.Chronicled) (hids : ValidIds s.contextId) (hl : s.documents.ledger? p c = some l)
    (hl' : s'.documents.ledger? p c = some l) (hcurrent : l.current = .ok .applied) :
    s'.Shows p c l.lastId networks providerNetworks where
  declared := h.declares .network hl hcurrent hshown.declared
  providerDeclared := h.declares .providerNetwork hl hcurrent hshown.providerDeclared
  nodes := (h.agree hs hids hl hl' hcurrent).holds hshown.nodes

namespace Stores.Installed

/-- Where nothing is stored, all that is applied is installed. -/
theorem empty (ids : Nat → String) : Stores.Installed ⟨.empty, .empty, ids, 0⟩ where
  chronicled := .empty ids
  tidy := DocumentStore.tidy_empty
  vacant := fun _ _ _ _ => rfl
  shown := nofun

/-- An operation keeps what is applied as it is declared. -/
theorem change (hs : s.Installed) (hids : ValidIds s.contextId) (h : Change a s r s') :
    s'.Installed where
  chronicled := hs.chronicled.change hids.fresh h
  tidy := h.tidy hs.tidy
  vacant := by
    intro n hn
    rw [h.minted.1]
    exact h.vacant hids hs.vacant n hn
  shown := by
    intro p c l hl hcurrent
    have hledger := h.ledger hs.chronicled.sound p c
    rw [hl] at hledger
    -- The ledger was there before, or it got its last entry just now.
    generalize hold : s.documents.ledger? p c = old at hledger
    cases hledger with
    | kept =>
      obtain ⟨networks, providerNetworks, hshown⟩ := hs.shown p c l hold hcurrent
      exact ⟨networks, providerNetworks, hshown.change h hs.chronicled hids hold hl hcurrent⟩
    | begun ha hname => exact absurd hcurrent (Ledger.life_begun _).of_idle
    | @applied _ _ _ time ha hsurvey hwordy hstores =>
      obtain ⟨networks, providerNetworks, hshown⟩ := hs.recording hids time hsurvey hwordy
      rw [Ledger.lastId_append, hstores]
      exact ⟨networks, providerNetworks, hshown⟩
    | terminated ha happlied => simp at hcurrent

end Stores.Installed

/-! ### The instructions -/

section Instructions

variable (networks : List Network) (providerNetworks : List ProviderNetwork)

/-- The names of the resources of a cluster: networks first, and each in the order of the store. -/
def resourceNames : List String :=
  networks.map Intent.resourceName ++ providerNetworks.map Intent.resourceName

/-- The names of the rendered resources are those of the intents with their kinds. -/
theorem names_render :
    (render networks ++ render providerNetworks).map (·.name)
      = resourceNames networks providerNetworks := by
  simp [render, resourceNames, Function.comp_def]

/-- The order instruction names the resources one after the other. -/
theorem resourceOrder_render :
    resourceOrder (render networks ++ render providerNetworks)
      = (Json.object
          [("resorder", Json.ofStrings (resourceNames networks providerNetworks))]).text := by
  rw [resourceOrder, names_render]
  rfl

/-- The dependency instruction has one member for each resource. -/
theorem resourceDependency_render (h : (resourceNames networks providerNetworks).Nodup) :
    ∃ members : List (String × Json),
      resourceDependency (render networks ++ render providerNetworks)
        = (Json.object [("resdependency", .object members)]).text ∧
      members.Perm ((resourceNames networks providerNetworks).map fun name =>
        (name, independent)) := by
  refine ⟨_, rfl, ?_⟩
  have hmembers : (render networks ++ render providerNetworks).map (fun r => (r.name, independent))
      = (resourceNames networks providerNetworks).map fun name => (name, independent) := by
    rw [← names_render, List.map_map]
    rfl
  rw [hmembers]
  refine Json.perm_sortMembers ?_
  rwa [List.map_map, Function.comp_def, List.map_id']

end Instructions

namespace History

variable {ids : Nat → String} {synchronizer : Option Synchronizer}

/-- After any run all that is applied is installed, and the supply is the same. -/
theorem installed_after (hids : ValidIds ids) (steps : List Step) :
    (after ids synchronizer steps).stores.Installed ∧
      (after ids synchronizer steps).stores.contextId = ids := by
  refine stores_after (fun s hs => hs.chronicled.sound.filed) (Stores.Installed.empty ids) ?_ steps
  intro a s r s' hsupply hs hchange
  exact hs.change (hsupply ▸ hids) hchange

/-- **What is applied is what is declared.** Over every run, if the ledger of a cluster ends in an
    application, then the context with its last id shows the intents that are declared at present,
    and its instructions name each of their resources once. -/
theorem declared_of_applied (hids : ValidIds ids) (steps : List Step) (p c : String) (l : Ledger)
    (hl : (after ids synchronizer steps).stores.documents.ledger? p c = some l)
    (hcurrent : l.current = .ok .applied) :
    ∃ networks providerNetworks,
      (after ids synchronizer steps).stores.Shows p c l.lastId networks providerNetworks ∧
      (resourceNames networks providerNetworks).Nodup ∧
      resourceOrder (render networks ++ render providerNetworks)
        = (Json.object
            [("resorder", Json.ofStrings (resourceNames networks providerNetworks))]).text ∧
      ∃ members : List (String × Json),
        resourceDependency (render networks ++ render providerNetworks)
          = (Json.object [("resdependency", .object members)]).text ∧
        members.Perm ((resourceNames networks providerNetworks).map fun name =>
          (name, independent)) := by
  obtain ⟨h, -⟩ := @installed_after ids synchronizer hids steps
  obtain ⟨networks, providerNetworks, hshown⟩ := h.shown p c l hl hcurrent
  have hnames : (resourceNames networks providerNetworks).Nodup := by
    rw [← names_render]
    exact nodup_resourceNames hshown.declared hshown.providerDeclared
  exact ⟨networks, providerNetworks, hshown, hnames, resourceOrder_render _ _,
    resourceDependency_render _ _ hnames⟩

/-- A run in which two intents with one name are applied, one of each kind, and then may not be
    deleted. -/
def appliedBoth : List Step :=
  [⟨.createProvider ⟨{ name := "p" }⟩, {}⟩,
    ⟨.createCluster "p" ⟨{ name := "c" }⟩ {}, {}⟩,
    ⟨.createNetwork ⟨{ name := "n" }, "ovn4nfv", []⟩ "p" "c" false, {}⟩,
    ⟨.createProviderNetwork ⟨{ name := "n" }, "ovn4nfv", [], "VLAN", {}⟩ "p" "c" false, {}⟩,
    ⟨.apply "p" "c" .never, { answer := .reject }⟩,
    ⟨.deleteNetwork "n" "p" "c", {}⟩]

/-- With both kinds of intents applied, the context shows both. -/
theorem declared_of_applied_appliedBoth :
    ∃ l, (after unaryId (some {}) appliedBoth).stores.documents.ledger? "p" "c" = some l ∧
      ∃ networks providerNetworks, (after unaryId (some {}) appliedBoth).stores.Shows "p" "c"
        l.lastId networks providerNetworks := by
  have happlied : ((after unaryId (some {}) appliedBoth).stores.documents.ledger? "p" "c").map
      (fun l => decide (l.current = .ok .applied)) = some true := by decide +kernel
  obtain ⟨l, hl, hcurrent⟩ := Option.map_eq_some_iff.1 happlied
  obtain ⟨networks, providerNetworks, hshown, -⟩ :=
    declared_of_applied unaryId_valid appliedBoth "p" "c" l hl (of_decide_eq_true hcurrent)
  exact ⟨l, hl, networks, providerNetworks, hshown⟩

end History

end NetIntent
