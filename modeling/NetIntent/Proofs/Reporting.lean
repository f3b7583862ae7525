import NetIntent.Proofs.Accounted
import NetIntent.Proofs.Effects
import NetIntent.Proofs.Outcomes

namespace NetIntent

/-!
# Runs in which the synchronizer reports

While the stores answer, a registered cluster always has a ledger, a terminated context is gone, and
an applied one shows what is declared for its cluster, with the statuses that the synchronizer wrote
in the meantime.

* `Circumstances.Undisturbed` — the stores answer all calls of an operation;
* `Reached` — the histories of operations under such circumstances, with statuses written in
  between;
* `Action.Effect.describes`, `Deployment.terminate_undisturbed` — what operations do while the
  stores answer;
* `Stores.Reporting` — the invariant;
* `Reached.reporting` — it holds of all these histories.
-/

open Op Registry Deployment

/-! ### Providers have names -/

/-- Every provider that is stored has a proper name. -/
def DocumentStore.Named (d : DocumentStore) : Prop :=
  ∀ p v, d.value? Registry.store (providerKey p) metadataTag = some v → Metadata.IsName p

namespace DocumentStore.Named

variable {d d' : DocumentStore}

/-- No provider is stored in the empty store. -/
theorem empty : DocumentStore.empty.Named := nofun

/-- A ledger that is stored names no provider. -/
theorem withLedger (h : d.Named) (p c : String) (l : Ledger) : (d.withLedger p c l).Named := by
  intro q v hv
  refine h q v ?_
  simpa [DocumentStore.withLedger, (clusterKey_ne_providerKey _ _ _).symm] using hv

/-- An edit stores providers under checked names only. -/
theorem edit (h : d.Named) (hedit : Edit d d') : d'.Named := by
  intro q v hv
  cases hedit with
  | provider p hvalid =>
    rw [DocumentStore.value?_insert] at hv
    split at hv
    · -- the provider that is stored, whose name was checked
      rename_i hkey
      have hp := congrArg (OrderedMap.get? · "provider") hkey.2.1
      simp only [get?_providerKey, if_true, Option.some.injEq] at hp
      exact hp ▸ Metadata.isName_of_validate hvalid
    · exact h q v hv
  | providerRemoved p hp =>
    rw [DocumentStore.value?_remove] at hv
    split at hv
    · cases hv
    · exact h q v hv
  | described p c =>
    refine h q v ?_
    simpa [DocumentStore.described, (clusterKey_ne_providerKey _ _ _).symm] using hv
  | filled p c content =>
    refine h q v ?_
    simpa [DocumentStore.filled, DocumentStore.described, (clusterKey_ne_providerKey _ _ _).symm]
      using hv
  | declared kind i p c hopen hvalid =>
    have := kind.lawful
    refine h q v ?_
    simpa [(Intent.key_ne_providerKey _ _ _ _).symm] using hv
  | withdrawn kind n p c hopen =>
    have := kind.lawful
    refine h q v ?_
    simpa [(Intent.key_ne_providerKey _ _ _ _).symm] using hv

end DocumentStore.Named

/-- What one operation does to the stores leaves all providers with proper names. -/
theorem Change.named {a : Action} {s s' : Stores} {r : Except Failure Unit} (h : Change a s r s')
    (hs : s.documents.Named) : s'.documents.Named := by
  cases h with
  | quiet => exact hs
  | edited _ hedit => exact hs.edit hedit
  | @begun p c content time ha hp hvalid hfree htime =>
    exact (hs.edit (.filled p c content)).withLedger _ _ _
  | undone hcontexts => exact hs
  | left => exact hs
  | recorded _ ha hsurvey hwordy htime => exact hs.withLedger _ _ _
  | terminated ha hledger hcurrent hcontexts htime => exact hs.withLedger _ _ _
  | swept hledger hcurrent hdone => exact hs
  | removed ha hledger hcurrent hlive hgone =>
    intro q v hv
    refine hs q v ?_
    simpa [(clusterKey_ne_providerKey _ _ _).symm] using hv

/-! ### What operations do while the stores answer -/

section Undisturbed

variable {w : World}

/-- The metadata of clusters in the second store are those in the first one, except that a cluster
    with a proper name and a ledger may be new. -/
def DocumentStore.Describes (d d' : DocumentStore) : Prop :=
  ∀ p c cluster, d'.cluster? p c = some cluster → d.cluster? p c = some cluster ∨
    (∃ v, d.value? Registry.store (providerKey p) metadataTag = some v) ∧ Metadata.IsName c ∧
      ∃ l, d'.ledger? p c = some l

/-- While the stores answer, metadata of a cluster are stored together with a ledger only. -/
theorem Action.Effect.describes {a : Action} {d d' : DocumentStore} {r : Except Failure Unit}
    (h : a.Effect d r d') : d.Describes d' := by
  intro q k cluster hcluster
  cases h with
  | failed e => exact .inl hcluster
  | looked r ha => exact .inl hcluster
  | provider ha hvalid => exact .inl (by simpa [DocumentStore.cluster?] using hcluster)
  | providerRemoved ha => exact .inl (by simpa [DocumentStore.cluster?] using hcluster)
  | @begun p c content time ha hvalid hprovider hfree htime =>
    rw [DocumentStore.begun] at hcluster ⊢
    rw [DocumentStore.cluster?_withLedger, DocumentStore.cluster?_filled,
      DocumentStore.cluster?_described] at hcluster
    split at hcluster
    · -- the new cluster, whose ledger is begun
      rename_i hkey
      obtain ⟨rfl, rfl⟩ := hkey
      refine .inr ⟨hprovider, Metadata.isName_of_validate hvalid,
        Ledger.append {} .created "" time, ?_⟩
      rw [DocumentStore.ledger?_withLedger (Ledger.timely_begun htime), if_pos ⟨rfl, rfl⟩]
    · exact .inl hcluster
  | removed ha =>
    rw [DocumentStore.cluster?, DocumentStore.value?_remove] at hcluster
    split at hcluster
    · cases hcluster
    · exact .inl hcluster
  | declared kind i ha hopen =>
    have := kind.lawful
    exact .inl (by simpa [DocumentStore.cluster?] using hcluster)
  | withdrawn kind n ha =>
    have := kind.lawful
    exact .inl (by simpa [DocumentStore.cluster?] using hcluster)
  | recorded r l ha =>
    rw [DocumentStore.cluster?_withLedger] at hcluster
    exact .inl hcluster

/-- While the stores answer, terminating takes the context away, or changes nothing. -/
theorem Deployment.terminate_undisturbed (p c : String) (cancellation : Cancellation)
    (hw : w.Undisturbed) (hfiled : w.documents.Filed) :
    (terminate p c cancellation).Ensures w fun _ w' =>
      w'.stores = w.stores ∨
        ∃ l, w.documents.ledger? p c = some l ∧ w'.contexts.Vacant l.lastId := by
  rw [terminate_eq]
  -- Up to the request nothing is written.
  have hlooks : (retrieve p c).Looks Eq := by
    refine retrieve_looks (fun _ _ => foundAlike_eq _ _) ?_ ?_
    · rintro w _ rfl
      rfl
    · rintro w _ l rfl - -
      exact .refl _ _
  refine (hlooks.steady.ensures (retrieve_reads p c) hw).bind ?_ ?_
  · intro found w₁ hout
    obtain ⟨rfl, hfound⟩ := hout
    obtain ⟨l, context⟩ := found
    obtain ⟨hl, -, hcontext, hroot, hp, hc⟩ := hfound _ rfl
    obtain rfl : context = AppContext.ofId l.lastId := hcontext
    have hask : (ask .uninstall l.lastId cancellation).Ensures w₁ fun _ w' =>
        w'.stores = w₁.stores ∧ w'.Undisturbed :=
      ⟨(ask_ensures .uninstall l.lastId cancellation).1,
        ask_undisturbed .uninstall l.lastId cancellation hw⟩
    refine hask.bind ?_ ?_
    · intro u w₂ hout
      obtain ⟨hstores, hw₂⟩ := hout
      have hdocuments : w₂.documents = w₁.documents := congrArg Stores.documents hstores
      have hcontexts : w₂.contexts = w₁.contexts := congrArg Stores.contexts hstores
      -- Once the termination is recorded, the context is deleted.
      have hconclude := run_conclude hw₂ (hdocuments ▸ hfiled) hp hc (hdocuments ▸ hl hfiled)
        (hcontexts ▸ hroot)
      rw [Ensures, hconclude]
      exact .inr ⟨l, hl hfiled, ContextStore.vacant_eraseScan _ _⟩
    · intro e w₂ hout
      exact .inl hout.1
  · intro e w₁ hout
    obtain ⟨rfl, -⟩ := hout
    exact .inl rfl

end Undisturbed

/-! ### Histories with reports -/

/-- The stores answer all calls of an operation. -/
structure Circumstances.Undisturbed (c : Circumstances) : Prop where
  outages : c.outages = []
  contexts_open : c.contextsClosed = false
  documents_open : c.documentsClosed = false

/-- Circumstances without outages leave both stores to answer every call. -/
theorem World.undisturbed_under (w : World) {c : Circumstances} (hc : c.Undisturbed) :
    (w.under c).Undisturbed :=
  ⟨congrArg (List.map Outage.fault) hc.outages, hc.contexts_open, hc.documents_open⟩

/-- The history after the synchronizer has written a status below a resource. -/
def History.report (h : History) (resource : Handle) (v : Json) : History :=
  ⟨h.world.withContexts (h.world.contexts.withStatus resource v), h.answers⟩

/-- A status changes no documents. -/
theorem History.report_documents (h : History) (resource : Handle) (v : Json) :
    (h.report resource v).stores.documents = h.stores.documents := rfl

/-- The histories of operations whose calls of the stores are answered. Between two of them the
    synchronizer may write the status of any resource that is stored; the statuses that it wrote
    last are kept beside the history. -/
inductive Reached (ids : Nat → String) (synchronizer : Option Synchronizer) :
    History → Written → Prop
  /-- Nothing has happened yet. -/
  | start : Reached ids synchronizer (.start ids synchronizer) fun _ => none
  /-- One more operation. -/
  | step {h : History} {written : Written} (hreached : Reached ids synchronizer h written) (s : Step)
      (hcalm : s.circumstances.Undisturbed) : Reached ids synchronizer (h.step s) written
  /-- One more status. -/
  | report {h : History} {written : Written} (hreached : Reached ids synchronizer h written)
      {resource : Handle} {v : Json} (hresource : h.stores.contexts.HasResource resource)
      (hvalid : (InstallStatus.ofDocument? v).isSome = true) :
      Reached ids synchronizer (h.report resource v) (Function.update written resource (some v))

/-- Operations with answering stores lead from a reached history to reached ones. -/
theorem Reached.steps {ids : Nat → String} {synchronizer : Option Synchronizer} {h : History}
    {written : Written} (hreached : Reached ids synchronizer h written) (steps : List Step)
    (hcalm : ∀ s ∈ steps, s.circumstances.Undisturbed) :
    Reached ids synchronizer (steps.foldl History.step h) written := by
  induction steps generalizing h with
  | nil => exact hreached
  | cons s steps ih =>
    obtain ⟨hs, hrest⟩ := List.forall_mem_cons.1 hcalm
    exact ih (hreached.step s hs) hrest

/-! ### The invariant -/

section Reporting

variable {a : Action} {s s' : Stores} {r : Except Failure Unit} {written : Written}

/-- The context shows what is declared for a cluster, and the statuses that were written. -/
structure Stores.Reports (s : Stores) (written : Written) (p c id : String)
    (networks : List Network) (providerNetworks : List ProviderNetwork) : Prop where
  declared : s.documents.Declares p c networks
  providerDeclared : s.documents.Declares p c providerNetworks
  nodes : s.contexts.Holds id (reportedNodes written id (contextClusterName p c)
    (render networks ++ render providerNetworks))

/-- A registered cluster has a ledger. The context that is running on a cluster shows what is declared
    and what was written, and all others of its ledger are gone. -/
structure Stores.Reporting (s : Stores) (written : Written) : Prop where
  chronicled : s.Chronicled
  tidy : s.documents.Tidy
  named : s.documents.Named
  vacant : ∀ n, s.minted ≤ n → s.contexts.Vacant (s.contextId n)
  registered : ∀ p c cluster, s.documents.cluster? p c = some cluster →
    Metadata.IsName p ∧ Metadata.IsName c ∧ ∃ l, s.documents.ledger? p c = some l
  valid : ∀ resource v, written resource = some v → (InstallStatus.ofDocument? v).isSome = true
  fresh : ∀ resource v, written resource = some v →
    ∀ n, s.minted ≤ n → resource.contextId ≠ s.contextId n
  gone : ∀ p c l, s.documents.ledger? p c = some l → ∀ id ∈ l.appliedIds,
    ¬ (l.current = .ok .applied ∧ id = l.lastId) → s.contexts.Vacant id
  shown : ∀ p c l, s.documents.ledger? p c = some l → l.current = .ok .applied →
    ∃ networks providerNetworks, s.Reports written p c l.lastId networks providerNetworks

/-- A context without statuses shows what is declared. -/
theorem Stores.Shows.reports {p c id : String} {networks : List Network}
    {providerNetworks : List ProviderNetwork} (h : s.Shows p c id networks providerNetworks)
    (hsilent : ∀ x : Handle, x.contextId = id → written x = none) :
    s.Reports written p c id networks providerNetworks where
  declared := h.declared
  providerDeclared := h.providerDeclared
  nodes := by
    have hnodes := h.nodes
    have hsame : reportedNodes written id (contextClusterName p c)
        (render networks ++ render providerNetworks)
          = reportedNodes (fun _ => none) id (contextClusterName p c)
            (render networks ++ render providerNetworks) := reportedNodes_congr hsilent
    rw [hsame]
    simpa [reportedNodes, statusNodes] using hnodes

/-- While a cluster stays applied, its context goes on showing what is declared and written. -/
theorem Stores.Reports.change {p c : String} {l : Ledger} {networks : List Network}
    {providerNetworks : List ProviderNetwork}
    (hshown : s.Reports written p c l.lastId networks providerNetworks) (h : Change a s r s')
    (hs : s.Chronicled) (hids : ValidIds s.contextId) (hl : s.documents.ledger? p c = some l)
    (hl' : s'.documents.ledger? p c = some l) (hcurrent : l.current = .ok .applied) :
    s'.Reports written p c l.lastId networks providerNetworks where
  declared := h.declares .network hl hcurrent hshown.declared
  providerDeclared := h.declares .providerNetwork hl hcurrent hshown.providerDeclared
  nodes := (h.agree hs hids hl hl' hcurrent).holds hshown.nodes

/-! ### What is declared has proper names -/

/-- The kind of an intent is a proper name, so that it can be joined to one. -/
theorem IntentKind.isName {α : Type} [Intent α] (kind : IntentKind α) :
    Metadata.IsName (Intent.kind α) := by
  cases kind <;> decide

/-- The intent is stored for the cluster. -/
def DocumentStore.HasIntent {α : Type} [Intent α] (d : DocumentStore) (p c : String) (i : α) : Prop :=
  d.value? Registry.store (Intent.key α p c (Intent.name i)) (Intent.tag α)
    = some (Intent.toJson i)

/-- What a cluster declares is listed in full. -/
theorem DocumentStore.Declares.hasIntent_iff {α : Type} [Intent α] [LawfulIntent α]
    {d : DocumentStore} {p c : String} {intents : List α} (h : d.Declares p c intents) {i : α} :
    d.HasIntent p c i ↔ i ∈ intents := by
  rw [HasIntent, h.1]
  constructor
  · intro hrow
    obtain ⟨j, hj, -, hjson⟩ := hrow
    have hread := LawfulIntent.ofJson?_toJson i
    rw [hjson, LawfulIntent.ofJson?_toJson] at hread
    exact Option.some.inj hread ▸ hj
  · intro hi
    exact ⟨i, hi, rfl, rfl⟩

/-- What is declared for a cluster is one list only. -/
theorem DocumentStore.Declares.unique {α : Type} [Intent α] [LawfulIntent α] {d : DocumentStore}
    {p c : String} {intents intents' : List α} (h : d.Declares p c intents)
    (h' : d.Declares p c intents') : intents = intents' := by
  have hperm : intents.Perm intents' := by
    refine (List.perm_ext_iff_of_nodup h.nodup_names.of_map h'.nodup_names.of_map).2 fun i => ?_
    rw [← h.hasIntent_iff, h'.hasIntent_iff]
  -- Both lists stand in the order of the store.
  exact hperm.eq_of_pairwise (fun i j _ _ hlt hgt =>
    absurd (String.lt_trans hlt hgt) (String.lt_irrefl _)) h.2 h'.2

/-- What is declared in a tidy store has proper names. -/
theorem DocumentStore.Declares.isName {α : Type} [Intent α] {d : DocumentStore} {p c : String}
    {intents : List α} (h : d.Declares p c intents) (htidy : d.Tidy) (kind : IntentKind α) {i : α}
    (hi : i ∈ intents) : Metadata.IsName (Intent.name i) := by
  have := kind.lawful
  obtain ⟨j, -, hname, hvalid⟩ := htidy _ kind p c _ _ (h.hasIntent_iff.2 hi)
  rw [← hname]
  exact Metadata.isName_of_validate (LawfulIntent.validate_metadata j hvalid)

/-- The names of the resources of declared intents can be words of a key. -/
theorem DocumentStore.Declares.sound_resource {α : Type} [Intent α] {d : DocumentStore}
    {p c : String} {intents : List α} (h : d.Declares p c intents) (htidy : d.Tidy)
    (kind : IntentKind α) {r : Rendered} (hr : r ∈ render intents) :
    (Segment.level "resource" r.name).Sound := by
  obtain ⟨i, hi, rfl⟩ := List.mem_map.1 hr
  exact Segment.sound_joined (by decide) (h.isName htidy kind hi).2.2 kind.isName.2.2

namespace Stores.Reporting

/-- The names in the last context of an applied cluster can be words of keys. -/
theorem sayable (hs : s.Reporting written) (hids : ValidIds s.contextId) {p c : String}
    {l : Ledger} (hl : s.documents.ledger? p c = some l) (hcurrent : l.current = .ok .applied)
    {networks : List Network} {providerNetworks : List ProviderNetwork}
    (hshown : s.Reports written p c l.lastId networks providerNetworks) :
    Sayable l.lastId (contextClusterName p c) (render networks ++ render providerNetworks) where
  id_valid := by
    obtain ⟨n, -, heq⟩ := hs.chronicled.minted p c l hl _ (hs.chronicled.lastId_mem hl hcurrent)
    rw [heq]
    exact hids.valid n
  cluster_sound := by
    obtain ⟨cluster, hcluster⟩ := hs.chronicled.sound.cluster? hl
    obtain ⟨hp, hc, -⟩ := hs.registered p c cluster hcluster
    exact Segment.sound_joined (by decide) hp.2.2 hc.2.2
  resource_sound := by
    intro r hr
    rcases List.mem_append.1 hr with hr | hr
    · exact hshown.declared.sound_resource hs.tidy .network hr
    · exact hshown.providerDeclared.sound_resource hs.tidy .providerNetwork hr

/-- Every intent of an applied cluster has a resource. -/
theorem hasResource (hs : s.Reporting written) (hids : ValidIds s.contextId) {p c : String}
    {l : Ledger} (hl : s.documents.ledger? p c = some l) (hcurrent : l.current = .ok .applied)
    {α : Type} [Intent α] (kind : IntentKind α) {i : α} (hi : s.documents.HasIntent p c i) :
    s.contexts.HasResource
      (resourceHandle l.lastId (contextClusterName p c) (Intent.resourceName i)) := by
  obtain ⟨networks, providerNetworks, hshown⟩ := hs.shown p c l hl hcurrent
  have hnames := hs.sayable hids hl hcurrent hshown
  -- The intent is rendered with the others of its kind, and so it has a node in the context.
  have hrendered : (⟨Intent.resourceName i, Intent.resourceText i⟩ : Rendered)
      ∈ render networks ++ render providerNetworks := by
    rw [List.mem_append, render, render, List.mem_map, List.mem_map]
    cases kind with
    | network => exact .inl ⟨i, hshown.declared.hasIntent_iff.1 hi, rfl⟩
    | providerNetwork => exact .inr ⟨i, hshown.providerDeclared.hasIntent_iff.1 hi, rfl⟩
  have hnode : (resourceHandle l.lastId (contextClusterName p c) (Intent.resourceName i),
      .string (Intent.resourceText i)) ∈ reportedNodes written l.lastId (contextClusterName p c)
        (render networks ++ render providerNetworks) :=
    mem_reportedNodes.2 (.inl (mem_contextNodes.2 (.inr (.inl ⟨_, hrendered, rfl⟩))))
  constructor
  · exact (hshown.nodes.hasNode_iff (fun n hn => hnames.canonical hn) rfl).2 ⟨_, hnode, rfl⟩
  · simp [resourceHandle, Handle.nameAt?, Handle.last?, Handle.child, Handle.push]

/-- Empty stores can be reported on, since they hold no ledger. -/
theorem empty (ids : Nat → String) :
    Stores.Reporting ⟨.empty, .empty, ids, 0⟩ fun _ => none where
  chronicled := .empty ids
  tidy := DocumentStore.tidy_empty
  named := .empty
  vacant := fun _ _ _ _ => rfl
  registered := nofun
  valid := nofun
  fresh := nofun
  gone := nofun
  shown := nofun

end Stores.Reporting

/-- A cluster that still has metadata has its ledger still. -/
theorem Change.exists_ledger (h : Change a s r s') (hs : s.documents.Sound) {p c : String}
    {cluster : Cluster} (hcluster : s'.documents.cluster? p c = some cluster)
    (hl : ∃ l, s.documents.ledger? p c = some l) : ∃ l, s'.documents.ledger? p c = some l := by
  have hwith : ∀ {q k : String} {m : Ledger}, m.Timely →
      ∃ l, (s.documents.withLedger q k m).ledger? p c = some l := by
    intro q k m hm
    rw [DocumentStore.ledger?_withLedger hm]
    split
    · exact ⟨m, rfl⟩
    · exact hl
  cases h with
  | quiet => exact hl
  | edited _ hedit =>
    rw [hedit.ledger?]
    exact hl
  | @begun q k content time ha hp hvalid hfree htime =>
    have hedit : Edit s.documents (s.documents.filled q k content) := .filled _ _ _
    rw [DocumentStore.begun, DocumentStore.ledger?_withLedger (Ledger.timely_begun htime),
      hedit.ledger?]
    split
    · exact ⟨_, rfl⟩
    · exact hl
  | undone hcontexts => exact hl
  | left => exact hl
  | recorded _ ha hsurvey hwordy htime =>
    exact hwith ((hs.timely (hsurvey.ledger hs.filed)).append _ _ htime)
  | terminated ha hledger hcurrent hcontexts htime =>
    exact hwith ((hs.timely hledger).append _ _ htime)
  | swept hledger hcurrent hdone => exact hl
  | removed ha hledger hcurrent hlive hgone =>
    rw [DocumentStore.ledger?_remove]
    split
    · -- the cluster that was removed has no metadata any more
      rename_i hkey
      rw [DocumentStore.cluster?, DocumentStore.value?_remove, hkey.1, hkey.2] at hcluster
      simp at hcluster
    · exact hl

namespace Stores.Reporting

/-- An operation whose calls of the stores are answered keeps what can be reported. -/
theorem change (hs : s.Reporting written) (hids : ValidIds s.contextId) (h : Change a s r s')
    (hdescribes : s.documents.Describes s'.documents)
    (hterminate : ∀ p c cancellation, a = .terminate p c cancellation →
      s' = s ∨ ∃ l, s.documents.ledger? p c = some l ∧ s'.contexts.Vacant l.lastId) :
    s'.Reporting written where
  chronicled := hs.chronicled.change hids.fresh h
  tidy := h.tidy hs.tidy
  named := h.named hs.named
  vacant := by
    intro n hn
    rw [h.minted.1]
    exact h.vacant hids hs.vacant n hn
  registered := by
    intro p c cluster hcluster
    rcases hdescribes p c cluster hcluster with hold | ⟨⟨v, hv⟩, hc, hl⟩
    · obtain ⟨hp, hc, hl⟩ := hs.registered p c cluster hold
      exact ⟨hp, hc, h.exists_ledger hs.chronicled.sound hcluster hl⟩
    · exact ⟨hs.named p v hv, hc, hl⟩
  valid := hs.valid
  fresh := by
    intro resource v hv n hn
    rw [h.minted.1]
    exact hs.fresh resource v hv n (Nat.le_trans h.minted.2 hn)
  gone := by
    intro p c l hl id hid hidle
    -- What was recorded and gone stays so.
    have hkeep : ∀ {q k : String} {m : Ledger}, s.documents.ledger? q k = some m →
        id ∈ m.appliedIds → s.contexts.Vacant id → s'.contexts.Vacant id := by
      intro q k m hm hmem hvacant
      have hnext : id ≠ s.nextId := fun heq => hs.chronicled.nextId_notMem hids.fresh hm (heq ▸ hmem)
      rcases h.agree_or_vacant hs.chronicled hids (hs.chronicled.isWord hids.isWord hm hmem)
        hnext with hagree | hgone
      · exact hagree.vacant hvacant
      · exact hgone
    have hledger := h.ledger hs.chronicled.sound p c
    rw [hl] at hledger
    generalize hold : s.documents.ledger? p c = old at hledger
    cases hledger with
    | kept => exact hkeep hold hid (hs.gone p c l hold id hid hidle)
    | begun ha hname => simp [Ledger.appliedIds, Ledger.actions, Ledger.append] at hid
    | @applied m _ _ time ha hsurvey hwordy hstores =>
      rw [Ledger.appliedIds_append_applied, List.mem_append, List.mem_singleton] at hid
      rcases hid with hid | rfl
      · exact hkeep hold hid (hs.gone p c m hold id hid fun hrun => hsurvey.notApplied hrun.1)
      · exact absurd ⟨Ledger.current_append .., (Ledger.lastId_append ..).symm⟩ hidle
    | @terminated m _ time ha happlied =>
      rw [Ledger.appliedIds_append_terminated] at hid
      by_cases hlast : id = m.lastId
      · -- It was terminated just now, and with answering stores the context was deleted.
        rcases hterminate p c _ ha with rfl | ⟨l', hl', hvacant⟩
        · exact absurd (Option.some.inj (hl.symm.trans hold)) (Ledger.append_ne _ _ _ _)
        · obtain rfl : m = l' := Option.some.inj (hold.symm.trans hl')
          exact hlast ▸ hvacant
      · exact hkeep hold hid (hs.gone p c m hold id hid fun hrun => hlast hrun.2)
  shown := by
    intro p c l hl hcurrent
    have hledger := h.ledger hs.chronicled.sound p c
    rw [hl] at hledger
    generalize hold : s.documents.ledger? p c = old at hledger
    cases hledger with
    | kept =>
      obtain ⟨networks, providerNetworks, hshown⟩ := hs.shown p c l hold hcurrent
      exact ⟨networks, providerNetworks,
        hshown.change h hs.chronicled hids hold hl hcurrent⟩
    | begun ha hname => exact absurd hcurrent (Ledger.life_begun _).of_idle
    | @applied _ _ _ time ha hsurvey hwordy hstores =>
      obtain ⟨networks, providerNetworks, hshown⟩ := Stores.recording_shows
        hs.chronicled.sound.filed hs.tidy (hs.vacant s.minted (Nat.le_refl _))
        (hids.isWord s.minted) time hsurvey hwordy
      rw [Ledger.lastId_append, hstores]
      refine ⟨networks, providerNetworks, hshown.reports fun x hx => ?_⟩
      -- nothing was written yet under the id that was taken
      by_contra hsome
      obtain ⟨v, hv⟩ := Option.ne_none_iff_exists'.1 hsome
      exact hs.fresh x v hv s.minted (Nat.le_refl _) hx
    | terminated ha happlied => simp at hcurrent

/-- A status that is written below a resource is reported from then on. -/
theorem report (hs : s.Reporting written) (hids : ValidIds s.contextId) {resource : Handle} {v : Json}
    (hresource : s.contexts.HasResource resource)
    (hvalid : (InstallStatus.ofDocument? v).isSome = true) :
    Stores.Reporting { s with contexts := s.contexts.withStatus resource v }
      (Function.update written resource (some v)) where
  chronicled := ⟨hs.chronicled.sound, hs.chronicled.life, hs.chronicled.minted,
    hs.chronicled.nodup, hs.chronicled.owner⟩
  tidy := hs.tidy
  named := hs.named
  vacant := by
    intro n hn
    have hvacant := hs.vacant n hn
    exact (ContextStore.agree_withStatus _ (hids.isWord n) hresource.isWord
      (hresource.contextId_ne hvacant) v).vacant hvacant
  registered := hs.registered
  valid := by
    intro other u hu
    rw [Function.update_apply] at hu
    split at hu
    · exact Option.some.inj hu ▸ hvalid
    · exact hs.valid other u hu
  fresh := by
    intro other u hu n hn
    rw [Function.update_apply] at hu
    split at hu
    · rename_i heq
      exact heq ▸ hresource.contextId_ne (hs.vacant n hn)
    · exact hs.fresh other u hu n hn
  gone := by
    intro p c l hl id hid hidle
    have hvacant := hs.gone p c l hl id hid hidle
    exact (ContextStore.agree_withStatus _ (hs.chronicled.isWord hids.isWord hl hid)
      hresource.isWord (hresource.contextId_ne hvacant) v).vacant hvacant
  shown := by
    intro p c l hl hcurrent
    obtain ⟨networks, providerNetworks, hshown⟩ := hs.shown p c l hl hcurrent
    refine ⟨networks, providerNetworks, hshown.declared, hshown.providerDeclared, ?_⟩
    by_cases hid : resource.contextId = l.lastId
    · exact hshown.nodes.withStatus (hs.sayable hids hl hcurrent hshown) hresource hid v
    · -- The status belongs to another context.
      have hword := hs.chronicled.isWord hids.isWord hl (hs.chronicled.lastId_mem hl hcurrent)
      have hsame : reportedNodes (Function.update written resource (some v)) l.lastId
          (contextClusterName p c) (render networks ++ render providerNetworks)
            = reportedNodes written l.lastId (contextClusterName p c)
              (render networks ++ render providerNetworks) :=
        reportedNodes_congr fun x hx =>
          Function.update_of_ne (fun heq : x = resource => hid (heq ▸ hx)) _ _
      rw [hsame]
      exact (ContextStore.agree_withStatus _ hword hresource.isWord hid v).holds hshown.nodes

end Stores.Reporting

end Reporting

/-- After all these histories it can be reported what is declared and what was written. -/
theorem Reached.reporting {ids : Nat → String} {synchronizer : Option Synchronizer} {h : History}
    {written : Written} (hids : ValidIds ids) (hreached : Reached ids synchronizer h written) :
    h.stores.Reporting written ∧ h.stores.contextId = ids := by
  induction hreached with
  | start => exact ⟨.empty ids, rfl⟩
  | @step h written _ s hcalm ih =>
    obtain ⟨hs, hsupply⟩ := ih
    have hw := h.world.undisturbed_under hcalm
    have hfiled := hs.chronicled.sound.filed
    obtain ⟨r, -, hchange⟩ := h.change s hfiled
    have heffect := s.action.effect hw hfiled s.circumstances.now.2
    rw [Ensures] at heffect
    refine ⟨hs.change (hsupply ▸ hids) hchange heffect.describes ?_, hchange.minted.1.trans hsupply⟩
    · intro p c cancellation ha
      -- A termination leaves the stores as they were, or nothing of the context.
      have hout : (Deployment.terminate p c cancellation).void.Ensures
          (h.world.under s.circumstances) fun _ w' => w'.stores = h.stores ∨
            ∃ l, h.stores.documents.ledger? p c = some l ∧ w'.contexts.Vacant l.lastId :=
        void_ensures (Deployment.terminate_undisturbed p c cancellation hw hfiled)
      rw [History.stores, History.step, ha]
      exact hout
  | report _ hresource hvalid ih =>
    obtain ⟨hs, hsupply⟩ := ih
    exact ⟨hs.report (hsupply ▸ hids) hresource hvalid, hsupply⟩

end NetIntent
