import Mathlib.Data.List.Induction
import NetIntent.Proofs.Progress

namespace NetIntent

/-!
# What belongs to what

A cluster is registered only under a provider that is there, and an intent only for a cluster that
is there. But the deletions look for nothing that would be left behind: a provider is deleted with
clusters under it, and a cluster with intents, which a later cluster of the same name takes over.

* `DocumentStore.Owned` — every cluster has its provider, and every intent its cluster;
* `Owned.insert`, `Owned.remove_iff` — when a change of the documents keeps it so;
* `Action.Orphans` — a deletion of something to which something else belongs;
* `Action.Effect.stays_owned_iff` — it is these deletions, and nothing else, that leave orphans;
* `History.owned_iff` — so it is over whole runs, and while nothing is an orphan, a new cluster has
  no intents.
-/

open Op Registry Deployment

/-! ### Owners -/

namespace DocumentStore

variable {d : DocumentStore} {key : DocumentKey} {tag : String} {v : Json} {p c : String}

/-- A provider of this name is stored. -/
def HasProvider (d : DocumentStore) (p : String) : Prop :=
  ∃ v, d.value? Registry.store (providerKey p) metadataTag = some v

/-- A cluster of this name is stored under the provider. -/
def HasCluster (d : DocumentStore) (p c : String) : Prop :=
  ∃ v, d.value? Registry.store (clusterKey p c) metadataTag = some v

/-- Some intent is stored for the cluster. -/
inductive HasIntents (d : DocumentStore) (p c : String) : Prop
  | intro {α : Type} [Intent α] (kind : IntentKind α) (n : String) {v : Json}
      (hv : d.value? Registry.store (Intent.key α p c n) (Intent.tag α) = some v) : HasIntents d p c

/-- Every cluster belongs to a provider, and every intent to a cluster. -/
structure Owned (d : DocumentStore) : Prop where
  clusters : ∀ p c, d.HasCluster p c → d.HasProvider p
  intents : ∀ p c, d.HasIntents p c → d.HasCluster p c

/-- Where nothing is stored, nothing lacks an owner. -/
theorem owned_empty : empty.Owned where
  clusters := nofun
  intents := nofun

/-- What is stored stays stored when something is inserted. -/
theorem exists_value?_insert {key' : DocumentKey} {tag' : String}
    (h : ∃ u, d.value? Registry.store key' tag' = some u) :
    ∃ u, (d.insert Registry.store key tag v).value? Registry.store key' tag' = some u := by
  rw [value?_insert]
  split
  · exact ⟨v, rfl⟩
  · exact h

/-- Nothing is an orphan after an insertion under an owner. -/
theorem Owned.insert (h : d.Owned)
    (hcluster : ∀ p c, key = clusterKey p c → tag = metadataTag → d.HasProvider p)
    (hintent : ∀ (α : Type) [Intent α], IntentKind α → ∀ p c n, key = Intent.key α p c n →
      d.HasCluster p c) : (d.insert Registry.store key tag v).Owned where
  clusters := by
    intro p c hnew
    obtain ⟨u, hu⟩ := hnew
    refine exists_value?_insert ?_
    -- The document is the new one, or it was there before.
    rw [value?_insert] at hu
    split at hu
    · rename_i hkey
      exact hcluster p c hkey.2.1.symm hkey.2.2.symm
    · exact h.clusters p c ⟨u, hu⟩
  intents := by
    intro p c hnew
    obtain ⟨kind, n, hu⟩ := hnew
    refine exists_value?_insert ?_
    rw [value?_insert] at hu
    split at hu
    · rename_i hkey
      exact hintent _ kind p c n hkey.2.1.symm
    · exact h.intents p c (.intro kind n hu)

/-- Nothing is an orphan after a removal just if nothing belonged to what was removed. -/
theorem Owned.remove_iff (h : d.Owned) :
    (d.remove Registry.store key).Owned ↔
      (∀ p c, key = providerKey p → ¬ d.HasCluster p c) ∧
        ∀ p c, key = clusterKey p c → ¬ d.HasIntents p c := by
  have hold : ∀ {key' : DocumentKey} {tag' : String} {u : Json},
      (d.remove Registry.store key).value? Registry.store key' tag' = some u ↔
        key' ≠ key ∧ d.value? Registry.store key' tag' = some u := by
    intro key' tag' u
    rw [value?_remove]
    by_cases hkey : key' = key <;> simp [hkey]
  constructor
  · intro howned
    refine ⟨?_, ?_⟩
    · -- a cluster of the provider would be left
      rintro p c rfl ⟨u, hu⟩
      obtain ⟨w, hw⟩ := howned.clusters p c ⟨u, hold.2 ⟨clusterKey_ne_providerKey _ _ _, hu⟩⟩
      exact (hold.1 hw).1 rfl
    · -- an intent of the cluster would be left
      rintro p c rfl ⟨kind, n, hu⟩
      have := kind.lawful
      obtain ⟨w, hw⟩ := howned.intents p c
        (.intro kind n (hold.2 ⟨Intent.key_ne_clusterKey _ _ _ _ _, hu⟩))
      exact (hold.1 hw).1 rfl
  · rintro ⟨hclusters, hintents⟩
    refine ⟨?_, ?_⟩
    · rintro p c ⟨u, hu⟩
      have hcluster : d.HasCluster p c := ⟨u, (hold.1 hu).2⟩
      obtain ⟨w, hw⟩ := h.clusters p c hcluster
      exact ⟨w, hold.2 ⟨fun hkey => hclusters p c hkey.symm hcluster, hw⟩⟩
    · rintro p c ⟨kind, n, hu⟩
      have hintent : d.HasIntents p c := .intro kind n (hold.1 hu).2
      obtain ⟨w, hw⟩ := h.intents p c hintent
      exact ⟨w, hold.2 ⟨fun hkey => hintents p c hkey.symm hintent, hw⟩⟩

/-- Another ledger of a cluster has nothing to do with what belongs to what. -/
theorem Owned.withLedger (h : d.Owned) (p c : String) (l : Ledger) : (d.withLedger p c l).Owned := by
  refine h.insert ?_ ?_
  · intro q k hkey htag
    exact absurd htag ledgerTag_ne_metadataTag
  · intro α _ kind q k n hkey
    have := kind.lawful
    exact absurd hkey (Intent.clusterKey_ne_key _ _ _ _ _)

/-- A cluster that is registered under a provider belongs to it. -/
theorem Owned.begun (h : d.Owned) {cluster : Cluster} (hprovider : d.HasProvider p)
    (content : ClusterContent) (time : Timestamp) : (d.begun p cluster content time).Owned := by
  have hnone : ∀ (α : Type) [Intent α], IntentKind α → ∀ (d : DocumentStore) q k n,
      clusterKey p cluster.metadata.name = Intent.key α q k n → d.HasCluster q k := by
    intro α _ kind d q k n hkey
    have := kind.lawful
    exact absurd hkey (Intent.clusterKey_ne_key _ _ _ _ _)
  have hdescribed : (d.described p cluster).Owned := by
    refine h.insert ?_ fun α _ kind q k n => hnone α kind d q k n
    intro q k hkey htag
    exact (clusterKey_inj.1 hkey).1 ▸ hprovider
  have hfilled : (d.filled p cluster content).Owned := by
    refine hdescribed.insert ?_ fun α _ kind q k n => hnone α kind _ q k n
    intro q k hkey htag
    exact absurd htag contentTag_ne_metadataTag
  exact hfilled.withLedger _ _ _

end DocumentStore

/-! ### Deletions that leave orphans -/

/-- The operation deletes a provider that has clusters, or a cluster that has intents. -/
def Action.Orphans (a : Action) (d : DocumentStore) : Prop :=
  match a with
  | .deleteProvider p => ∃ c, d.HasCluster p c
  | .deleteCluster p c => d.HasIntents p c
  | _ => False

/-- An operation leaves orphans just if it is such a deletion, and succeeds. -/
theorem Action.Effect.stays_owned_iff {a : Action} {d d' : DocumentStore} {r : Except Failure Unit}
    (h : a.Effect d r d') (hsound : d.Sound) (howned : d.Owned) :
    d'.Owned ↔ ¬ (r = .ok () ∧ a.Orphans d) := by
  cases h with
  | failed e => exact iff_of_true howned (by simp)
  | looked r ha =>
    subst ha
    exact iff_of_true howned fun horphans => horphans.2
  | provider ha hvalid =>
    subst ha
    refine iff_of_true (howned.insert ?_ ?_) fun horphans => horphans.2
    · intro q k hkey
      exact absurd hkey.symm (clusterKey_ne_providerKey _ _ _)
    · intro α _ kind q k n hkey
      have := kind.lawful
      exact absurd hkey.symm (Intent.key_ne_providerKey _ _ _ _)
  | @providerRemoved p ha =>
    subst ha
    rw [howned.remove_iff]
    constructor
    · rintro ⟨hclusters, -⟩ ⟨-, c, hcluster⟩
      exact hclusters p c rfl hcluster
    · intro hno
      refine ⟨?_, fun q k hkey => absurd hkey.symm (clusterKey_ne_providerKey _ _ _)⟩
      intro q c hkey hcluster
      have hq := congrArg (OrderedMap.get? · "provider") hkey
      simp only [get?_providerKey, if_true, Option.some.injEq] at hq
      exact hno ⟨rfl, c, hq ▸ hcluster⟩
  | begun ha hvalid hprovider hfree htime =>
    subst ha
    exact iff_of_true (howned.begun hprovider _ _) fun horphans => horphans.2
  | @removed p c ha =>
    subst ha
    rw [howned.remove_iff]
    constructor
    · rintro ⟨-, hintents⟩ ⟨-, hintent⟩
      exact hintents p c rfl hintent
    · intro hno
      refine ⟨fun q k hkey => absurd hkey (clusterKey_ne_providerKey _ _ _), ?_⟩
      intro q k hkey hintent
      obtain ⟨rfl, rfl⟩ := clusterKey_inj.1 hkey
      exact hno ⟨rfl, hintent⟩
  | @declared α _ kind i p c ha hopen =>
    have := kind.lawful
    refine iff_of_true (howned.insert ?_ ?_) ?_
    · intro q k hkey
      exact absurd hkey.symm (Intent.clusterKey_ne_key _ _ _ _ _)
    · -- the cluster is there, since it has a ledger
      intro β _ kind' q k n hkey
      have := kind'.lawful
      obtain ⟨l, hl, -⟩ := hopen
      obtain ⟨cluster, hcluster⟩ := hsound.cluster? hl
      obtain ⟨v, hv, -⟩ := Option.bind_eq_some_iff.1 hcluster
      obtain ⟨rfl, rfl⟩ : p = q ∧ c = k := by
        by_contra hother
        exact Intent.key_ne_key hother hkey
      exact ⟨v, hv⟩
    · rintro ⟨-, horphans⟩
      rcases ha with ⟨n, mayExist, rfl⟩ | ⟨n, mayExist, rfl⟩ <;> exact horphans
  | withdrawn kind n ha =>
    have := kind.lawful
    refine iff_of_true (howned.remove_iff.2 ⟨?_, ?_⟩) ?_
    · intro q k hkey
      exact absurd hkey (Intent.key_ne_providerKey _ _ _ _)
    · intro q k hkey
      exact absurd hkey.symm (Intent.clusterKey_ne_key _ _ _ _ _)
    · rintro ⟨-, horphans⟩
      rcases ha with rfl | rfl <;> exact horphans
  | recorded r l ha =>
    refine iff_of_true (howned.withLedger _ _ _) ?_
    rintro ⟨-, horphans⟩
    rcases ha with ⟨cancellation, rfl⟩ | ⟨cancellation, rfl⟩ <;> exact horphans

/-! ### Histories -/

/-- The next step succeeds in deleting something to which something else belongs. -/
def History.Orphans (h : History) (s : Step) : Prop :=
  (s.action.perform.run (h.world.under s.circumstances)).1 = .ok () ∧
    s.action.Orphans h.stores.documents

/-- A step keeps everything owned just if it leaves no orphans. -/
theorem Reached.owned_step {ids : Nat → String} {synchronizer : Option Synchronizer} {h : History}
    {written : Written} (hids : ValidIds ids) (hreached : Reached ids synchronizer h written)
    (howned : h.stores.documents.Owned) {s : Step} (hcalm : s.circumstances.Undisturbed) :
    (h.step s).stores.documents.Owned ↔ ¬ h.Orphans s := by
  have hsound := (hreached.reporting hids).1.chronicled.sound
  have heffect := s.action.effect (h.world.undisturbed_under hcalm) hsound.filed
    s.circumstances.now.2
  exact heffect.stays_owned_iff hsound howned

/-- What is stored for the intents of a cluster is the same before and after it is registered. -/
theorem DocumentStore.value?_key_begun {α : Type} [Intent α] (kind : IntentKind α)
    (d : DocumentStore) (p : String) (cluster : Cluster) (content : ClusterContent)
    (time : Timestamp) (q k n : String) :
    (d.begun p cluster content time).value? Registry.store (Intent.key α q k n) (Intent.tag α)
      = d.value? Registry.store (Intent.key α q k n) (Intent.tag α) := by
  have := kind.lawful
  simp [begun, withLedger, filled, described, Intent.key_ne_clusterKey]

/-- There are no intents while no document has a tag of theirs. -/
theorem DocumentStore.not_hasIntents_of_tagless {d : DocumentStore} {p c : String}
    (h : ((d.documents Registry.store).values.all fun doc =>
      (doc.tags.get? (Intent.tag Network)).isNone &&
        (doc.tags.get? (Intent.tag ProviderNetwork)).isNone) = true) : ¬ d.HasIntents p c := by
  rintro ⟨kind, n, hv⟩
  obtain ⟨doc, hdoc, htag⟩ := Option.bind_eq_some_iff.1 hv
  have hmem : doc ∈ (d.documents Registry.store).values :=
    List.mem_map_of_mem (f := (·.2)) (OrderedMap.get?_eq_some_iff.1 hdoc)
  have hnone := List.all_eq_true.1 h doc hmem
  cases kind <;> simp [htag] at hnone

/-- A cluster without intents declares none. -/
theorem DocumentStore.Declares.nil {α : Type} [Intent α] (kind : IntentKind α) {d : DocumentStore}
    {p c : String} (h : ¬ d.HasIntents p c) : d.Declares p c ([] : List α) := by
  refine ⟨fun n v => ⟨fun hv => absurd (.intro kind n hv) h, fun hv => ?_⟩, List.Pairwise.nil⟩
  obtain ⟨i, hi, -⟩ := hv
  exact absurd hi List.not_mem_nil

section Created

variable {ids : Nat → String} {synchronizer : Option Synchronizer} {h : History}
  {written : Written} {p : String} {cluster : Cluster} {content : ClusterContent}
  {circumstances : Circumstances}

/-- A cluster that is created has proper names, was not there before, and its ledger is begun. -/
theorem Reached.documents_created (hids : ValidIds ids)
    (hreached : Reached ids synchronizer h written) (hcalm : circumstances.Undisturbed)
    (hok : ((Action.createCluster p cluster content).perform.run
      (h.world.under circumstances)).1 = .ok ()) :
    Metadata.IsName p ∧ Metadata.IsName cluster.metadata.name ∧
      ¬ h.stores.documents.HasCluster p cluster.metadata.name ∧
      ∃ time : Timestamp, time.IsValid ∧
        (h.step ⟨.createCluster p cluster content, circumstances⟩).stores.documents
          = h.stores.documents.begun p cluster content time := by
  have hs := (hreached.reporting hids).1
  have heffect := (Action.createCluster p cluster content).effect
    (h.world.undisturbed_under hcalm) hs.chronicled.sound.filed circumstances.now.2
  rw [Ensures, hok] at heffect
  have hdocuments : (h.step ⟨.createCluster p cluster content, circumstances⟩).stores.documents
      = ((Action.createCluster p cluster content).perform.run
        (h.world.under circumstances)).2.documents := rfl
  generalize (h.step ⟨.createCluster p cluster content, circumstances⟩).stores.documents = d
    at hdocuments ⊢
  rw [← hdocuments] at heffect
  -- Only one of the effects is that of a creation.
  cases heffect with
  | begun ha hvalid hprovider hfree htime =>
    cases ha
    obtain ⟨v, hv⟩ := hprovider
    refine ⟨hs.named _ v hv, Metadata.isName_of_validate hvalid, ?_, _, htime, rfl⟩
    rintro ⟨u, hu⟩
    exact absurd (hfree.symm.trans hu) (by simp)
  | looked _ ha | provider ha | providerRemoved ha | removed ha => cases ha
  | declared kind i ha => rcases ha with ⟨_, _, ha⟩ | ⟨_, _, ha⟩ <;> cases ha
  | withdrawn kind n ha => rcases ha with ha | ha <;> cases ha
  | recorded _ l ha => rcases ha with ⟨_, ha⟩ | ⟨_, ha⟩ <;> cases ha

/-- A cluster takes over the intents that are stored under its name when it is created: applying
    it installs these. -/
theorem Reached.takes_over (hids : ValidIds ids) (hreached : Reached ids synchronizer h written)
    (hcalm : circumstances.Undisturbed)
    (hok : ((Action.createCluster p cluster content).perform.run
      (h.world.under circumstances)).1 = .ok ()) {networks : List Network}
    {providerNetworks : List ProviderNetwork}
    (hnetworks : h.stores.documents.Declares p cluster.metadata.name networks)
    (hproviderNetworks : h.stores.documents.Declares p cluster.metadata.name providerNetworks)
    {w : World} (hw : w.Undisturbed) (haccept : w.Accepting)
    (hstores : w.stores = (h.step ⟨.createCluster p cluster content, circumstances⟩).stores) :
    ((apply p cluster.metadata.name .never).run w).1 = .ok w.stores.nextId ∧
      ((apply p cluster.metadata.name .never).run w).2.stores.Shows p cluster.metadata.name
        w.stores.nextId networks providerNetworks := by
  obtain ⟨hs, hsupply⟩ := (hreached.step ⟨.createCluster p cluster content, circumstances⟩
    hcalm).reporting hids
  obtain ⟨hp, hc, -, time, htime, hdocuments⟩ := hreached.documents_created hids hcalm hok
  rw [← hstores] at hs hsupply hdocuments
  have hids' : ValidIds w.contextId := by
    rw [show w.contextId = ids from hsupply]
    exact hids
  have hl : w.documents.ledger? p cluster.metadata.name
      = some (Ledger.append {} .created "" time) := by
    rw [← World.stores_documents, hdocuments, DocumentStore.begun,
      DocumentStore.ledger?_withLedger (Ledger.timely_begun htime), if_pos ⟨rfl, rfl⟩]
  obtain ⟨hanswer, networks', providerNetworks', hrecorded, hshown⟩ :=
    hs.apply_accepted hw hp hc hl hids' (.inl (Ledger.current_append ..)) haccept
  -- Neither the creation nor the application changes what is stored for the intents.
  have hsame : ∀ {α : Type} [Intent α], IntentKind α → ∀ n,
      ((apply p cluster.metadata.name .never).run w).2.stores.documents.value? Registry.store
          (Intent.key α p cluster.metadata.name n) (Intent.tag α)
        = h.stores.documents.value? Registry.store (Intent.key α p cluster.metadata.name n)
          (Intent.tag α) := by
    intro α _ kind n
    rw [hrecorded, Stores.recording_documents, DocumentStore.value?_key_withLedger kind, hdocuments,
      DocumentStore.value?_key_begun kind]
  obtain rfl := hshown.declared.unique (hnetworks.congr (hsame .network))
  obtain rfl := hshown.providerDeclared.unique (hproviderNetworks.congr (hsame .providerNetwork))
  exact ⟨hanswer, hshown⟩

/-- A cluster that is created takes over what is declared under its name, which is nothing while
    everything has its owner. -/
theorem Reached.exists_taken_over (hids : ValidIds ids)
    (hreached : Reached ids synchronizer h written) (hcalm : circumstances.Undisturbed)
    (hok : ((Action.createCluster p cluster content).perform.run
      (h.world.under circumstances)).1 = .ok ()) :
    ∃ (networks : List Network) (providerNetworks : List ProviderNetwork),
      h.stores.documents.Declares p cluster.metadata.name networks ∧
      h.stores.documents.Declares p cluster.metadata.name providerNetworks ∧
      (h.stores.documents.Owned → networks = [] ∧ providerNetworks = []) ∧
      ∀ w : World, w.Undisturbed → w.Accepting →
        w.stores = (h.step ⟨.createCluster p cluster content, circumstances⟩).stores →
        ((apply p cluster.metadata.name .never).run w).1 = .ok w.stores.nextId ∧
          ((apply p cluster.metadata.name .never).run w).2.stores.Shows p cluster.metadata.name
            w.stores.nextId networks providerNetworks := by
  have hs := (hreached.reporting hids).1
  have hfiled := hs.chronicled.sound.filed
  obtain ⟨hp, hc, hfree, -⟩ := hreached.documents_created hids hcalm hok
  obtain ⟨networks, -, hnetworks⟩ :=
    DocumentStore.exists_declared hfiled hs.tidy .network hp.1 hc.1
  obtain ⟨providerNetworks, -, hproviderNetworks⟩ :=
    DocumentStore.exists_declared hfiled hs.tidy .providerNetwork hp.1 hc.1
  refine ⟨networks, providerNetworks, hnetworks, hproviderNetworks, ?_, ?_⟩
  · intro howned
    have hnone := fun hintents => hfree (howned.intents _ _ hintents)
    exact ⟨hnetworks.unique (.nil .network hnone),
      hproviderNetworks.unique (.nil .providerNetwork hnone)⟩
  · intro w hw haccept hstores
    exact hreached.takes_over hids hcalm hok hnetworks hproviderNetworks hw haccept hstores

end Created

namespace History

variable {ids : Nat → String} {synchronizer : Option Synchronizer}

/-- A part of a run with answering stores is one, too. -/
theorem reached_before {steps before : List Step}
    (hcalm : ∀ s ∈ steps, s.circumstances.Undisturbed) (hbefore : before <+: steps) :
    Reached ids synchronizer (after ids synchronizer before) fun _ => none :=
  Reached.start.steps before fun s hs => hcalm s (hbefore.subset hs)

/-- Over a run, everything has its owner just if no step leaves orphans. -/
theorem owned_prefixes_iff (hids : ValidIds ids) (steps : List Step)
    (hcalm : ∀ s ∈ steps, s.circumstances.Undisturbed) :
    (∀ before, before <+: steps → (after ids synchronizer before).stores.documents.Owned) ↔
      ∀ before s, before ++ [s] <+: steps → ¬ (after ids synchronizer before).Orphans s := by
  refine forall_prefix_iff DocumentStore.owned_empty fun before s hbefore howned => ?_
  have hafter : after ids synchronizer (before ++ [s]) = (after ids synchronizer before).step s :=
    List.foldl_append ..
  rw [hafter]
  exact (reached_before hcalm ((List.prefix_append _ _).trans hbefore)).owned_step hids howned
    (hcalm s (hbefore.subset (by simp)))

/-- **Ownership.** While the stores answer, every cluster belongs to a provider and every intent to
    a cluster at all times of a run, just if no step of it succeeds in deleting a provider that has
    clusters or a cluster that has intents. After the run, a cluster that is created takes over the
    intents that are stored under its name, and applying it installs these. If all of them belong
    to a cluster, then the new one has none. -/
theorem owned_iff (hids : ValidIds ids) (steps : List Step)
    (hcalm : ∀ s ∈ steps, s.circumstances.Undisturbed) :
    ((∀ before, before <+: steps → (after ids synchronizer before).stores.documents.Owned) ↔
      ∀ before s, before ++ [s] <+: steps → ¬ (after ids synchronizer before).Orphans s) ∧
    ∀ p cluster content circumstances, circumstances.Undisturbed →
      ((Action.createCluster p cluster content).perform.run
        ((after ids synchronizer steps).world.under circumstances)).1 = .ok () →
      ∃ (networks : List Network) (providerNetworks : List ProviderNetwork),
        (after ids synchronizer steps).stores.documents.Declares p cluster.metadata.name networks ∧
        (after ids synchronizer steps).stores.documents.Declares p cluster.metadata.name
          providerNetworks ∧
        ((after ids synchronizer steps).stores.documents.Owned →
          networks = [] ∧ providerNetworks = []) ∧
        ∀ w : World, w.Undisturbed → w.Accepting →
          w.stores = ((after ids synchronizer steps).step
            ⟨.createCluster p cluster content, circumstances⟩).stores →
          ((apply p cluster.metadata.name .never).run w).1 = .ok w.stores.nextId ∧
            ((apply p cluster.metadata.name .never).run w).2.stores.Shows p cluster.metadata.name
              w.stores.nextId networks providerNetworks := by
  refine ⟨owned_prefixes_iff hids steps hcalm, ?_⟩
  intro p cluster content circumstances hundisturbed hok
  exact (reached_before hcalm (List.prefix_refl steps)).exists_taken_over hids hundisturbed hok

/-- A run in which an intent of a cluster is stored and deleted. -/
def emptied : List Step :=
  [⟨.createProvider ⟨{ name := "p" }⟩, {}⟩,
    ⟨.createCluster "p" ⟨{ name := "c" }⟩ {}, {}⟩,
    ⟨.createNetwork ⟨{ name := "n" }, "ovn4nfv", []⟩ "p" "c" false, {}⟩,
    ⟨.deleteNetwork "n" "p" "c", {}⟩]

/-- The run above, at whose end the cluster is deleted as well. -/
def tidiedUp : List Step := emptied ++ [⟨.deleteCluster "p" "c", {}⟩]

/-- No step of this run fails, and none leaves orphans. A cluster that is created again after it has
    no intents, and is applied without any. -/
theorem owned_iff_tidiedUp :
    (after unaryId (some {}) tidiedUp).answers.map Except.toBool = List.replicate 5 true ∧
      (∀ before, before <+: tidiedUp →
        (after unaryId (some {}) before).stores.documents.Owned) ∧
      ∃ w : World, w.stores = ((after unaryId (some {}) tidiedUp).step
          ⟨.createCluster "p" ⟨{ name := "c" }⟩ {}, {}⟩).stores ∧
        ((apply "p" "c" .never).run w).1 = .ok "a" ∧
        ((apply "p" "c" .never).run w).2.stores.Shows "p" "c" "a" [] [] := by
  have hcalm : ({} : Circumstances).Undisturbed := ⟨rfl, rfl, rfl⟩
  obtain ⟨howned, hcreated⟩ := @owned_iff unaryId (some {}) unaryId_valid tidiedUp
    (by simpa [tidiedUp, emptied] using hcalm)
  obtain ⟨hanswers, htagless, hok, hid, hsync⟩ :
      (after unaryId (some {}) tidiedUp).answers.map Except.toBool = List.replicate 5 true ∧
      (((after unaryId (some {}) emptied).stores.documents.documents
        Registry.store).values.all fun doc =>
          (doc.tags.get? (Intent.tag Network)).isNone &&
            (doc.tags.get? (Intent.tag ProviderNetwork)).isNone) = true ∧
      ((Action.createCluster "p" ⟨{ name := "c" }⟩ {}).perform.run
        ((after unaryId (some {}) tidiedUp).world.under {})).1 = .ok () ∧
      ((after unaryId (some {}) tidiedUp).step
        ⟨.createCluster "p" ⟨{ name := "c" }⟩ {}, {}⟩).stores.nextId = "a" ∧
      ((after unaryId (some {}) tidiedUp).step
        ⟨.createCluster "p" ⟨{ name := "c" }⟩ {}, {}⟩).world.synchronizer.isSome = true := by
    decide +kernel
  have howned : ∀ before, before <+: tidiedUp →
      (after unaryId (some {}) before).stores.documents.Owned := by
    refine howned.2 fun before s hbefore horphans => ?_
    rcases List.prefix_concat_iff.1 hbefore with heq | hbefore
    · -- the cluster is deleted when no document of an intent is left
      obtain ⟨rfl, hlast⟩ := List.append_inj' heq rfl
      obtain rfl := List.head_eq_of_cons_eq hlast
      exact DocumentStore.not_hasIntents_of_tagless htagless horphans.2
    · have hkeeps : ∀ s ∈ emptied, ∀ d, ¬ s.action.Orphans d := by simp [emptied, Action.Orphans]
      exact hkeeps s (hbefore.subset (by simp)) _ horphans.2
  obtain ⟨networks, providerNetworks, -, -, hnone, hinstalls⟩ :=
    hcreated "p" ⟨{ name := "c" }⟩ {} {} hcalm hok
  obtain ⟨rfl, rfl⟩ := hnone (howned _ (List.prefix_refl _))
  generalize (after unaryId (some {}) tidiedUp).step _ = h at hid hsync hinstalls ⊢
  have happlied := hinstalls (h.world.under {}) (h.world.undisturbed_under hcalm)
    (World.accepting_under hsync rfl (Nat.zero_le _)) rfl
  rw [show (h.world.under {}).stores.nextId = "a" from hid] at happlied
  exact ⟨hanswers, howned, h.world.under {}, rfl, happlied⟩

/-- A run in which a cluster is deleted that has an intent, created again, and applied. -/
def takenOver : List Step :=
  [⟨.createProvider ⟨{ name := "p" }⟩, {}⟩,
    ⟨.createCluster "p" ⟨{ name := "c" }⟩ {}, {}⟩,
    ⟨.createNetwork ⟨{ name := "n" }, "ovn4nfv", []⟩ "p" "c" false, {}⟩,
    ⟨.deleteCluster "p" "c", {}⟩,
    ⟨.createCluster "p" ⟨{ name := "c" }⟩ {}, {}⟩,
    ⟨.apply "p" "c" .never, {}⟩]

/-- No step of this run fails. The intent is left without a cluster by the deletion, and it is
    installed for the new cluster, for which none was declared. -/
theorem not_owned_takenOver :
    (after unaryId (some {}) takenOver).answers.map Except.toBool = List.replicate 6 true ∧
      ¬ (after unaryId (some {}) (takenOver.take 4)).stores.documents.Owned ∧
      ((after unaryId (some {}) takenOver).stores.contexts.get?
        (resourceHandle "a" (contextClusterName "p" "c") "n+Network").key).isSome = true := by
  obtain ⟨hanswers, hintent, hcluster, hinstalled⟩ :
      (after unaryId (some {}) takenOver).answers.map Except.toBool = List.replicate 6 true ∧
      ((after unaryId (some {}) (takenOver.take 4)).stores.documents.value? Registry.store
        (Intent.key Network "p" "c" "n") (Intent.tag Network)).isSome = true ∧
      (after unaryId (some {}) (takenOver.take 4)).stores.documents.value? Registry.store
        (clusterKey "p" "c") metadataTag = none ∧
      ((after unaryId (some {}) takenOver).stores.contexts.get?
        (resourceHandle "a" (contextClusterName "p" "c") "n+Network").key).isSome = true := by
    decide +kernel
  refine ⟨hanswers, fun howned => ?_, hinstalled⟩
  obtain ⟨v, hv⟩ := Option.isSome_iff_exists.1 hintent
  obtain ⟨u, hu⟩ := howned.intents "p" "c" (.intro .network "n" hv)
  exact absurd (hcluster.symm.trans hu) (by simp)

end History

end NetIntent
