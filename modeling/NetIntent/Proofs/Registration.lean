import NetIntent.Proofs.Naming

namespace NetIntent

/-!
# Registering a cluster is not all or nothing

A cluster is registered with three calls of the store: its metadata, its content and its ledger. If
one of the later calls fails, then what was stored before stays. Such a cluster is listed, but it
has no ledger; and since its name is taken, it can neither be registered again nor be deleted.

* `Registered` — what a registration leaves in the documents, for each outcome;
* `Stranded` — how the operations see a cluster whose registration stopped halfway;
* `DocumentStore.Whole`, `Action.Tags` — every cluster has its content and its ledger, and what an
  operation does about it;
* `History.Whole`, `History.Interrupts` — the same for what is listed, and a registration that stops
  halfway;
* `History.registration_whole_iff` — the failures of a registration, and whether a run leaves a
  cluster that is half made.
-/

open Op Registry

/-! ### One registration -/

section Creation

variable {p : String} {c : Cluster} {content : ClusterContent} {w : World}

/-- What the registration of a cluster leaves in the documents. -/
inductive Registered (w : World) (p : String) (c : Cluster) (content : ClusterContent) :
    Except Failure Cluster → DocumentStore → Prop
  /-- It fails before its metadata are stored. -/
  | refused {e e' : Failure} (henrol : ((enrolCluster p c).run w).1 = .error e') :
      Registered w p c content (.error e) w.documents
  /-- It fails later, and what was stored stays. -/
  | halfway {e : Failure} {d : DocumentStore} (henrol : ((enrolCluster p c).run w).1 = .ok ())
      (hd : d = w.documents.described p c ∨ d = w.documents.filled p c content) :
      Registered w p c content (.error e) d
  /-- It succeeds. -/
  | begun {k : Cluster} (henrol : ((enrolCluster p c).run w).1 = .ok ()) :
      Registered w p c content (.ok k) (w.documents.begun p c content w.now)

/-- Creating a cluster registers it wholly, in part, or not at all. -/
theorem createCluster_registered (p : String) (c : Cluster) (content : ClusterContent)
    (hw : w.Faithful) :
    (createCluster p c content).Ensures w fun r w' => Registered w p c content r w'.documents := by
  have hwrites := (createCluster_writes p c content hw).documents
  rw [Ensures, hwrites]
  -- A step is not reached if one before it fails.
  rcases henrol : ((enrolCluster p c).run w).1 with e | u
  · have hequip : ((equipCluster p c content).run w).1 = .error e := by
      rw [equipCluster, run_bind_error (Prod.ext henrol rfl)]
    have hcreate : ((createCluster p c content).run w).1 = .error e := by
      rw [createCluster_eq_equip, run_bind_error (Prod.ext hequip rfl)]
    rw [onSuccess_of_error henrol, onSuccess_of_error hequip, onSuccess_of_error hcreate, hcreate]
    exact .refused henrol
  · rw [onSuccess_of_ok henrol]
    rcases hequip : ((equipCluster p c content).run w).1 with e | v
    · have hcreate : ((createCluster p c content).run w).1 = .error e := by
        rw [createCluster_eq_equip, run_bind_error (Prod.ext hequip rfl)]
      rw [onSuccess_of_error hequip, onSuccess_of_error hcreate, hcreate]
      exact .halfway henrol (.inl rfl)
    · rw [onSuccess_of_ok hequip]
      rcases hcreate : ((createCluster p c content).run w).1 with e | k
      · rw [onSuccess_of_error hcreate]
        exact .halfway henrol (.inr rfl)
      · rw [onSuccess_of_ok hcreate]
        exact .begun henrol

/-- A name under which metadata are stored was free before. -/
theorem cluster?_eq_none_of_enrolled (hw : w.Faithful) (hfiled : w.documents.Filed)
    (henrol : ((enrolCluster p c).run w).1 = .ok ()) :
    w.documents.cluster? p c.metadata.name = none := by
  obtain ⟨d, hvetted, -⟩ := (enrolCluster_atomic p c).of_ok hw henrol
  exact hvetted.free hfiled

/-- Halfway, the metadata are stored. -/
theorem DocumentStore.cluster?_halfway {d d' : DocumentStore}
    (hd' : d' = d.described p c ∨ d' = d.filled p c content) :
    d'.cluster? p c.metadata.name = some c := by
  rcases hd' with rfl | rfl
  · rw [cluster?_described, if_pos ⟨rfl, rfl⟩]
  · rw [cluster?_filled, cluster?_described, if_pos ⟨rfl, rfl⟩]

/-- Halfway, the ledgers are those that were there before. -/
theorem DocumentStore.value?_ledger_halfway {d d' : DocumentStore}
    (hd' : d' = d.described p c ∨ d' = d.filled p c content) (q k : String) :
    d'.value? Registry.store (clusterKey q k) ledgerTag
      = d.value? Registry.store (clusterKey q k) ledgerTag := by
  rcases hd' with rfl | rfl
  · simp [described, ledgerTag_ne_metadataTag]
  · simp [filled, described, ledgerTag_ne_metadataTag, ledgerTag_ne_contentTag]

/-- Halfway, the providers are those that were there before. -/
theorem DocumentStore.value?_provider_halfway {d d' : DocumentStore}
    (hd' : d' = d.described p c ∨ d' = d.filled p c content) (q : String) :
    d'.value? Registry.store (providerKey q) metadataTag
      = d.value? Registry.store (providerKey q) metadataTag := by
  have hkey : providerKey q ≠ clusterKey p c.metadata.name := (clusterKey_ne_providerKey _ _ _).symm
  rcases hd' with rfl | rfl
  · simp [described, hkey]
  · simp [filled, described, hkey]

/-- A registration that fails leaves the documents as they are just if it fails before the metadata
    are stored. Otherwise these stay, or these and the content. -/
theorem createCluster_failed (hw : w.Faithful) (hfiled : w.documents.Filed) {e : Failure}
    (hfails : ((createCluster p c content).run w).1 = .error e) :
    (((createCluster p c content).run w).2.documents = w.documents ↔
        ∃ e, ((enrolCluster p c).run w).1 = .error e) ∧
      (((enrolCluster p c).run w).1 = .ok () →
        ((createCluster p c content).run w).2.documents = w.documents.described p c ∨
          ((createCluster p c content).run w).2.documents = w.documents.filled p c content) := by
  have hregistered := createCluster_registered p c content hw
  rw [Ensures, hfails] at hregistered
  generalize ((createCluster p c content).run w).2.documents = d at hregistered ⊢
  cases hregistered with
  | refused henrol => exact ⟨iff_of_true rfl ⟨_, henrol⟩, fun hok => by simp [henrol] at hok⟩
  | halfway henrol hd =>
    refine ⟨iff_of_false ?_ (by simp [henrol]), fun _ => hd⟩
    intro hsame
    -- the name is taken afterwards, and was free before
    have htaken := DocumentStore.cluster?_halfway hd
    rw [hsame, cluster?_eq_none_of_enrolled hw hfiled henrol] at htaken
    cases htaken

end Creation

/-! ### Every cluster -/

namespace DocumentStore

variable {d d' : DocumentStore} {p c : String}

/-- Something is stored at the tag of a cluster. -/
def HasTag (d : DocumentStore) (p c tag : String) : Prop :=
  ∃ v, d.value? Registry.store (clusterKey p c) tag = some v

/-- Every cluster with metadata has its content and its ledger. -/
def Whole (d : DocumentStore) : Prop :=
  ∀ p c, d.HasTag p c metadataTag → d.HasTag p c contentTag ∧ d.HasTag p c ledgerTag

/-- Where nothing is stored, no cluster is registered in part. -/
theorem whole_empty : empty.Whole := nofun

/-- The same tags of clusters are there. -/
def SameTags (d d' : DocumentStore) : Prop := ∀ p c tag, d'.HasTag p c tag ↔ d.HasTag p c tag

/-- Documents with the same tags of clusters are whole together. -/
theorem SameTags.whole_iff (h : d.SameTags d') : d'.Whole ↔ d.Whole := by
  simp only [Whole, h _ _ _]

/-- A tag is there after an insertion if it was inserted, or was there before. -/
theorem hasTag_insert {key : DocumentKey} {tag tag' : String} {v : Json} :
    (d.insert Registry.store key tag v).HasTag p c tag' ↔
      clusterKey p c = key ∧ tag' = tag ∨ d.HasTag p c tag' := by
  rw [HasTag, HasTag, value?_insert]
  by_cases hkey : clusterKey p c = key ∧ tag' = tag <;> simp [hkey]

/-- A tag is there after a removal if it is of another document, and was there before. -/
theorem hasTag_remove {key : DocumentKey} {tag : String} :
    (d.remove Registry.store key).HasTag p c tag ↔ clusterKey p c ≠ key ∧ d.HasTag p c tag := by
  rw [HasTag, HasTag, value?_remove]
  by_cases hkey : clusterKey p c = key <;> simp [hkey]

/-- What is stored under other keys than those of clusters is none of their tags. -/
theorem sameTags_insert {key : DocumentKey} (hkey : ∀ p c, clusterKey p c ≠ key) (tag : String)
    (v : Json) : d.SameTags (d.insert Registry.store key tag v) := by
  intro p c tag'
  simp [hasTag_insert, hkey]

/-- To remove what is stored under other keys takes no tag of a cluster. -/
theorem sameTags_remove {key : DocumentKey} (hkey : ∀ p c, clusterKey p c ≠ key) :
    d.SameTags (d.remove Registry.store key) := by
  intro p c tag
  simp [hasTag_remove, hkey]

/-- A ledger that takes the place of another one is no new tag. -/
theorem sameTags_withLedger {l l' : Ledger} (hl : d.ledger? p c = some l) :
    d.SameTags (d.withLedger p c l') := by
  obtain ⟨v, hv, -⟩ := Option.bind_eq_some_iff.1 hl
  intro q k tag
  rw [withLedger, hasTag_insert]
  constructor
  · rintro (⟨hkey, rfl⟩ | h)
    · obtain ⟨rfl, rfl⟩ := clusterKey_inj.1 hkey
      exact ⟨v, hv⟩
    · exact h
  · exact .inr

/-- A deletion takes all tags of a cluster. -/
theorem Whole.remove (h : d.Whole) (p c : String) :
    (d.remove Registry.store (clusterKey p c)).Whole := by
  intro q k hmetadata
  simp only [hasTag_remove] at hmetadata ⊢
  obtain ⟨hkey, hmetadata⟩ := hmetadata
  exact ⟨⟨hkey, (h q k hmetadata).1⟩, hkey, (h q k hmetadata).2⟩

/-- A cluster that is begun is whole. -/
theorem Whole.begun (h : d.Whole) (p : String) (c : Cluster) (content : ClusterContent)
    (time : Timestamp) : (d.begun p c content time).Whole := by
  intro q k hmetadata
  simp only [DocumentStore.begun, withLedger, filled, described, hasTag_insert] at hmetadata ⊢
  have hold : clusterKey q k = clusterKey p c.metadata.name ∨ d.HasTag q k metadataTag := by
    rcases hmetadata with ⟨hkey, -⟩ | ⟨hkey, -⟩ | ⟨hkey, -⟩ | hmetadata
    · exact .inl hkey
    · exact .inl hkey
    · exact .inl hkey
    · exact .inr hmetadata
  rcases hold with hkey | hmetadata
  · exact ⟨.inr (.inl ⟨hkey, trivial⟩), .inl ⟨hkey, trivial⟩⟩
  · exact ⟨.inr (.inr (.inr (h q k hmetadata).1)), .inr (.inr (.inr (h q k hmetadata).2))⟩

end DocumentStore

/-- The operation registers a cluster, and fails after its metadata are stored. -/
def Action.Interrupted (a : Action) (w : World) : Prop :=
  match a with
  | .createCluster p c content =>
    ((enrolCluster p c).run w).1 = .ok () ∧
      ∃ e, ((NetIntent.createCluster p c content).run w).1 = .error e
  | _ => False

/-- What an operation does to the tags of clusters. -/
inductive Action.Tags (a : Action) (w : World) : DocumentStore → Prop
  /-- None is added or taken away. -/
  | same {d : DocumentStore} (hsame : w.documents.SameTags d) (hnot : ¬ a.Interrupted w) : Tags a w d
  /-- A cluster is deleted. -/
  | removed (p c : String) (hnot : ¬ a.Interrupted w) :
      Tags a w (w.documents.remove Registry.store (clusterKey p c))
  /-- The registration of a cluster stops halfway. -/
  | halfway {p : String} {c : Cluster} {content : ClusterContent} {d : DocumentStore}
      (hinterrupted : a.Interrupted w) (hfree : w.documents.cluster? p c.metadata.name = none)
      (hd : d = w.documents.described p c ∨ d = w.documents.filled p c content) : Tags a w d
  /-- A cluster is registered. -/
  | begun (p : String) (c : Cluster) (content : ClusterContent) (time : Timestamp)
      (hnot : ¬ a.Interrupted w) : Tags a w (w.documents.begun p c content time)

section Tags

variable {α : Type} {a : Action} {w : World}

/-- A write that is made or not, and that is about no tag of a cluster. -/
theorem tags_of_onSuccess {op : Op α} {write : Write}
    (hsame : w.documents.SameTags (w.documents.write write)) (hnot : ¬ a.Interrupted w) :
    a.Tags w (w.documents.writing (op.onSuccess w write)) := by
  refine .same ?_ hnot
  rcases hr : (op.run w).1 with e | b
  · rw [onSuccess_of_error hr]
    exact fun _ _ _ => Iff.rfl
  · rw [onSuccess_of_ok hr]
    exact hsame

/-- A ledger that is extended, or not. -/
theorem tags_of_ledger {op : Op α} {p c : String} {extend : Ledger → Ledger}
    (hnot : ¬ a.Interrupted w) :
    a.Tags w (w.documents.writing ((w.documents.ledger? p c).toList.flatMap fun l =>
      op.onSuccess w (.ledger p c (extend l)))) := by
  cases hl : w.documents.ledger? p c with
  | none => exact .same (fun _ _ _ => Iff.rfl) hnot
  | some l =>
    rw [Option.toList_some, List.flatMap_cons, List.flatMap_nil, List.append_nil]
    exact tags_of_onSuccess (DocumentStore.sameTags_withLedger hl) hnot

/-- Creating a cluster adds all of its tags, or stops halfway, or adds none. -/
theorem createCluster_tags (p : String) (c : Cluster) (content : ClusterContent) (hw : w.Faithful)
    (hfiled : w.documents.Filed) :
    (Action.createCluster p c content).Tags w
      (w.documents.writing ((Action.createCluster p c content).writes w)) := by
  have hregistered := createCluster_registered p c content hw
  rw [Ensures, (createCluster_writes p c content hw).documents] at hregistered
  change Registered w p c content _
    (w.documents.writing ((Action.createCluster p c content).writes w)) at hregistered
  generalize w.documents.writing ((Action.createCluster p c content).writes w) = d
    at hregistered ⊢
  -- How far the registration came tells which tags there are.
  generalize hr : ((createCluster p c content).run w).1 = r at hregistered
  cases hregistered with
  | refused henrol =>
    exact .same (fun _ _ _ => Iff.rfl) fun hinterrupted => by
      simp [Action.Interrupted, henrol] at hinterrupted
  | halfway henrol hd =>
    exact .halfway ⟨henrol, _, hr⟩ (cluster?_eq_none_of_enrolled hw hfiled henrol) hd
  | begun henrol =>
    exact .begun p c content w.now fun hinterrupted => by
      simp [Action.Interrupted, hr] at hinterrupted

/-- Every operation adds all tags of a cluster or takes them away, unless it stops halfway. -/
theorem Action.tags (a : Action) (hw : w.Faithful) (hfiled : w.documents.Filed) :
    a.Tags w (a.perform.run w).2.documents := by
  rw [a.documents_perform hw hfiled]
  -- Clusters and intents have different keys.
  have hintent : ∀ {α : Type} [Intent α], IntentKind α → ∀ p c n q k,
      clusterKey q k ≠ Intent.key α p c n := by
    intro α _ kind p c n q k
    have := kind.lawful
    exact Intent.clusterKey_ne_key q k p c n
  cases a with
  | createProvider p =>
    exact tags_of_onSuccess
      (DocumentStore.sameTags_insert (fun _ _ => clusterKey_ne_providerKey _ _ _) _ _) id
  | deleteProvider p =>
    exact tags_of_onSuccess
      (DocumentStore.sameTags_remove fun _ _ => clusterKey_ne_providerKey _ _ _) id
  | createCluster p c content => exact createCluster_tags p c content hw hfiled
  | deleteCluster p c =>
    rcases hr : ((NetIntent.deleteCluster p c).run w).1 with e | u
    · rw [writes, onSuccess_of_error hr]
      exact .same (fun _ _ _ => Iff.rfl) id
    · rw [writes, onSuccess_of_ok hr]
      exact .removed p c id
  | createNetwork n p c mayExist =>
    exact tags_of_onSuccess (DocumentStore.sameTags_insert (hintent .network _ _ _) _ _) id
  | deleteNetwork n p c =>
    exact tags_of_onSuccess (DocumentStore.sameTags_remove (hintent .network _ _ _)) id
  | createProviderNetwork n p c mayExist =>
    exact tags_of_onSuccess (DocumentStore.sameTags_insert (hintent .providerNetwork _ _ _) _ _) id
  | deleteProviderNetwork n p c =>
    exact tags_of_onSuccess (DocumentStore.sameTags_remove (hintent .providerNetwork _ _ _)) id
  | apply p c cancellation => exact tags_of_ledger id
  | terminate p c cancellation => exact tags_of_ledger id
  | look lookup => exact .same (fun _ _ _ => Iff.rfl) id

/-- An operation leaves a cluster that is half made just if it is a registration that stops
    halfway. -/
theorem Action.Tags.whole_iff {d : DocumentStore} (h : a.Tags w d) (hsound : w.documents.Sound)
    (hwhole : w.documents.Whole) : d.Whole ↔ ¬ a.Interrupted w := by
  cases h with
  | same hsame hnot => exact iff_of_true (hsame.whole_iff.2 hwhole) hnot
  | removed p c hnot => exact iff_of_true (hwhole.remove p c) hnot
  | begun p c content time hnot => exact iff_of_true (hwhole.begun p c content time) hnot
  | @halfway p c content d hinterrupted hfree hd =>
    refine iff_of_false (fun hwhole' => ?_) (not_not.2 hinterrupted)
    -- The cluster has metadata now; but it had none before, and so no ledger.
    have hmetadata : d.HasTag p c.metadata.name metadataTag := by
      obtain ⟨v, hv, -⟩ := Option.bind_eq_some_iff.1 (DocumentStore.cluster?_halfway hd)
      exact ⟨v, hv⟩
    obtain ⟨v, hv⟩ := (hwhole' _ _ hmetadata).2
    rw [DocumentStore.value?_ledger_halfway hd] at hv
    obtain ⟨cluster, hcluster⟩ := hsound.described _ _ _ hv
    exact absurd (hfree.symm.trans hcluster) (by simp)

end Tags

/-! ### How operations see it -/

/-- While the stores answer, a cluster whose registration stopped halfway is listed; but it has no
    ledger, it cannot be deleted, and it cannot be registered again. -/
structure Stranded (v : World) (p : String) (c : Cluster) : Prop where
  listed : ∃ found, (getClusters p).run v = (.ok found, v) ∧ c ∈ found
  ledgerless : (getLedger p c.metadata.name).run v
    = (.error (.notFound "Cluster" (contextClusterName p c.metadata.name)), v)
  undeletable : (deleteCluster p c.metadata.name).run v
    = (.error (.notFound "Cluster" (contextClusterName p c.metadata.name)), v)
  taken : ∀ content, (createCluster p c content).run v
    = (.error (.alreadyExists "Cluster" (contextClusterName p c.metadata.name)), v)

section Stranding

variable {v : World} {p : String} {c : Cluster} {log : List Write}

/-- A registration is refused under a name that is taken. -/
theorem run_createCluster_of_taken {a : Provider} (hv : v.Undisturbed) (hfiled : v.documents.Filed)
    (hp : p ≠ "") (hvalid : c.metadata.validate = .ok ())
    (hprovider : (v.documents.value? Registry.store (providerKey p) metadataTag).bind
      Provider.ofJson? = some a)
    (htaken : v.documents.cluster? p c.metadata.name = some c) (content : ClusterContent) :
    (createCluster p c content).run v
      = (.error (.alreadyExists "Cluster" (contextClusterName p c.metadata.name)), v) := by
  have hc : c.metadata.name ≠ "" := fun hempty => by simp [Metadata.validate, hempty] at hvalid
  obtain ⟨u, hu, hread⟩ := Option.bind_eq_some_iff.1 htaken
  have hfound := run_findOne_of_some hv hfiled (clusterKey_exact hp hc) hu hread
  have hvet : (vetCluster p c).run v
      = (.error (.alreadyExists "Cluster" (contextClusterName p c.metadata.name)), v) := by
    unfold vetCluster
    rw [hvalid, of_ok_bind, run_bind_ok (run_getProvider hv hfiled hp hprovider),
      run_bind_ok hfound]
    rfl
  rw [createCluster_eq, run_bind_error hvet]

/-- A cluster that has metadata, but no ledger, is stranded. -/
theorem stranded_of_documents {d : DocumentStore} {content : ClusterContent} (hv : v.Undisturbed)
    (hlog : ∀ write ∈ log, write.Lawful) (hdocuments : v.documents = .writing .empty log)
    (hsound : d.Sound) (hvetted : Vetted d p c)
    (hhalfway : v.documents = d.described p c ∨ v.documents = d.filled p c content) :
    Stranded v p c := by
  have hfiled : v.documents.Filed := hdocuments ▸ DocumentStore.filed_empty.writing log
  have htaken := DocumentStore.cluster?_halfway hhalfway
  -- There was no ledger before, and none is stored halfway.
  have hledger : v.documents.value? Registry.store (clusterKey p c.metadata.name) ledgerTag
      = none := by
    rw [DocumentStore.value?_ledger_halfway hhalfway]
    cases hl : d.value? Registry.store (clusterKey p c.metadata.name) ledgerTag with
    | none => rfl
    | some u =>
      obtain ⟨cluster, hcluster⟩ := hsound.described _ _ u hl
      exact absurd ((hvetted.free hsound.filed).symm.trans hcluster) (by simp)
  have hmissing : (getLedger p c.metadata.name).run v
      = (.error (.notFound "Cluster" (contextClusterName p c.metadata.name)), v) :=
    run_getClusterTag_of_none hv hfiled hvetted.provider_ne hvetted.name_ne hledger _ _
  constructor
  case listed =>
    obtain ⟨listed, hlisted, hmem⟩ := run_getClusters hv hlog hdocuments p
    rw [hdocuments] at htaken
    have hlasts := ((DocumentStore.cluster_writing_iff hlog).1 htaken).2
    exact ⟨_, hlisted, List.mem_map.2 ⟨(p, c), (hmem p c).2 ⟨.inr rfl, hlasts⟩, rfl⟩⟩
  case ledgerless => exact hmissing
  case undeletable =>
    unfold deleteCluster checkCluster
    rw [run_bind_error (run_bind_error hmissing)]
  case taken =>
    obtain ⟨a, ha⟩ := hvetted.provided hsound.filed
    refine run_createCluster_of_taken hv hfiled hvetted.provider_ne hvetted.valid (a := a) ?_ htaken
    rw [DocumentStore.value?_provider_halfway hhalfway, ha]

end Stranding

/-! ### Histories -/

namespace History

variable {ids : Nat → String} {synchronizer : Option Synchronizer}

/-- Every cluster that is listed has its content and its ledger, while the stores answer. -/
def Whole (h : History) : Prop :=
  ∀ p found, ((getClusters p).run (h.world.under {})).1 = .ok found → ∀ k ∈ found,
    ∃ q, (p = "" ∨ q = p) ∧
      (∃ content, ((getClusterContent q k.metadata.name).run (h.world.under {})).1 = .ok content) ∧
      ∃ l, ((getLedger q k.metadata.name).run (h.world.under {})).1 = .ok l

/-- The next step is the registration of a cluster, and fails after its metadata are stored. -/
def Interrupts (h : History) (s : Step) : Prop := s.action.Interrupted (h.world.under s.circumstances)

/-- After any run the documents are sound. -/
theorem sound_after (ids : Nat → String) (synchronizer : Option Synchronizer) (steps : List Step) :
    (after ids synchronizer steps).stores.documents.Sound :=
  (stores_after (P := fun s => s.documents.Sound) (fun _ h => h.filed) DocumentStore.sound_empty
    (fun _ _ _ _ _ hs h => h.sound hs) steps).1

/-- What is listed is whole just if everything is that is stored. -/
theorem whole_after_iff (steps : List Step) :
    (after ids synchronizer steps).Whole ↔
      (after ids synchronizer steps).stores.documents.Whole := by
  obtain ⟨hlog, hdocuments⟩ := documents_after ids synchronizer steps
  generalize log ids synchronizer steps = log at hlog hdocuments
  generalize after ids synchronizer steps = h at hdocuments ⊢
  have hv : (h.world.under {}).Undisturbed := ⟨rfl, rfl, rfl⟩
  have hdocuments' : (h.world.under {}).documents = .writing .empty log := hdocuments
  have hfiled : (h.world.under {}).documents.Filed :=
    hdocuments' ▸ DocumentStore.filed_empty.writing log
  have hfinds := World.findsByName hv.faithful hlog hdocuments'
  have htag : ∀ p c tag v, (Write.insert (clusterKey p c) tag v).Lasts log →
      h.stores.documents.HasTag p c tag := by
    intro p c tag v hlasts
    exact ⟨v, hdocuments ▸ (DocumentStore.value?_writing log).2 hlasts⟩
  constructor
  · intro hwhole p c hmetadata
    obtain ⟨v, hmetadata⟩ := hmetadata
    rw [hdocuments, DocumentStore.value?_writing] at hmetadata
    obtain ⟨k, rfl, rfl, hp, -⟩ := (hlog _ hmetadata.mem).exists_cluster
    obtain ⟨listed, hlisted, hmem⟩ := run_getClusters hv hlog hdocuments' p
    have hk : k ∈ listed.map (·.2) :=
      List.mem_map.2 ⟨(p, k), (hmem p k).2 ⟨.inr rfl, hmetadata⟩, rfl⟩
    obtain ⟨q, hq, ⟨content, hcontent⟩, l, hl⟩ := hwhole p _ (congrArg Prod.fst hlisted) k hk
    obtain rfl : q = p := hq.resolve_left hp
    exact ⟨htag _ _ _ _ (hfinds.content _ _ _ hcontent), htag _ _ _ _ (hfinds.ledger _ _ _ hl)⟩
  · intro hwhole p found hfound k hk
    obtain ⟨listed, rfl, -, hmem⟩ := hfinds.clusters p found hfound
    obtain ⟨⟨q, k⟩, hqk, rfl⟩ := List.mem_map.1 hk
    obtain ⟨hq, hlasts⟩ := (hmem q k).1 hqk
    obtain ⟨⟨u, hu⟩, v, hv'⟩ := hwhole q k.metadata.name (htag _ _ _ _ hlasts)
    rw [hdocuments, DocumentStore.value?_writing] at hu hv'
    obtain ⟨content, rfl, hne, hc⟩ := (hlog _ hu.mem).exists_content
    obtain ⟨l, rfl, htimely, -⟩ := (hlog _ hv'.mem).exists_ledger
    -- What is stored can be read, and so it is found.
    have hcontent := (DocumentStore.content_writing_iff hlog).2 ⟨⟨hne, hc⟩, hu⟩
    have hledger := (DocumentStore.ledger_writing_iff hlog).2 ⟨⟨htimely, hne, hc⟩, hv'⟩
    rw [← hdocuments'] at hcontent hledger
    exact ⟨q, hq, ⟨content, congrArg Prod.fst (run_getClusterTag hv hfiled hne hc hcontent _)⟩, l,
      congrArg Prod.fst (run_getLedger hv hfiled hne hc hledger)⟩

/-- Over a run, every cluster is whole just if no registration stops halfway. -/
theorem whole_prefixes_iff (steps : List Step) :
    (∀ before, before <+: steps → (after ids synchronizer before).stores.documents.Whole) ↔
      ∀ before s, before ++ [s] <+: steps → ¬ (after ids synchronizer before).Interrupts s := by
  refine forall_prefix_iff DocumentStore.whole_empty fun before s _ hwhole => ?_
  have hsound := sound_after ids synchronizer before
  have htags := s.action.tags ((after ids synchronizer before).world.faithful_under s.circumstances)
    hsound.filed
  rw [after_concat]
  exact htags.whole_iff hsound hwhole

/-- **Registering a cluster.** A registration that fails leaves the documents as they are just if it
    fails before the metadata are stored; otherwise these stay, or these and the content. So every
    cluster that is listed has its content and its ledger at all times of a run, just if no
    registration stops halfway. After one that does, the cluster is listed without a ledger, and can
    neither be deleted nor registered again. -/
theorem registration_whole_iff (ids : Nat → String) (synchronizer : Option Synchronizer)
    (steps : List Step) :
    (∀ w : World, w.Faithful → w.documents.Filed → ∀ p c content e,
      ((createCluster p c content).run w).1 = .error e →
      (((createCluster p c content).run w).2.documents = w.documents ↔
          ∃ e, ((enrolCluster p c).run w).1 = .error e) ∧
        (((enrolCluster p c).run w).1 = .ok () →
          ((createCluster p c content).run w).2.documents = w.documents.described p c ∨
            ((createCluster p c content).run w).2.documents = w.documents.filled p c content)) ∧
    ((∀ before, before <+: steps → (after ids synchronizer before).Whole) ↔
      ∀ before s, before ++ [s] <+: steps → ¬ (after ids synchronizer before).Interrupts s) ∧
    ∀ p c content circumstances,
      (after ids synchronizer steps).Interrupts ⟨.createCluster p c content, circumstances⟩ →
      ∀ v : World, v.Undisturbed → v.stores = ((after ids synchronizer steps).step
        ⟨.createCluster p c content, circumstances⟩).stores → Stranded v p c := by
  refine ⟨fun w hw hfiled p c content e hfails => createCluster_failed hw hfiled hfails, ?_, ?_⟩
  · rw [← whole_prefixes_iff]
    exact forall₂_congr fun before _ => whole_after_iff before
  · intro p c content circumstances hinterrupts v hv hstores
    obtain ⟨henrol, e, hfails⟩ := hinterrupts
    have hw := (after ids synchronizer steps).world.faithful_under circumstances
    have hsound := sound_after ids synchronizer steps
    -- The cluster was enrolled, and so it was vetted before.
    obtain ⟨d, hvetted, -⟩ := (enrolCluster_atomic p c).of_ok hw henrol
    have hdocuments : v.documents = ((createCluster p c content).run
        ((after ids synchronizer steps).world.under circumstances)).2.documents := by
      rw [← World.stores_documents, hstores]
      show ((createCluster p c content).void.run _).2.documents = _
      rw [run_void]
    -- The documents are those of the run with this step.
    obtain ⟨hlog, hlogged⟩ := documents_after ids synchronizer
      (steps ++ [⟨.createCluster p c content, circumstances⟩])
    rw [after_concat, ← hstores] at hlogged
    have hhalfway := (createCluster_failed hw hsound.filed hfails).2 henrol
    rw [← hdocuments] at hhalfway
    exact stranded_of_documents hv hlog hlogged hsound hvetted hhalfway

/-- A registration during which no content of a cluster can be stored. -/
def contentFails : Step :=
  ⟨.createCluster "p" ⟨{ name := "c" }⟩ {},
    { outages := [{ method := .insert, holds := "clustercontent" }] }⟩

/-- A run with such a registration. -/
def halfMade : List Step := [⟨.createProvider ⟨{ name := "p" }⟩, {}⟩, contentFails]

/-- In this run a registration stops halfway, and leaves a cluster that can be neither deleted nor
    registered again. -/
theorem registration_whole_iff_halfMade :
    ¬ (∀ before, before <+: halfMade → (after unaryId (some {}) before).Whole) ∧
      Stranded ((after unaryId (some {}) halfMade).world.under {}) "p" ⟨{ name := "c" }⟩ := by
  -- The cluster is enrolled, and then its content cannot be stored.
  have hinterrupts : (after unaryId (some {}) (halfMade.take 1)).Interrupts contentFails := by
    have houtcomes : ((enrolCluster "p" ⟨{ name := "c" }⟩).run
        ((after unaryId (some {}) (halfMade.take 1)).world.under contentFails.circumstances)).1
          = .ok () ∧
      ((createCluster "p" ⟨{ name := "c" }⟩ {}).run
        ((after unaryId (some {}) (halfMade.take 1)).world.under contentFails.circumstances)).1
          = .error (.store "insert" "injected") := by
      decide
    exact ⟨houtcomes.1, _, houtcomes.2⟩
  constructor
  · intro hwhole
    exact (registration_whole_iff unaryId (some {}) halfMade).2.1.1 hwhole (halfMade.take 1)
      contentFails (List.prefix_refl _) hinterrupts
  · exact (registration_whole_iff unaryId (some {}) (halfMade.take 1)).2.2 "p" ⟨{ name := "c" }⟩ {}
      contentFails.circumstances hinterrupts _ ⟨rfl, rfl, rfl⟩ rfl

/-- The registration fails and leaves the metadata of the cluster, which is listed without content,
    and cannot be registered again. -/
theorem registration_not_atomic :
    (after unaryId (some {}) halfMade).answers.map Except.toBool = [true, false] ∧
      (after unaryId (some {}) (halfMade.take 1)).stores.documents.cluster? "p" "c" = none ∧
      (after unaryId (some {}) halfMade).stores.documents.cluster? "p" "c"
        = some ⟨{ name := "c" }⟩ ∧
      ((getClusters "p").run ((after unaryId (some {}) halfMade).world.under {})).1
        = .ok [⟨{ name := "c" }⟩] ∧
      ((getClusterContent "p" "c").run ((after unaryId (some {}) halfMade).world.under {})).1
        = .error (.notFound "ClusterContent" "p+c") ∧
      ((createCluster "p" ⟨{ name := "c" }⟩ {}).run
        ((after unaryId (some {}) halfMade).world.under {})).1
        = .error (.alreadyExists "Cluster" "p+c") := by
  decide

end History

end NetIntent
