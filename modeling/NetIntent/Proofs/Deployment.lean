import NetIntent.Proofs.ContextNodes
import NetIntent.Proofs.Registry

namespace NetIntent

/-!
# What applying, terminating and deleting a cluster do

Each of the three operations goes through a number of calls any of which may fail. Here is what they
leave in the two stores, for every outcome.

* `Deployment.survey`, `draft` — the part of applying that only reads, and applying without its
  cleanup;
* `build_ensures`, `cleanUp_ensures` — a context is built and recorded, or taken away again;
* `Deployment.commit_ensures` — applying up to the request;
* `Deployment.retrieve`, `revoke` — terminating up to the request, and up to the deletion of the
  context;
* `Deployment.terminate_ensures` — terminating;
* `leftovers` — the part of deleting a cluster that only reads;
* `deleteCluster_ensures` — deleting a cluster with its contexts.
-/

open Op

namespace Deployment

variable {w : World}

/-! ### Applying, up to the request -/

/-- What is read before a context is built: the ledger and the resources. -/
def survey (p c : String) : Op (Ledger × List Rendered) := do
  let (l, _) ← checkCluster p c .apply
  Op.requireSynchronizer
  let networks ← Intent.getAll Network p c
  let providerNetworks ← Intent.getAll ProviderNetwork p c
  return (l, render networks ++ render providerNetworks)

/-- Applying up to the request, where what was built stays after a failure. -/
def draft (p c : String) : Op String := do
  let (l, resources) ← survey p c
  let id ← Op.mintId
  build p c l resources id
  return id

/-- Applying is the draft with its cleanup. -/
theorem commit_eq (p c : String) :
    commit p c = (do
      let (l, resources) ← survey p c
      let id ← Op.mintId
      match ← (build p c l resources id).attempt with
      | .ok _ => return id
      | .error e =>
        let e ← cleanUp (.ofId id) id e
        throw e : Op String) := by
  simp only [survey, bind_assoc, pure_bind]
  rfl

/-- The ledger and the resources are those of a cluster whose intents are not applied. -/
structure Surveyed (d : DocumentStore) (p c : String) (l : Ledger) (resources : List Rendered) :
    Prop where
  provider_ne : p ≠ ""
  cluster_ne : c ≠ ""
  ledger : d.Filed → d.ledger? p c = some l
  notApplied : l.current ≠ .ok .applied
  intents : ∃ (networks : List Network) (providerNetworks : List ProviderNetwork),
    (d.find Registry.store (Intent.key Network p c "") (Intent.tag Network)).mapM
        (Intent.ofJson? (α := Network)) = some networks ∧
      (d.find Registry.store (Intent.key ProviderNetwork p c "")
          (Intent.tag ProviderNetwork)).mapM (Intent.ofJson? (α := ProviderNetwork))
        = some providerNetworks ∧
      resources = render networks ++ render providerNetworks

/-- What is surveyed is read from the documents. -/
theorem survey_reads (p c : String) :
    (survey p c).Reads fun w found => Surveyed w.documents p c found.1 found.2 := by
  unfold survey
  have hgate := checkCluster_open p c (show ClusterOperation.apply ≠ .terminate by decide)
  refine hgate.step fun (l, state) => ?_
  refine requireSynchronizer_readOnly.step fun _ => ?_
  refine (Intent.getAll_reads p c).step fun networks => ?_
  refine (Intent.getAll_reads p c).step fun providerNetworks => reads_pure fun w => ?_
  rintro ⟨-, -, hprovider⟩ ⟨-, -, hnetworks⟩ - ⟨hp, hc, hl, hcurrent⟩
  exact ⟨hp, hc, hl, hcurrent, networks, providerNetworks, hnetworks, hprovider, rfl⟩

/-- The names of the cluster and of the resources in a context can be words of keys. -/
def Wordy (p c : String) (resources : List Rendered) : Prop :=
  Handle.IsWord (contextClusterName p c) ∧ ∀ r ∈ resources, Handle.IsWord r.name

/-- A context is built and recorded; or it is built up to some node, and nothing is recorded. -/
theorem build_ensures (p c : String) (l : Ledger) (resources : List Rendered) (id : String)
    (hw : w.Faithful) :
    (build p c l resources id).Ensures w fun r w' =>
      (∃ e, r = .error e) ∧ (∃ n, (w.withContexts
          (w.contexts.builtUpTo id (contextClusterName p c) resources n)).Quiet w') ∨
        r = .ok () ∧ Wordy p c resources ∧
          ((w.withContexts (w.contexts.built id (contextClusterName p c) resources)).withDocuments
            (w.documents.withLedger p c (l.append .applied id w.now))).Quiet w' := by
  unfold build
  refine (buildContext_puts id (contextClusterName p c) resources w hw).bind ?_ ?_
  · intro u w₁ hout
    obtain ⟨n, hquiet, hok⟩ := hout
    obtain ⟨-, hall, hcluster, hnames⟩ := hok u rfl
    rw [List.take_of_length_le hall, ← ContextStore.built] at hquiet
    refine (record_atomic p c l .applied id w₁ hquiet.faithful).mono ?_
    intro r w' hout
    rcases hout with ⟨e, rfl, hquiet'⟩ | ⟨a, d, rfl, ⟨-, -, -, hd⟩, hquiet'⟩
    · -- all nodes are stored, but the ledger could not be written
      rw [ContextStore.built_eq] at hquiet
      exact .inl ⟨⟨e, rfl⟩, _, hquiet.trans hquiet'⟩
    · simp only [World.calm_documents, World.calm_now, hquiet.documents, hquiet.now,
        World.withContexts_documents] at hd
      subst hd
      have hwordy : Wordy p c resources := ⟨(Handle.validateName_eq_ok_iff.1 hcluster).2.1,
        fun r hr => (Handle.validateName_eq_ok_iff.1 (hnames r hr)).2.1⟩
      exact .inr ⟨rfl, hwordy, (hquiet.withDocuments _).trans hquiet'⟩
  · intro e w₁ hout
    obtain ⟨n, hquiet, -⟩ := hout
    rw [← ContextStore.builtUpTo] at hquiet
    exact .inl ⟨⟨e, rfl⟩, n, hquiet⟩

/-- A failure is reported as it is if the context could be deleted or has no root. -/
theorem cleanUp_ensures (id : String) (e : Failure) (hw : w.Faithful) :
    (cleanUp (.ofId id) id e).Ensures w fun r w' =>
      r = .ok e ∧ (w.contexts.get? (Handle.root id).key = none ∧ w.Quiet w' ∨
          (w.withContexts (w.contexts.eraseScan (Handle.root id).key)).Quiet w') ∨
        (∃ message, r = .ok (.cleanupRequired id e message)) ∧ w.Quiet w' := by
  unfold cleanUp
  refine (AppContext.delete_ensures id hw).attempt_bind ?_
  intro r w₁ hout
  rcases hout with ⟨f, rfl, hquiet, hnone⟩ | ⟨rfl, -, hquiet⟩
  · cases f with
    | notFound entity name => exact ensures_pure (.inl ⟨rfl, .inl ⟨hnone entity name rfl, hquiet⟩⟩)
    | _ => exact ensures_pure (.inr ⟨⟨_, rfl⟩, hquiet⟩)
  · exact ensures_pure (.inl ⟨rfl, .inr hquiet⟩)

/-- What applying comes to, up to the request. A failure is that of the draft. -/
inductive Committed (w : World) (p c : String) : Except Failure String → World → Prop
  /-- No context was begun. -/
  | refused {e : Failure} {w' : World} (hdraft : ((draft p c).run w).1 = .error e)
      (hquiet : w.Quiet w') : Committed w p c (.error e) w'
  /-- A context was begun and taken away again, if there was anything of it. -/
  | undone {e : Failure} {w' : World} {s : ContextStore}
      (hdraft : ((draft p c).run w).1 = .error e)
      (hs : s = w.contexts ∨ ∃ resources n,
        s = (w.contexts.builtUpTo (w.contextId w.minted) (contextClusterName p c) resources
          n).eraseScan (Handle.root (w.contextId w.minted)).key)
      (hquiet : (w.minting.withContexts s).Quiet w') : Committed w p c (.error e) w'
  /-- A part of a context stays, and its id is named. -/
  | left {e : Failure} {w' : World} {resources : List Rendered} {n : Nat} {message : String}
      (hdraft : ((draft p c).run w).1 = .error e)
      (hquiet : (w.minting.withContexts (w.contexts.builtUpTo (w.contextId w.minted)
        (contextClusterName p c) resources n)).Quiet w') :
      Committed w p c (.error (.cleanupRequired (w.contextId w.minted) e message)) w'
  /-- The context is built and recorded. -/
  | recorded {l : Ledger} {resources : List Rendered} {w' : World}
      (hsurvey : Surveyed w.documents p c l resources) (hwordy : Wordy p c resources)
      (hquiet : ((w.minting.withContexts (w.contexts.built (w.contextId w.minted)
        (contextClusterName p c) resources)).withDocuments (w.documents.withLedger p c
          (l.append .applied (w.contextId w.minted) w.now))).Quiet w') :
      Committed w p c (.ok (w.contextId w.minted)) w'

/-- What was built of a context is taken away again, or the failure names it. -/
theorem cleanUp_builtUpTo {p c : String} {e : Failure} {resources : List Rendered} {n : Nat}
    {w' : World} (hdraft : ((draft p c).run w).1 = .error e)
    (hpart : (w.minting.withContexts (w.contexts.builtUpTo (w.contextId w.minted)
      (contextClusterName p c) resources n)).Quiet w') :
    (do
      let e ← cleanUp (.ofId (w.contextId w.minted)) (w.contextId w.minted) e
      throw e : Op String).Ensures w' (Committed w p c) := by
  have hclean := cleanUp_ensures (w.contextId w.minted) e hpart.faithful
  rw [hpart.contexts, World.withContexts_contexts] at hclean
  refine hclean.bind ?_ ?_
  · intro f w₁ hout
    rcases hout with ⟨hf, ⟨hnone, hquiet⟩ | hquiet⟩ | ⟨⟨message, hf⟩, hquiet⟩
    · -- The root comes first, so that without a root nothing was stored.
      cases hf
      rcases ContextStore.builtUpTo_eq_or_rooted w.contexts (w.contextId w.minted)
        (contextClusterName p c) resources n with hsame | hrooted
      · rw [hsame] at hpart
        exact ensures_throw (.undone hdraft (.inl rfl) (hpart.trans hquiet))
      · exact absurd (hnone.symm.trans hrooted) (by simp)
    · -- All of it was deleted.
      cases hf
      exact ensures_throw
        (.undone hdraft (.inr ⟨resources, n, rfl⟩) ((hpart.withContexts _).trans hquiet))
    · -- It could not be deleted.
      cases hf
      exact ensures_throw (.left hdraft (hpart.trans hquiet))
  · intro f w₁ hout
    rcases hout with ⟨hf, -⟩ | ⟨⟨message, hf⟩, -⟩
    · cases hf
    · cases hf

/-- Applying, up to the request, does nothing, or all of it, or leaves a context that it names. -/
theorem commit_ensures (p c : String) (hw : w.Faithful) :
    (commit p c).Ensures w (Committed w p c) := by
  -- The outcomes are named, since a failure of the operation is told as that of the draft.
  have hsurvey := survey_reads p c w hw
  rcases hrun : (survey p c).run w with ⟨r₁, w₁⟩
  rw [Ensures, hrun] at hsurvey
  have hquiet₁ : w.Quiet w₁ := hsurvey.1
  have hfound : ∀ found, r₁ = .ok found → Surveyed w.documents p c found.1 found.2 := hsurvey.2
  have hnext : w₁.contextId w₁.minted = w.contextId w.minted := hquiet₁.nextId
  rw [Ensures, commit_eq, run_bind, hrun]
  cases r₁ with
  | error e =>
    have hdraft : (draft p c).run w = (.error e, w₁) := by rw [draft, run_bind, hrun]
    exact .refused (congrArg Prod.fst hdraft) hquiet₁
  | ok found =>
    obtain ⟨l, resources⟩ := found
    have hbuild := build_ensures p c l resources (w.contextId w.minted) hquiet₁.minting.faithful
    rcases hrun₂ : (build p c l resources (w.contextId w.minted)).run w₁.minting with ⟨r₂, w₂⟩
    rw [Ensures, hrun₂, World.minting_contexts, World.minting_documents, World.minting_now,
      hquiet₁.contexts, hquiet₁.documents, hquiet₁.now] at hbuild
    simp only [run_bind, run_mintId, hnext, run_attempt, hrun₂]
    rcases hbuild with ⟨⟨e, rfl⟩, n, hquiet₂⟩ | ⟨rfl, hwordy, hquiet₂⟩
    · have hdraft : ((draft p c).run w).1 = .error e := by
        simp only [draft, run_bind, hrun, run_mintId, hnext, hrun₂]
      have hpart : (w.minting.withContexts (w.contexts.builtUpTo (w.contextId w.minted)
          (contextClusterName p c) resources n)).Quiet w₂ :=
        (hquiet₁.minting.withContexts _).trans hquiet₂
      exact cleanUp_builtUpTo hdraft hpart
    · have hall := ((hquiet₁.minting.withContexts _).withDocuments _).trans hquiet₂
      exact .recorded (hfound _ rfl) hwordy hall

/-! ### Terminating -/

/-- Terminating up to the request: the ledger and the context that is loaded. -/
def retrieve (p c : String) : Op (Ledger × AppContext) := do
  let (l, _) ← checkCluster p c .terminate
  Op.requireSynchronizer
  let context ← AppContext.fromId l.lastId
  return (l, context)

/-- What is retrieved is the last context of an applied cluster, and its root is there. -/
theorem retrieve_reads (p c : String) :
    (retrieve p c).Reads fun w found =>
      (w.documents.Filed → w.documents.ledger? p c = some found.1) ∧
        found.1.current = .ok .applied ∧ found.2 = AppContext.ofId found.1.lastId ∧
        w.contexts.Rooted found.1.lastId ∧ p ≠ "" ∧ c ≠ "" := by
  unfold retrieve
  refine (checkCluster_reads p c .terminate).step fun (l, state) => ?_
  refine requireSynchronizer_readOnly.step fun _ => ?_
  refine (AppContext.fromId_reads l.lastId).step fun context => reads_pure fun w => ?_
  rintro ⟨rfl, hrooted⟩ - ⟨hp, hc, hl, hcurrent, hstate⟩
  -- Only an applied cluster passes the check.
  rw [hstate.2 rfl] at hcurrent
  exact ⟨hl, hcurrent, rfl, hrooted, hp, hc⟩

/-- Terminating up to the deletion: the context whose termination is recorded. -/
def revoke (p c : String) (cancellation : Cancellation) : Op AppContext := do
  let (l, context) ← retrieve p c
  Op.ask .uninstall l.lastId cancellation
  record p c l .terminated l.lastId
  return context

/-- A context is deleted, if that is possible, once its termination is recorded. -/
theorem terminate_eq_revoke (p c : String) (cancellation : Cancellation) :
    terminate p c cancellation = (do
      let context ← revoke p c cancellation
      let _ ← context.delete.attempt
      return () : Op Unit) := by
  simp only [revoke, retrieve, bind_assoc, pure_bind]
  rfl

/-- The termination of the last context is recorded, or the stores are left as they are. -/
theorem revoke_ensures (p c : String) (cancellation : Cancellation) (hw : w.Faithful) :
    (revoke p c cancellation).Ensures w fun r w' =>
      (∃ e, r = .error e) ∧ w'.stores = w.stores ∨
        ∃ l, p ≠ "" ∧ c ≠ "" ∧ (w.documents.Filed → w.documents.ledger? p c = some l) ∧
          l.current = .ok .applied ∧ r = .ok (AppContext.ofId l.lastId) ∧ w'.Faithful ∧
          w'.stores = { w.stores with
            documents := w.documents.withLedger p c (l.append .terminated l.lastId w.now) } := by
  unfold revoke
  refine (retrieve_reads p c w hw).bind ?_ fun e w₁ hout => .inl ⟨⟨e, rfl⟩, hout.1.stores⟩
  rintro ⟨l, context⟩ w₁ ⟨hquiet₁, hretrieved⟩
  obtain ⟨hl, hcurrent, hcontext, -, hp, hc⟩ := hretrieved _ rfl
  obtain rfl : context = AppContext.ofId l.lastId := hcontext
  refine (ask_ensures .uninstall l.lastId cancellation).bind ?_ ?_
  · intro u w₂ hout
    obtain ⟨hstores₂, hfaults₂, hnow₂⟩ := hout
    -- The request has changed nothing in the stores.
    have hstores₂ := hstores₂.trans hquiet₁.stores
    have hdocuments₂ : w₂.documents = w.documents := congrArg Stores.documents hstores₂
    have hw₂ : w₂.Faithful := by
      rw [World.Faithful, hfaults₂]
      exact hquiet₁.faithful
    refine (record_atomic p c l .terminated l.lastId w₂ hw₂).bind ?_ ?_
    · intro v w₃ hout
      rcases hout with ⟨e, he, -⟩ | ⟨a, d, -, ⟨-, -, -, hd⟩, hquiet₃⟩
      · cases he
      rw [World.calm_documents, World.calm_now, hdocuments₂, hnow₂, hquiet₁.now] at hd
      subst hd
      refine ensures_pure (.inr ⟨l, hp, hc, hl, hcurrent, rfl, hquiet₃.faithful, ?_⟩)
      rw [hquiet₃.stores, World.stores_withDocuments, hstores₂]
    · -- the termination could not be recorded
      intro e w₃ hout
      rcases hout with ⟨e', -, hquiet₃⟩ | ⟨a, d, he, -⟩
      · exact .inl ⟨⟨e, rfl⟩, hquiet₃.stores.trans hstores₂⟩
      · cases he
  · intro e w₂ hout
    exact .inl ⟨⟨e, rfl⟩, hout.1.trans hquiet₁.stores⟩

/-- Terminating does nothing and fails, or it records the termination of the last context. Whether
    the context could be deleted does not matter. -/
theorem terminate_ensures (p c : String) (cancellation : Cancellation) (hw : w.Faithful) :
    (terminate p c cancellation).Ensures w fun r w' =>
      (∃ e, r = .error e) ∧ w'.stores = w.stores ∨
        ∃ l s, p ≠ "" ∧ c ≠ "" ∧ (w.documents.Filed → w.documents.ledger? p c = some l) ∧
          l.current = .ok .applied ∧ r = .ok () ∧
          (s = w.contexts ∨ s = w.contexts.eraseScan (Handle.root l.lastId).key) ∧
          w'.stores = { w.stores with
            documents := w.documents.withLedger p c (l.append .terminated l.lastId w.now),
            contexts := s } := by
  rw [terminate_eq_revoke]
  refine (revoke_ensures p c cancellation hw).bind ?_ ?_
  · intro context w₁ hout
    rcases hout with ⟨⟨e, he⟩, -⟩ | ⟨l, hp, hc, hl, hcurrent, hcontext, hw₁, hstores₁⟩
    · cases he
    obtain rfl : context = AppContext.ofId l.lastId := Except.ok.inj hcontext
    have hcontexts₁ : w₁.contexts = w.contexts := congrArg Stores.contexts hstores₁
    -- A failure of the deletion is passed over.
    refine (AppContext.delete_ensures l.lastId hw₁).attempt_bind ?_
    intro r w₂ hout
    rcases hout with ⟨e, -, hquiet₂, -⟩ | ⟨-, -, hquiet₂⟩
    · refine ensures_pure (.inr ⟨l, _, hp, hc, hl, hcurrent, rfl, .inl rfl, ?_⟩)
      rw [hquiet₂.stores, hstores₁]
      rfl
    · refine ensures_pure (.inr ⟨l, _, hp, hc, hl, hcurrent, rfl, .inr rfl, ?_⟩)
      rw [hquiet₂.stores, World.stores_withContexts, hstores₁, hcontexts₁]
  · intro e w₁ hout
    rcases hout with ⟨-, hstores₁⟩ | ⟨l, -, -, -, -, he, -⟩
    · exact .inl ⟨⟨e, rfl⟩, hstores₁⟩
    · cases he

end Deployment

/-! ### Deleting a cluster -/

/-- What is read before a cluster is deleted: the contexts of its ledger that are left. -/
def leftovers (p c : String) : Op (List AppContext) := do
  let (l, _) ← checkCluster p c .deleteCluster
  finishedContexts (contextClusterName p c) l.ids

/-- First the contexts that are left are deleted, and then the cluster. -/
theorem deleteCluster_eq (p c : String) :
    deleteCluster p c = (do
      let live ← leftovers p c
      deleteContexts live
      Registry.remove (Registry.clusterKey p c) : Op Unit) := by
  simp only [leftovers, bind_assoc]
  rfl

/-- A cluster that may be deleted, and the contexts of its ledger that still have a root. -/
structure Leftovers (d : DocumentStore) (s : ContextStore) (p c : String) (l : Ledger)
    (live : List String) : Prop where
  provider_ne : p ≠ ""
  cluster_ne : c ≠ ""
  ledger : d.Filed → d.ledger? p c = some l
  idle : l.current = .ok .created ∨ l.current = .ok .terminated
  live_subset : live ⊆ l.ids
  finished : ∀ id ∈ live, s.Finished id
  gone : ∀ id ∈ l.ids, id ∉ live → s.get? (Handle.root id).key = none

/-- A cluster that may be deleted has no intents applied. -/
theorem Leftovers.notApplied {d : DocumentStore} {s : ContextStore} {p c : String} {l : Ledger}
    {live : List String} (h : Leftovers d s p c l live) : l.current ≠ .ok .applied := by
  rcases h.idle with hidle | hidle <;> simp [hidle]

/-- The contexts that are left of a cluster are read from both stores. -/
theorem leftovers_reads (p c : String) :
    (leftovers p c).Reads fun w found => ∃ l live,
      found = live.map AppContext.ofId ∧ Leftovers w.documents w.contexts p c l live := by
  refine (checkCluster_reads p c .deleteCluster).step fun (l, state) => ?_
  refine (finishedContexts_reads _ l.ids).mono ?_
  rintro w found ⟨live, rfl, hsub, hfinished, hgone⟩ ⟨hp, hc, hl, hcurrent, hstate⟩
  refine ⟨l, live, rfl, hp, hc, hl, ?_, hsub, hfinished, hgone⟩
  -- The gate lets no applied cluster pass.
  cases state with
  | created => exact .inl hcurrent
  | applied => exact absurd (hstate.1 rfl) (by decide)
  | terminated => exact .inr hcurrent

/-- A cluster is deleted after the contexts of its ledger that still have a root. Some of these may
    be gone after a failure. -/
theorem deleteCluster_ensures (p c : String) {w : World} (hw : w.Faithful) :
    (deleteCluster p c).Ensures w fun r w' =>
      (∃ e, r = .error e) ∧ w.Quiet w' ∨
        ∃ (l : Ledger) (live : List String), Leftovers w.documents w.contexts p c l live ∧
          ((∃ e, r = .error e) ∧
              (∃ done, done ⊆ live ∧ (w.withContexts (w.contexts.sweep done)).Quiet w') ∨
            r = .ok () ∧ ((w.withContexts (w.contexts.sweep live)).withDocuments
              (w.documents.remove Registry.store (Registry.clusterKey p c))).Quiet w') := by
  rw [deleteCluster_eq]
  refine (leftovers_reads p c w hw).bind ?_ fun e w₁ hout => .inl ⟨⟨e, rfl⟩, hout.1⟩
  intro found w₁ hout
  obtain ⟨hquiet₁, hfound⟩ := hout
  obtain ⟨l, live, rfl, hleftovers⟩ := hfound found rfl
  refine (deleteContexts_ensures live hquiet₁.faithful).bind ?_ ?_
  · -- all contexts are deleted, and the cluster comes last
    intro u w₂ hout
    obtain ⟨done, rest, rfl, hquiet₂, hok⟩ := hout
    obtain rfl : rest = [] := (hok.resolve_left nofun).2
    rw [List.append_nil] at hleftovers
    have hquiet₂ := (hquiet₁.withContexts _).trans hquiet₂
    rw [hquiet₁.contexts] at hquiet₂
    refine (remove_atomic _ w₂ hquiet₂.faithful).mono ?_
    intro r w₃ hout
    rcases hout with ⟨e, rfl, hquiet₃⟩ | ⟨a, d, rfl, hd, hquiet₃⟩
    · exact .inr ⟨l, done, hleftovers, .inl ⟨⟨e, rfl⟩, done, List.Subset.refl _, hquiet₂.trans hquiet₃⟩⟩
    · rw [World.calm_documents, hquiet₂.documents] at hd
      subst hd
      exact .inr ⟨l, done, hleftovers, .inr ⟨rfl, (hquiet₂.withDocuments _).trans hquiet₃⟩⟩
  · -- a context could not be deleted, and those before it are gone
    intro e w₂ hout
    obtain ⟨done, rest, rfl, hquiet₂, -⟩ := hout
    have hquiet₂ := (hquiet₁.withContexts _).trans hquiet₂
    rw [hquiet₁.contexts] at hquiet₂
    exact .inr ⟨l, _, hleftovers, .inl ⟨⟨e, rfl⟩, done, List.subset_append_left _ _, hquiet₂⟩⟩

end NetIntent
