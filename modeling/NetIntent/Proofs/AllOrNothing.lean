import NetIntent.Proofs.Installed

namespace NetIntent

/-!
# Applying is all or nothing

Up to the request to install, applying the intents of a cluster does all of its work or none: after
a failure the stores are as they were, apart from a context that could not be cleaned up and that
the failure names. Once the request is made, the work is done whatever comes of the request.

* `Deployment.Failed`, `Deployment.Completed` — what is left of the two;
* `Committed.failed`, `Committed.completed` — a failure before the request leaves the first, and a
  success the second;
* `run_apply_of_error`, `stores_apply_of_ok` — the request comes after a success only, and changes
  nothing in the stores.
-/

open Op Registry

/-- What is built under an id that nothing was stored under can be taken away without a trace. -/
theorem ContextStore.Vacant.eraseScan_builtUpTo {s : ContextStore} {id : String}
    (h : s.Vacant id) (cluster : String) (resources : List Rendered) (n : Nat) :
    (s.builtUpTo id cluster resources n).eraseScan (Handle.root id).key = s := by
  refine OrderedMap.ext_get? fun key => ?_
  rw [OrderedMap.get?_eraseScan]
  by_cases hkey : Text.beginsWith (Handle.root id).key key = true
  · -- what belongs to the context is gone, as it was before
    rw [if_pos hkey]
    exact (h key hkey).symm
  · rw [if_neg hkey]
    exact get?_builtUpTo_of_foreign s n hkey

namespace Deployment

/-- Nothing came of applying: no request was made, the documents are as they were, and so are the
    contexts, or the failure names the context that has been left. In either case it tells of the
    failure of the draft. -/
structure Failed (w w' : World) (p c : String) (e : Failure) : Prop where
  synchronizer : w'.synchronizer = w.synchronizer
  documents : w'.documents = w.documents
  contexts : ∃ first, ((draft p c).run w).1 = .error first ∧
    (e = first ∧ w'.contexts = w.contexts ∨
      (∃ message, e = .cleanupRequired (w.contextId w.minted) first message) ∧
        ∀ key, ¬ Text.beginsWith (Handle.root (w.contextId w.minted)).key key = true →
          w'.contexts.get? key = w.contexts.get? key)

/-- The intents of a cluster are applied: the ledger has one more entry, with a fresh id, no other
    document has changed, and the context with this id is complete. -/
structure Completed (w : World) (s : Stores) (p c id : String) : Prop where
  fresh : id = w.contextId w.minted
  ledger : ∃ l, w.documents.ledger? p c = some l ∧ l.current ≠ .ok .applied ∧
    s.documents.ledger? p c = some (l.append .applied id w.now)
  documents : ∀ store key tag,
    ¬ (store = Registry.store ∧ key = clusterKey p c ∧ tag = ledgerTag) →
    s.documents.value? store key tag = w.documents.value? store key tag
  shown : ∃ networks providerNetworks, s.Shows p c id networks providerNetworks
  contexts : ∀ key, ¬ Text.beginsWith (Handle.root id).key key = true →
    s.contexts.get? key = w.contexts.get? key

variable {w w' : World} {p c : String}

/-- A failure before the request leaves nothing but what it names. -/
theorem Committed.failed {e : Failure} (h : Committed w p c (.error e) w')
    (hvacant : w.contexts.Vacant (w.contextId w.minted)) : Failed w w' p c e := by
  cases h with
  | refused hdraft hquiet =>
    obtain ⟨faults, -, rfl⟩ := hquiet
    exact ⟨rfl, rfl, e, hdraft, .inl ⟨rfl, rfl⟩⟩
  | undone hdraft hs hquiet =>
    obtain ⟨faults, -, rfl⟩ := hquiet
    refine ⟨rfl, rfl, e, hdraft, .inl ⟨rfl, ?_⟩⟩
    rcases hs with rfl | ⟨resources, n, rfl⟩
    · rfl
    · exact hvacant.eraseScan_builtUpTo _ _ _
  | @left first _ resources n message hdraft hquiet =>
    obtain ⟨faults, -, rfl⟩ := hquiet
    refine ⟨rfl, rfl, first, hdraft, .inr ⟨⟨message, rfl⟩, fun key hkey => ?_⟩⟩
    exact ContextStore.get?_builtUpTo_of_foreign _ _ hkey

/-- A success before the request leaves everything done. -/
theorem Committed.completed {id : String} (h : Committed w p c (.ok id) w')
    (hs : w.stores.Installed) (hids : ValidIds w.contextId) (hnow : w.now.IsValid) :
    Completed w w'.stores p c id := by
  cases h with
  | @recorded l resources _ hsurvey hwordy hquiet =>
    have hsound : w.documents.Sound := hs.chronicled.sound
    have hl := hsurvey.ledger hsound.filed
    have hdocuments : w'.stores.documents
        = w.documents.withLedger p c (l.append .applied (w.contextId w.minted) w.now) :=
      hquiet.documents
    have hcontexts : w'.stores.contexts
        = w.contexts.built (w.contextId w.minted) (contextClusterName p c) resources :=
      hquiet.contexts
    constructor
    · rfl
    -- The ledger grows by one entry.
    · refine ⟨l, hl, hsurvey.notApplied, ?_⟩
      rw [hdocuments, DocumentStore.ledger?_withLedger ((hsound.timely hl).append _ _ hnow),
        if_pos ⟨rfl, rfl⟩]
    -- All other documents are as they were.
    · intro store key tag hother
      rw [hdocuments, DocumentStore.withLedger, DocumentStore.value?_insert, if_neg hother]
    -- The new context holds what is declared, and other contexts are left alone.
    · obtain ⟨networks, providerNetworks, hshown⟩ := hs.recording hids w.now hsurvey hwordy
      refine ⟨networks, providerNetworks, ?_, ?_, ?_⟩
      · rw [hdocuments]
        exact hshown.declared
      · rw [hdocuments]
        exact hshown.providerDeclared
      · rw [hcontexts]
        exact hshown.nodes
    · intro key hkey
      rw [hcontexts]
      exact ContextStore.get?_built_of_foreign _ hkey

/-! ### The request -/

/-- If nothing came of applying up to the request, then no request is made. -/
theorem run_apply_of_error {e : Failure} (h : (commit p c).run w = (.error e, w'))
    (cancellation : Cancellation) : (apply p c cancellation).run w = (.error e, w') := by
  rw [apply, run_bind, h]

/-- The request changes nothing in the stores. -/
theorem stores_apply_of_ok {id : String} (h : (commit p c).run w = (.ok id, w'))
    (cancellation : Cancellation) : ((apply p c cancellation).run w).2.stores = w'.stores := by
  have hask : (do
      Op.ask .install id cancellation
      return id : Op String).Ensures w' fun _ w'' => w''.stores = w'.stores := by
    refine (ask_ensures .install id cancellation).bind ?_ ?_
    · exact fun _ _ hstores => hstores.1
    · exact fun _ _ hstores => hstores.1
  rw [apply, run_bind, h]
  exact hask

end Deployment

namespace History

open Deployment

variable {ids : Nat → String} {synchronizer : Option Synchronizer}

/-- **Applying is all or nothing.** In every state of every run and under all circumstances, if
    applying fails before the request to install, then it has left nothing behind but a context
    that its failure names. If it comes to the request, then the context is complete and recorded,
    whatever the outcome. -/
theorem apply_all_or_nothing (hids : ValidIds ids) (steps : List Step)
    (circumstances : Circumstances) (p c : String) (cancellation : Cancellation) :
    (∀ e,
      ((commit p c).run ((after ids synchronizer steps).world.under circumstances)).1 = .error e →
      ((Deployment.apply p c cancellation).run
        ((after ids synchronizer steps).world.under circumstances)).1 = .error e ∧
      Failed ((after ids synchronizer steps).world.under circumstances)
        ((Deployment.apply p c cancellation).run
          ((after ids synchronizer steps).world.under circumstances)).2 p c e) ∧
    ∀ id, ((commit p c).run ((after ids synchronizer steps).world.under circumstances)).1 = .ok id →
      Completed ((after ids synchronizer steps).world.under circumstances)
        ((Deployment.apply p c cancellation).run
          ((after ids synchronizer steps).world.under circumstances)).2.stores p c id := by
  obtain ⟨h, hsupply⟩ := @installed_after ids synchronizer hids steps
  generalize hworld : (after ids synchronizer steps).world.under circumstances = w
  have hw : w.Faithful := hworld ▸ World.faithful_under _ circumstances
  have hnow : w.now.IsValid := hworld ▸ circumstances.now.2
  have hinstalled : w.stores.Installed := hworld ▸ h
  have hvalid : ValidIds w.contextId := by
    rw [← hworld]
    show ValidIds (after ids synchronizer steps).stores.contextId
    rw [hsupply]
    exact hids
  have hcommitted : Committed w p c ((commit p c).run w).1 ((commit p c).run w).2 :=
    commit_ensures p c hw
  -- What comes after the request depends on the outcome before it only.
  rcases hrun : (commit p c).run w with ⟨r, w'⟩
  rw [hrun] at hcommitted
  constructor
  · rintro e rfl
    rw [run_apply_of_error hrun]
    exact ⟨rfl, hcommitted.failed (hinstalled.vacant w.minted (Nat.le_refl _))⟩
  · rintro id rfl
    rw [stores_apply_of_ok hrun]
    exact hcommitted.completed hinstalled hvalid hnow

/-- A run that declares a network on a cluster. -/
def oneNetwork : List Step :=
  [⟨.createProvider ⟨{ name := "p" }⟩, {}⟩,
    ⟨.createCluster "p" ⟨{ name := "c" }⟩ {}, {}⟩,
    ⟨.createNetwork ⟨{ name := "n" }, "ovn4nfv", []⟩ "p" "c" false, {}⟩]

/-- Circumstances in which no resource can be stored and no context deleted. -/
def storeFails : Circumstances :=
  { outages := [{ method := .put, holds := "/resource/" }, { method := .deleteAll }] }

/-- Circumstances in which every request is declined. -/
def requestFails : Circumstances := { answer := .reject }

/-- One network is applied where neither its resource can be stored nor the context deleted, and
    where the request is declined. -/
theorem apply_all_or_nothing_oneNetwork :
    Failed ((after unaryId (some {}) oneNetwork).world.under storeFails)
      ((Deployment.apply "p" "c" .never).run
        ((after unaryId (some {}) oneNetwork).world.under storeFails)).2 "p" "c"
      (.cleanupRequired "a" (.store "put" "injected")
        "Store error during 'delete_all': injected") ∧
    Completed ((after unaryId (some {}) oneNetwork).world.under requestFails)
      ((Deployment.apply "p" "c" .never).run
        ((after unaryId (some {}) oneNetwork).world.under requestFails)).2.stores "p" "c" "a" := by
  constructor
  · have hcommit : ((commit "p" "c").run
        ((after unaryId (some {}) oneNetwork).world.under storeFails)).1
          = .error (.cleanupRequired "a" (.store "put" "injected")
              "Store error during 'delete_all': injected") := by
      decide +kernel
    exact ((apply_all_or_nothing unaryId_valid oneNetwork storeFails "p" "c" .never).1 _ hcommit).2
  · have hcommit : ((commit "p" "c").run
        ((after unaryId (some {}) oneNetwork).world.under requestFails)).1 = .ok "a" := by
      decide +kernel
    exact (apply_all_or_nothing unaryId_valid oneNetwork requestFails "p" "c" .never).2 _ hcommit

end History

end NetIntent
