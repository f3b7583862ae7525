import NetIntent.Proofs.Outcomes
import NetIntent.Proofs.Writes

namespace NetIntent

/-!
# Terminating is safe to repeat

A termination asks the synchronizer, then records, and then deletes. Each of the three may fail. A
failure of the first two leaves both stores as they were, so that the next attempt starts from the
same place; a failure of the last one is passed over, and leaves the whole context.

* `Deployment.Retryable` — what a termination leaves that failed;
* `Deployment.Concluded` — what a termination leaves that succeeded;
* `Stores.Installed.run_retrieve` — the last context of an applied cluster can be loaded;
* `History.terminate_repeatable` — a termination comes to one of the two in every state of every
  run.
-/

open Op Registry

namespace Deployment

/-- After a termination that failed, both stores are as before; and while the stores answer, another
    attempt comes to the same ledger and the same context. -/
structure Retryable (w w' : World) (p c : String) : Prop where
  stores : w'.stores = w.stores
  again : ∀ l, w.documents.ledger? p c = some l → l.current = .ok .applied →
    ∀ v : World, v.Undisturbed → v.synchronizer.isSome = true → v.stores = w'.stores →
      (retrieve p c).run v = (.ok (l, .ofId l.lastId), v)

/-- After a termination that succeeded, the ledger ends with the termination of the context that was
    applied last, and no other document is changed. -/
structure Concluded (w w' : World) (p c : String) (l : Ledger) (id : String) : Prop where
  before : w.documents.ledger? p c = some l
  applied : ∃ earlier time, l.entries = earlier ++ [⟨.applied, id, time⟩]
  after : w'.documents.ledger? p c = some (l.append .terminated id w.now)
  elsewhere : ∀ store key tag, ¬ (store = Registry.store ∧ key = clusterKey p c ∧ tag = ledgerTag) →
    w'.documents.value? store key tag = w.documents.value? store key tag

end Deployment

/-! ### Before the request -/

/-- A ledger whose state is that its intents are applied ends with the entry that says so. -/
theorem Ledger.exists_applied {l : Ledger} (h : l.current = .ok .applied) :
    ∃ earlier time, l.entries = earlier ++ [⟨.applied, l.lastId, time⟩] := by
  rcases List.eq_nil_or_concat' l.entries with hnil | ⟨earlier, ⟨state, id, time⟩, hlast⟩
  · simp [Ledger.current, hnil] at h
  · obtain rfl : state = .applied := by simpa [Ledger.current, hlast] using h
    have hid : l.lastId = id := by simp [Ledger.lastId, hlast]
    exact ⟨earlier, time, hid ▸ hlast⟩

namespace Stores

variable {s : Stores} {p c : String} {l : Ledger}

/-- A context that is shown has its root. -/
theorem Shows.rooted {id : String} {networks : List Network}
    {providerNetworks : List ProviderNetwork} (h : s.Shows p c id networks providerNetworks) :
    s.contexts.Rooted id :=
  h.nodes.get?_of_mem (n := (Handle.root id, .string id))
    (mem_contextNodes.2 (.inl List.mem_cons_self)) rfl

/-- While the stores answer, the last context of an applied cluster can be loaded. -/
theorem Installed.run_retrieve (hs : s.Installed) (hids : ValidIds s.contextId) (hp : p ≠ "")
    (hc : c ≠ "") (hl : s.documents.ledger? p c = some l) (hcurrent : l.current = .ok .applied)
    {v : World} (hv : v.Undisturbed) (hsync : v.synchronizer.isSome = true) (hstores : v.stores = s) :
    (Deployment.retrieve p c).run v = (.ok (l, .ofId l.lastId), v) := by
  subst hstores
  obtain ⟨networks, providerNetworks, hshown⟩ := hs.shown p c l hl hcurrent
  obtain ⟨n, -, hid⟩ := hs.chronicled.minted p c l hl _ (hs.chronicled.lastId_mem hl hcurrent)
  exact Deployment.run_retrieve hv hs.chronicled.sound.filed hp hc hl hcurrent hsync
    (hid ▸ hids.valid n) hshown.rooted

end Stores

/-! ### The whole termination -/

namespace Deployment

variable {w w₁ : World} {p c : String} {cancellation : Cancellation}

/-- A termination fails if its request is not made or not accepted, and changes nothing more. -/
theorem run_terminate_of_refused {e : Failure}
    (h : (revoke p c cancellation).run w = (.error e, w₁)) :
    (terminate p c cancellation).run w = (.error e, w₁) := by
  rw [terminate_eq_revoke, run_bind_error h]

/-- A termination whose request is accepted succeeds, whatever comes of the removal of the context.
    -/
theorem run_terminate_of_revoked {context : AppContext}
    (h : (revoke p c cancellation).run w = (.ok context, w₁)) :
    (terminate p c cancellation).run w = (.ok (), (context.delete.run w₁).2) := by
  rw [terminate_eq_revoke, run_bind_ok h]
  exact run_attempt_bind rfl

/-- What is recorded of a termination stays when the context is deleted, and when it is not. -/
theorem concluded_of_stores {l : Ledger} {w' : World} (hsound : w.documents.Sound)
    (hnow : w.now.IsValid) (hl : w.documents.ledger? p c = some l)
    (hcurrent : l.current = .ok .applied)
    (hdocuments : w'.documents
      = w.documents.withLedger p c (l.append .terminated l.lastId w.now)) :
    Concluded w w' p c l l.lastId where
  before := hl
  applied := Ledger.exists_applied hcurrent
  after := by
    have htimely := (hsound.timely hl).append .terminated l.lastId hnow
    rw [hdocuments, DocumentStore.ledger?_withLedger htimely, if_pos ⟨rfl, rfl⟩]
  elsewhere := by
    intro store key tag hother
    rw [hdocuments, DocumentStore.withLedger, DocumentStore.value?_insert, if_neg hother]

end Deployment

namespace History

open Deployment

variable {ids : Nat → String} {synchronizer : Option Synchronizer}

/-- **A termination can be repeated.** In every state of every run and under all circumstances, a
    termination that fails leaves both stores as they are, so that another attempt comes to the same
    ledger and the same context. One that succeeds has recorded the termination of the context that
    was applied last, and has changed no other document; then it has deleted exactly the keys of that
    context, or the deletion failed, and the contexts are as before. -/
theorem terminate_repeatable (hids : ValidIds ids) (steps : List Step)
    (circumstances : Circumstances) {w : World}
    (hworld : w = (after ids synchronizer steps).world.under circumstances) (p c : String)
    (cancellation : Cancellation) :
    (∀ e, ((terminate p c cancellation).run w).1 = .error e →
      Retryable w ((terminate p c cancellation).run w).2 p c) ∧
    (((terminate p c cancellation).run w).1 = .ok () → ∃ l id w₁,
      Concluded w ((terminate p c cancellation).run w).2 p c l id ∧
      (revoke p c cancellation).run w = (.ok (.ofId id), w₁) ∧
      (((AppContext.ofId id).delete.run w₁).1 = .ok () ∧
          (∀ key, ((terminate p c cancellation).run w).2.contexts.get? key
            = if Text.beginsWith (Handle.root id).key key then none else w.contexts.get? key) ∨
        (∃ e, ((AppContext.ofId id).delete.run w₁).1 = .error e) ∧
          ((terminate p c cancellation).run w).2.contexts = w.contexts)) := by
  obtain ⟨hinstalled, hsupply⟩ := @installed_after ids synchronizer hids steps
  obtain ⟨hlog, hdocuments⟩ := documents_after ids synchronizer steps
  have hstores : w.stores = (after ids synchronizer steps).stores := hworld ▸ rfl
  rw [← hstores] at hinstalled hsupply hdocuments
  have hfaithful : w.Faithful := hworld ▸ World.faithful_under _ circumstances
  have hnow : w.now.IsValid := hworld ▸ circumstances.now.2
  have hids' : ValidIds w.stores.contextId := hsupply ▸ hids
  have hsound := hinstalled.chronicled.sound
  -- The outcome is told by that of the part before the deletion.
  have hrevoke := revoke_ensures p c cancellation hfaithful
  rw [Ensures] at hrevoke
  rcases hrun : (revoke p c cancellation).run w with ⟨r, w₁⟩
  rw [hrun] at hrevoke
  rcases hrevoke with ⟨⟨e, he⟩, hstores₁⟩ | ⟨l, hp, hc, hl, hcurrent, hr, hw₁, hstores₁⟩
  · obtain rfl : r = .error e := he
    rw [run_terminate_of_refused hrun]
    refine ⟨fun _ _ => ⟨hstores₁, ?_⟩, fun hok => (by cases hok)⟩
    intro l hl hcurrent v hv hsync hsame
    have hnames : p ≠ "" ∧ c ≠ "" := by
      rw [← World.stores_documents, hdocuments] at hl
      exact ((DocumentStore.ledger_writing_iff hlog).1 hl).1.2
    exact hinstalled.run_retrieve hids' hnames.1 hnames.2 hl hcurrent hv hsync
      (hsame.trans hstores₁)
  · obtain rfl : r = .ok (AppContext.ofId l.lastId) := hr
    rw [run_terminate_of_revoked hrun]
    have hdelete := AppContext.delete_ensures l.lastId hw₁
    rw [Ensures] at hdelete
    have hdocuments₁ := congrArg Stores.documents hstores₁
    have hcontexts₁ : w₁.contexts = w.contexts := congrArg Stores.contexts hstores₁
    refine ⟨fun _ herror => (by cases herror), fun _ => ⟨l, l.lastId, w₁, ?_, rfl, ?_⟩⟩
    · refine concluded_of_stores hsound hnow (hl hsound.filed) hcurrent ?_
      rcases hdelete with ⟨e, -, hquiet, -⟩ | ⟨-, -, hquiet⟩
      · exact hquiet.documents.trans hdocuments₁
      · exact hquiet.documents.trans hdocuments₁
    · rcases hdelete with ⟨e, he, hquiet, -⟩ | ⟨hok, -, hquiet⟩
      · exact .inr ⟨⟨e, he⟩, hquiet.contexts.trans hcontexts₁⟩
      · refine .inl ⟨hok, fun key => ?_⟩
        rw [hquiet.contexts, World.withContexts_contexts, OrderedMap.get?_eraseScan, hcontexts₁]

/-- A run at whose end a network is installed. -/
def installedNetwork : List Step :=
  [⟨.createProvider ⟨{ name := "p" }⟩, {}⟩,
    ⟨.createCluster "p" ⟨{ name := "c" }⟩ {}, {}⟩,
    ⟨.createNetwork ⟨{ name := "n" }, "ovn4nfv", []⟩ "p" "c" false, {}⟩,
    ⟨.apply "p" "c" .never, {}⟩]

/-- The world at its end, where calls of one method of the stores fail. -/
def installedFailing (method : StoreMethod) : World :=
  (after unaryId (some {}) installedNetwork).world.under { outages := [{ method := method }] }

/-- The termination fails if it cannot be recorded, and succeeds if only the context cannot be
    deleted. -/
theorem terminate_repeatable_installedNetwork :
    Retryable (installedFailing .insert)
        ((terminate "p" "c" .never).run (installedFailing .insert)).2 "p" "c" ∧
      ∃ l id, Concluded (installedFailing .deleteAll)
        ((terminate "p" "c" .never).run (installedFailing .deleteAll)).2 "p" "c" l id := by
  obtain ⟨hfails, hsucceeds⟩ :
      ((terminate "p" "c" .never).run (installedFailing .insert)).1
          = .error (.store "insert" "injected") ∧
        ((terminate "p" "c" .never).run (installedFailing .deleteAll)).1 = .ok () := by
    decide +kernel
  constructor
  · exact (terminate_repeatable unaryId_valid installedNetwork
      { outages := [{ method := .insert }] } rfl "p" "c" .never).1 _ hfails
  · obtain ⟨l, id, w₁, hconcluded, -⟩ := (terminate_repeatable unaryId_valid installedNetwork
      { outages := [{ method := .deleteAll }] } rfl "p" "c" .never).2 hsucceeds
    exact ⟨l, id, hconcluded⟩

end History

end NetIntent
