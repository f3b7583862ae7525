import NetIntent.Proofs.ContextFrame
import NetIntent.Proofs.Ledgers
import NetIntent.Proofs.Undisturbed

namespace NetIntent

/-!
# Deleting a cluster: all or nothing, until it is safe

A cluster is deleted in two passes over its ledger: every context that is left has to have finished
terminating, and only then are they deleted, the cluster last. So a failure midway leaves a cluster
that can be deleted later.

* `Deletable` — the cluster may be deleted, as far as its ledger and its contexts tell;
* `run_leftovers`, `run_deleteContexts` — the two passes, while the stores answer;
* `Deletable.sweep` — a cluster stays deletable while its contexts are deleted;
* `Deleted` — the cluster and all contexts of its ledger are gone, and nothing else;
* `run_deleteCluster` — a cluster that may be deleted is deleted while the stores answer;
* `deleteCluster_all_or_nothing` — what deleting a cluster comes to, whatever calls fail.
-/

open Op Registry

/-- The intents of the cluster are not applied, and every context of its ledger that still has a
    root has finished terminating. -/
structure Deletable (s : ContextStore) (l : Ledger) : Prop where
  idle : l.current = .ok .created ∨ l.current = .ok .terminated
  finished : ∀ id ∈ l.ids, s.Rooted id → s.Finished id

/-- Every context of the ledger has a proper id, and it has its root or is wholly gone. -/
def ContextStore.Records (s : ContextStore) (l : Ledger) : Prop :=
  ∀ id ∈ l.ids, RunContext.isValidId id = true ∧ (s.Rooted id ∨ s.Vacant id)

/-- The cluster and all contexts of the ledger are gone from the world, and nothing else changed. -/
structure Deleted (w : World) (p c : String) (l : Ledger) (w' : World) : Prop where
  documents : ∀ store key tag, w'.documents.value? store key tag
    = if store = Registry.store ∧ key = clusterKey p c then none
      else w.documents.value? store key tag
  contexts : ∀ key, w'.contexts.get? key
    = if ∃ id ∈ l.ids, Text.beginsWith (Handle.root id).key key = true then none
      else w.contexts.get? key
  rest : ((w.withContexts w'.contexts).withDocuments w'.documents).Quiet w'

/-- The cluster is still there, and each context of its ledger as well, unless it is wholly gone. -/
structure Spared (w : World) (l : Ledger) (w' : World) : Prop where
  documents : w'.documents = w.documents
  contexts : ∀ id ∈ l.ids, w.contexts.Agree w'.contexts id ∨ w'.contexts.Vacant id
  others : ∀ key, (∀ id ∈ l.ids, ¬ Text.beginsWith (Handle.root id).key key = true) →
    w'.contexts.get? key = w.contexts.get? key
  rest : (w.withContexts w'.contexts).Quiet w'

section

variable {w : World} {p c : String} {l : Ledger} {s s' : ContextStore} {ids live done : List String}

/-! ### Contexts that are left -/

/-- A context of which nothing is stored has no root stored. -/
theorem ContextStore.Vacant.rootless {id : String} (h : s.Vacant id) :
    s.get? (Handle.root id).key = none :=
  h _ (Handle.beginsWith_root_self (Handle.root id))

/-- A context of which nothing is stored does not count as rooted. -/
theorem ContextStore.Vacant.not_rooted {id : String} (h : s.Vacant id) : ¬ s.Rooted id :=
  fun hroot => absurd (h.rootless.symm.trans hroot) (by simp)

/-- The overall status is a node of the context. -/
theorem ContextStore.Agree.overallStatus? {id : String} (h : s.Agree s' id) :
    s'.overallStatus? id = s.overallStatus? id := by
  rw [ContextStore.overallStatus?,
    h _ (Handle.beginsWith_root_self ((Handle.root id).leaf "status"))]
  rfl

/-- Agreement about a context holds both ways. -/
theorem ContextStore.Agree.symm {id : String} (h : s.Agree s' id) : s'.Agree s id :=
  fun key hkey => (h key hkey).symm

/-- A context that finished terminating did so in every store that agrees about it. -/
theorem ContextStore.Agree.finished {id : String} (h : s.Agree s' id) (hs : s.Finished id) :
    s'.Finished id := by
  obtain ⟨status, hstatus, hterminal⟩ := hs
  exact ⟨status, h.overallStatus?.trans hstatus, hterminal⟩

/-- After some contexts were deleted, each is as it was, or it is gone. -/
theorem ContextStore.agree_or_vacant_sweep (s : ContextStore) {id : String}
    (hid : Handle.IsWord id) (hdone : ∀ id ∈ done, Handle.IsWord id) :
    s.Agree (s.sweep done) id ∨ (s.sweep done).Vacant id := by
  by_cases hmem : id ∈ done
  · exact .inr (s.vacant_sweep hmem)
  · exact .inl (s.agree_sweep hid hdone hmem)

/-- No id occurs twice among those of a ledger. -/
theorem Ledger.nodup_ids (l : Ledger) : l.ids.Nodup := OrderedMap.nodup_keys _

/-- The ids of the contexts that a ledger records can stand in keys. -/
theorem ContextStore.Records.isWord (h : s.Records l) {id : String} (hid : id ∈ l.ids) :
    Handle.IsWord id := (Handle.isValidId_iff.1 (h id hid).1).2

/-- Whatever contexts of the ledger are deleted, its contexts have their roots or are gone. -/
theorem ContextStore.Records.sweep (h : s.Records l) (hdone : done ⊆ l.ids) :
    (s.sweep done).Records l := by
  intro id hid
  refine ⟨(h id hid).1, ?_⟩
  rcases s.agree_or_vacant_sweep (h.isWord hid) (fun x hx => h.isWord (hdone hx)) with
    hagree | hvacant
  · exact (h id hid).2.imp hagree.rooted hagree.vacant
  · exact .inr hvacant

/-- A cluster stays deletable while its contexts are deleted. -/
theorem Deletable.sweep (h : Deletable s l) (hs : s.Records l) (hdone : done ⊆ l.ids) :
    Deletable (s.sweep done) l where
  idle := h.idle
  finished := by
    intro id hid hroot
    rcases s.agree_or_vacant_sweep (hs.isWord hid) (fun x hx => hs.isWord (hdone hx)) with
      hagree | hvacant
    · exact hagree.finished (h.finished id hid (hagree.symm.rooted hroot))
    · exact absurd hroot hvacant.not_rooted

/-! ### The two passes -/

/-- In the first pass the contexts with a root are found, if all of them have finished. -/
theorem run_finishedContexts (hw : w.Undisturbed) (cluster : String)
    (hvalid : ∀ id ∈ ids, RunContext.isValidId id = true)
    (hids : ∀ id ∈ ids, w.contexts.get? (Handle.root id).key = none ∨
      w.contexts.Rooted id ∧ w.contexts.Finished id) :
    ∃ live : List String, (finishedContexts cluster ids).run w = (.ok (live.map .ofId), w) ∧
      live.Sublist ids ∧ ∀ id ∈ live, w.contexts.Rooted id := by
  induction ids with
  | nil => exact ⟨[], rfl, List.Sublist.refl _, nofun⟩
  | cons id ids ih =>
    obtain ⟨hid, hvalid⟩ := List.forall_mem_cons.1 hvalid
    obtain ⟨hcontext, hids⟩ := List.forall_mem_cons.1 hids
    obtain ⟨live, hrun, hsub, hrooted⟩ := ih hvalid hids
    unfold finishedContexts
    rcases hcontext with hnone | ⟨hroot, status, hstatus, hterminal⟩
    · -- the context is gone already
      refine ⟨live, ?_, hsub.cons id, hrooted⟩
      rw [run_attempt_bind (AppContext.run_fromId_of_none hw hid hnone)]
      exact hrun
    · refine ⟨id :: live, ?_, hsub.cons_cons id, List.forall_mem_cons.2 ⟨hroot, hrooted⟩⟩
      rw [run_attempt_bind (AppContext.run_fromId hw hid hroot)]
      refine (run_attempt_bind (AppContext.run_statusOf hw hid hroot hstatus)).trans ?_
      simp only [hterminal, if_true]
      exact (run_bind_ok hrun).trans rfl

/-- In the second pass contexts with a root are deleted. -/
theorem run_deleteContexts (hw : w.Undisturbed) (hlive : live.Nodup)
    (hword : ∀ id ∈ live, Handle.IsWord id) (hroot : ∀ id ∈ live, w.contexts.Rooted id) :
    (deleteContexts (live.map .ofId)).run w = (.ok (), w.withContexts (w.contexts.sweep live)) := by
  induction live generalizing w with
  | nil => rfl
  | cons id live ih =>
    obtain ⟨hnot, hlive⟩ := List.nodup_cons.1 hlive
    obtain ⟨hid, hword⟩ := List.forall_mem_cons.1 hword
    obtain ⟨hfirst, hroot⟩ := List.forall_mem_cons.1 hroot
    -- The other contexts keep their roots.
    have hrest : ∀ x ∈ live, ContextStore.Rooted
        (w.contexts.eraseScan (Handle.root id).key) x := fun x hx =>
      (ContextStore.agree_eraseScan _ (hword x hx) hid fun heq => hnot (heq ▸ hx)).rooted
        (hroot x hx)
    show ((AppContext.ofId id).delete >>= fun _ => deleteContexts (live.map .ofId) : Op Unit).run w
      = _
    have hothers := ih (hw.withContexts (w.contexts.eraseScan (Handle.root id).key)) hlive hword hrest
    rw [run_bind_ok (AppContext.run_delete hw hfirst), hothers]
    rfl

/-- While the store answers, a document is removed. -/
theorem run_remove (hw : w.Undisturbed) (key : DocumentKey) :
    (remove key).run w = (.ok (), w.withDocuments (w.documents.remove Registry.store key)) := by
  unfold remove removeDocument
  rw [onKey_toJson]
  exact run_onDocuments hw _ _ _

/-- While the intents of a cluster are not applied, all but their termination is allowed. -/
theorem Lifecycle.check_of_idle (cluster : String) {operation : ClusterOperation}
    (h : l.current = .ok .created ∨ l.current = .ok .terminated) (hop : operation ≠ .terminate) :
    ∃ state, check cluster l operation = .ok state := by
  rcases h with h | h <;> cases operation <;>
    simp_all [check, ClusterState.ofLedger, ClusterState.ofLedgerState?, allowed]

variable {alike : World → World → Prop}

/-- Which contexts of a list have finished depends on these contexts only. -/
theorem finishedContexts_looks (cluster : String)
    (hids : ∀ id ∈ ids, ∀ w w', alike w w' → w.contexts.Agree w'.contexts id) :
    (finishedContexts cluster ids).Looks alike := by
  induction ids with
  | nil => exact looks_pure _
  | cons id ids ih =>
    obtain ⟨hid, hids⟩ := List.forall_mem_cons.1 hids
    unfold finishedContexts
    refine (AppContext.fromId_looks hid).attempt.bind fun r => ?_
    -- The context is gone, or cannot be read, or its status decides.
    split
    · exact ih hids
    · exact looks_throw _
    · refine (AppContext.statusOf_looks hid).attempt.bind fun status => ?_
      split
      · split
        · exact (ih hids).bind fun _ => looks_pure _
        · exact looks_throw _
      · split
        · exact looks_throw _
        · exact looks_throw _

/-- What is read before a cluster is deleted are its ledger and its contexts. -/
theorem leftovers_looks
    (hledger : p ≠ "" → c ≠ "" → FoundAlike alike (clusterKey p c) ledgerTag)
    (hids : ∀ w w' l, alike w w' → (w.documents.Filed → w.documents.ledger? p c = some l) →
      ∀ id ∈ l.ids, w.contexts.Agree w'.contexts id) : (leftovers p c).Looks alike := by
  refine (checkCluster_looks .deleteCluster hledger).step (checkCluster_reads p c .deleteCluster)
    fun (l, state) => finishedContexts_looks _ ?_
  intro id hid w w' h
  obtain ⟨halike, -, -, hl, -⟩ := h
  exact hids w w' l halike hl id hid

/-! ### Deleting a cluster -/

/-- A cluster that may be deleted is deleted while the stores answer, with the contexts that have
    a root. -/
theorem run_deleteCluster (hw : w.Undisturbed) (hfiled : w.documents.Filed)
    (hp : p ≠ "") (hc : c ≠ "") (hl : w.documents.ledger? p c = some l)
    (hs : w.contexts.Records l) (h : Deletable w.contexts l) :
    ∃ live : List String, (∀ id ∈ live, id ∈ l.ids ∧ w.contexts.Rooted id) ∧
      (deleteCluster p c).run w = (.ok (), (w.withContexts (w.contexts.sweep live)).withDocuments
        (w.documents.remove Registry.store (clusterKey p c))) := by
  obtain ⟨state, hcheck⟩ := Lifecycle.check_of_idle (contextClusterName p c) h.idle
    (show ClusterOperation.deleteCluster ≠ .terminate by decide)
  have hvalid : ∀ id ∈ l.ids, RunContext.isValidId id = true := fun id hid => (hs id hid).1
  -- Of each context of the ledger nothing is left, or it has finished.
  have hcontexts : ∀ id ∈ l.ids, w.contexts.get? (Handle.root id).key = none ∨
      w.contexts.Rooted id ∧ w.contexts.Finished id := fun id hid =>
    (hs id hid).2.elim (fun hroot => .inr ⟨hroot, h.finished id hid hroot⟩)
      fun hvacant => .inl hvacant.rootless
  obtain ⟨live, hfound, hsub, hrooted⟩ :=
    run_finishedContexts hw (contextClusterName p c) hvalid hcontexts
  have hleft : (leftovers p c).run w = (.ok (live.map .ofId), w) := by
    unfold leftovers
    exact (run_bind_ok (run_checkCluster hw hfiled hp hc hl hcheck)).trans hfound
  -- Those that were found are deleted one by one, each of them still with its root.
  have hswept := run_deleteContexts hw (l.nodup_ids.sublist hsub)
    (fun id hid => hs.isWord (hsub.subset hid)) hrooted
  refine ⟨live, fun id hid => ⟨hsub.subset hid, hrooted id hid⟩, ?_⟩
  rw [deleteCluster_eq, run_bind_ok hleft, run_bind_ok hswept,
    run_remove (hw.withContexts (w.contexts.sweep live))]
  rfl

/-- A cluster that may be deleted is deleted while the stores answer. -/
theorem run_deleteCluster_of_deletable (hw : w.Undisturbed) (hfiled : w.documents.Filed)
    (hp : p ≠ "") (hc : c ≠ "") (hl : w.documents.ledger? p c = some l)
    (hs : w.contexts.Records l) (h : Deletable w.contexts l) :
    ((deleteCluster p c).run w).1 = .ok () := by
  obtain ⟨live, -, hrun⟩ := run_deleteCluster hw hfiled hp hc hl hs h
  rw [hrun]

/-- A cluster of which no context is left is deleted by itself. -/
theorem run_deleteCluster_of_vacant (hw : w.Undisturbed) (hfiled : w.documents.Filed)
    (hp : p ≠ "") (hc : c ≠ "") (hl : w.documents.ledger? p c = some l)
    (hidle : l.current = .ok .created ∨ l.current = .ok .terminated)
    (hids : ∀ id ∈ l.ids, RunContext.isValidId id = true ∧ w.contexts.Vacant id) :
    (deleteCluster p c).run w
      = (.ok (), w.withDocuments (w.documents.remove Registry.store (clusterKey p c))) := by
  have hs : w.contexts.Records l := fun id hid => ⟨(hids id hid).1, .inr (hids id hid).2⟩
  have hdeletable : Deletable w.contexts l :=
    ⟨hidle, fun id hid hroot => absurd hroot (hids id hid).2.not_rooted⟩
  obtain ⟨live, hlive, hrun⟩ := run_deleteCluster hw hfiled hp hc hl hs hdeletable
  obtain rfl : live = [] := List.eq_nil_iff_forall_not_mem.2 fun id hid =>
    (hids id (hlive id hid).1).2.not_rooted (hlive id hid).2
  exact hrun

/-- The contexts that are left are those that have to have finished. -/
theorem Leftovers.deletable {d : DocumentStore} (h : Leftovers d s p c l live) :
    Deletable s l where
  idle := h.idle
  finished := by
    intro id hid hroot
    by_cases hlive : id ∈ live
    · exact h.finished id hlive
    · exact absurd ((h.gone id hid hlive).symm.trans hroot) (by simp)

/-- Where the contexts that are left are deleted and the cluster is removed, all is gone. -/
theorem Leftovers.deleted {w' : World} (h : Leftovers w.documents w.contexts p c l live)
    (hs : w.contexts.Records l)
    (hquiet : ((w.withContexts (w.contexts.sweep live)).withDocuments
      (w.documents.remove Registry.store (clusterKey p c))).Quiet w') : Deleted w p c l w' where
  documents := by
    intro store key tag
    rw [hquiet.documents]
    exact DocumentStore.value?_remove _ _ _ _ _ _
  contexts := by
    intro key
    rw [hquiet.contexts]
    refine (ContextStore.get?_sweep _ _ _).trans ?_
    by_cases hlive : ∃ id ∈ live, Text.beginsWith (Handle.root id).key key = true
    · obtain ⟨id, hid, hkey⟩ := hlive
      rw [if_pos ⟨id, hid, hkey⟩, if_pos ⟨id, h.live_subset hid, hkey⟩]
    · rw [if_neg hlive]
      split
      · -- The key belongs to a context that was gone already.
        rename_i hgone
        obtain ⟨id, hid, hkey⟩ := hgone
        have hnot : id ∉ live := fun hid => hlive ⟨id, hid, hkey⟩
        rcases (hs id hid).2 with hroot | hvacant
        · exact absurd ((h.gone id hid hnot).symm.trans hroot) (by simp)
        · exact hvacant key hkey
      · rfl
  rest := by
    rw [hquiet.documents, hquiet.contexts]
    exact hquiet

/-- Where some contexts of the ledger are deleted, the rest is spared. -/
theorem ContextStore.Records.spared {w' : World} (hs : w.contexts.Records l) (hdone : done ⊆ l.ids)
    (hquiet : (w.withContexts (w.contexts.sweep done)).Quiet w') : Spared w l w' where
  documents := hquiet.documents
  contexts := by
    intro id hid
    rw [hquiet.contexts]
    exact w.contexts.agree_or_vacant_sweep (hs.isWord hid) fun x hx => hs.isWord (hdone hx)
  others := by
    intro key hkey
    rw [hquiet.contexts]
    refine (ContextStore.get?_sweep _ _ _).trans (if_neg ?_)
    rintro ⟨id, hid, hbegins⟩
    exact hkey id (hdone hid) hbegins
  rest := by
    rw [hquiet.contexts]
    exact hquiet

/-- A deletion succeeds only on a cluster that may be deleted, and then all is gone. -/
theorem deleteCluster_deleted (hw : w.Faithful) (hfiled : w.documents.Filed)
    (hl : w.documents.ledger? p c = some l) (hs : w.contexts.Records l)
    (hok : ((deleteCluster p c).run w).1 = .ok ()) :
    Deletable w.contexts l ∧ Deleted w p c l ((deleteCluster p c).run w).2 := by
  have hout := deleteCluster_ensures p c hw
  rw [Ensures, hok] at hout
  rcases hout with ⟨⟨e, he⟩, -⟩ | ⟨l', live, hleftovers, ⟨⟨e, he⟩, -⟩ | ⟨-, hquiet⟩⟩
  · cases he
  · cases he
  · obtain rfl : l' = l := Option.some.inj ((hleftovers.ledger hfiled).symm.trans hl)
    exact ⟨hleftovers.deletable, hleftovers.deleted hs hquiet⟩

/-- A deletion that fails has deleted contexts of the ledger only, and none unless the cluster may
    be deleted. -/
theorem deleteCluster_swept (hw : w.Faithful) (hfiled : w.documents.Filed)
    (hl : w.documents.ledger? p c = some l) {e : Failure}
    (herror : ((deleteCluster p c).run w).1 = .error e) :
    w.Quiet ((deleteCluster p c).run w).2 ∨ Deletable w.contexts l ∧ ∃ done, done ⊆ l.ids ∧
      (w.withContexts (w.contexts.sweep done)).Quiet ((deleteCluster p c).run w).2 := by
  have hout := deleteCluster_ensures p c hw
  rw [Ensures, herror] at hout
  rcases hout with ⟨-, hquiet⟩ | ⟨l', live, hleftovers, ⟨-, done, hdone, hquiet⟩ | ⟨hok, -⟩⟩
  · exact .inl hquiet
  · obtain rfl : l' = l := Option.some.inj ((hleftovers.ledger hfiled).symm.trans hl)
    exact .inr ⟨hleftovers.deletable, done, fun id hid => hleftovers.live_subset (hdone hid), hquiet⟩
  · cases hok

/-- While the stores answer, a deletion that fails has changed nothing. -/
theorem deleteCluster_unchanged (hw : w.Undisturbed) (hfiled : w.documents.Filed) (hp : p ≠ "")
    (hc : c ≠ "") (hl : w.documents.ledger? p c = some l) (hs : w.contexts.Records l) {e : Failure}
    (herror : ((deleteCluster p c).run w).1 = .error e) : ((deleteCluster p c).run w).2 = w := by
  have hlooks : (leftovers p c).Looks Eq := by
    refine leftovers_looks (fun _ _ => foundAlike_eq _ _) ?_
    rintro w _ l rfl - id -
    exact .refl _ _
  have hout := hlooks.steady.ensures (leftovers_reads p c) hw
  rcases hrun : (leftovers p c).run w with ⟨r, w₁⟩
  rw [Ensures, hrun] at hout
  obtain ⟨rfl, hfound⟩ : w₁ = w ∧ _ := hout
  cases r with
  | error e => rw [deleteCluster_eq, run_bind_error hrun]
  | ok found =>
    -- The first pass came to its end, so that nothing can fail any more.
    obtain ⟨l', live, -, hleftovers⟩ := hfound found rfl
    obtain rfl : l' = l := Option.some.inj ((hleftovers.ledger hfiled).symm.trans hl)
    have hok := run_deleteCluster_of_deletable hw hfiled hp hc hl hs hleftovers.deletable
    exact absurd (herror.symm.trans hok) (by simp)

/-- **Deleting a cluster is all or nothing.** On a cluster whose contexts have their roots or are
    wholly gone, a deletion succeeds, while the stores answer, just if the intents are not applied
    and all contexts that are left have finished terminating; otherwise it changes nothing. Whatever
    calls fail, a success takes the cluster with all of its contexts and nothing else, and a failure
    spares the cluster, deletes each context wholly or not at all, and none of them unless all have
    finished; and a cluster that could have been deleted before still can be. -/
theorem deleteCluster_all_or_nothing (hw : w.Faithful) (hfiled : w.documents.Filed)
    (hp : p ≠ "") (hc : c ≠ "") (hl : w.documents.ledger? p c = some l)
    (hs : w.contexts.Records l) :
    (w.Undisturbed → (((deleteCluster p c).run w).1 = .ok () ↔ Deletable w.contexts l)) ∧
    (((deleteCluster p c).run w).1 = .ok () → Deleted w p c l ((deleteCluster p c).run w).2) ∧
    ∀ e, ((deleteCluster p c).run w).1 = .error e →
      (w.Undisturbed → ((deleteCluster p c).run w).2 = w) ∧
      Spared w l ((deleteCluster p c).run w).2 ∧
      (((deleteCluster p c).run w).2.contexts ≠ w.contexts → Deletable w.contexts l) ∧
      (Deletable w.contexts l → ∀ w' : World, w'.Undisturbed →
        w'.documents = ((deleteCluster p c).run w).2.documents →
        w'.contexts = ((deleteCluster p c).run w).2.contexts →
        ((deleteCluster p c).run w').1 = .ok () ∧ Deleted w' p c l ((deleteCluster p c).run w').2) := by
  refine ⟨fun hcalm => ⟨fun hok => (deleteCluster_deleted hw hfiled hl hs hok).1,
    run_deleteCluster_of_deletable hcalm hfiled hp hc hl hs⟩,
    fun hok => (deleteCluster_deleted hw hfiled hl hs hok).2, fun e herror => ?_⟩
  -- Contexts of the ledger were swept away, perhaps none.
  have hswept : ∃ done, done ⊆ l.ids ∧
      (w.withContexts (w.contexts.sweep done)).Quiet ((deleteCluster p c).run w).2 := by
    rcases deleteCluster_swept hw hfiled hl herror with hquiet | ⟨-, hswept⟩
    · exact ⟨[], List.nil_subset _, hquiet⟩
    · exact hswept
  obtain ⟨done, hdone, hquiet⟩ := hswept
  refine ⟨fun hcalm => deleteCluster_unchanged hcalm hfiled hp hc hl hs herror, hs.spared hdone hquiet,
    ?_, ?_⟩
  · intro hchanged
    rcases deleteCluster_swept hw hfiled hl herror with hquiet | ⟨hdeletable, -⟩
    · exact absurd hquiet.contexts hchanged
    · exact hdeletable
  · intro hdeletable w' hw' hdocuments hcontexts
    rw [hquiet.documents, World.withContexts_documents] at hdocuments
    rw [hquiet.contexts, World.withContexts_contexts] at hcontexts
    have hfiled' : w'.documents.Filed := hdocuments ▸ hfiled
    have hl' : w'.documents.ledger? p c = some l := hdocuments ▸ hl
    have hs' : w'.contexts.Records l := hcontexts ▸ hs.sweep hdone
    have hdeletable' : Deletable w'.contexts l := hcontexts ▸ hdeletable.sweep hs hdone
    have hok := run_deleteCluster_of_deletable hw' hfiled' hp hc hl' hs' hdeletable'
    exact ⟨hok, (deleteCluster_deleted hw'.faithful hfiled' hl' hs' hok).2⟩

end

/-- A run in which a terminated context is left behind. -/
def terminatedLeft : List Step :=
  [⟨.createProvider ⟨{ name := "p" }⟩, {}⟩,
    ⟨.createCluster "p" ⟨{ name := "c" }⟩ {}, {}⟩,
    ⟨.apply "p" "c" .never, {}⟩,
    ⟨.terminate "p" "c" .never, { outages := [{ method := .deleteAll }] }⟩]

/-- The world after that run, once the context has finished terminating. The next removal of a
    document will fail. -/
def finishedLeft : World :=
  let w := (History.after unaryId (some {}) terminatedLeft).world
  { w with
    contexts := w.contexts.insert ((Handle.root "a").leaf "status").key
      (.value ContextStatus.terminated.document),
    faults := [Outage.fault { method := .remove }] }

/-- The documents of this world are filed under their keys. -/
theorem finishedLeft_filed : finishedLeft.documents.Filed := by
  have hchronicled := (@History.chronicled_after unaryId (some {}) unaryId_injective
    terminatedLeft).1
  exact hchronicled.sound.filed

/-- The deletion fails at its last step, after the context is gone, and succeeds the next time. -/
theorem deleteCluster_all_or_nothing_finishedLeft :
    ((deleteCluster "p" "c").run finishedLeft).1 = .error (.store "remove" "injected") ∧
    ((deleteCluster "p" "c").run finishedLeft).2.contexts.keys = [] ∧
    ∃ l, finishedLeft.documents.ledger? "p" "c" = some l ∧ l.ids = ["a"] ∧
      Spared finishedLeft l ((deleteCluster "p" "c").run finishedLeft).2 ∧
      ((deleteCluster "p" "c").run ((deleteCluster "p" "c").run finishedLeft).2.calm).1 = .ok () := by
  obtain ⟨herror, hkeys, hledger, hroot, hcontexts, hdocuments⟩ :
      ((deleteCluster "p" "c").run finishedLeft).1 = .error (.store "remove" "injected") ∧
      ((deleteCluster "p" "c").run finishedLeft).2.contexts.keys = [] ∧
      (finishedLeft.documents.ledger? "p" "c").map Ledger.ids = some ["a"] ∧
      finishedLeft.contexts.get? (Handle.root "a").key = some (.value (.string "a")) ∧
      ((deleteCluster "p" "c").run finishedLeft).2.contextsClosed = false ∧
      ((deleteCluster "p" "c").run finishedLeft).2.documentsClosed = false := by
    decide +kernel
  obtain ⟨l, hl, hids⟩ := Option.map_eq_some_iff.1 hledger
  have hfaithful : finishedLeft.Faithful := by
    intro f hf
    obtain rfl := List.mem_singleton.1 hf
    rfl
  have hrecords : finishedLeft.contexts.Records l := by
    intro id hid
    rw [hids, List.mem_singleton] at hid
    rw [hid]
    exact ⟨by decide, .inl hroot⟩
  obtain ⟨-, -, hfailed⟩ := deleteCluster_all_or_nothing hfaithful finishedLeft_filed (by decide)
    (by decide) hl hrecords
  obtain ⟨-, hspared, hdeletable, hlater⟩ := hfailed _ herror
  -- The context was deleted before the removal of the documents failed.
  have hchanged : ((deleteCluster "p" "c").run finishedLeft).2.contexts
      ≠ finishedLeft.contexts := by
    intro heq
    have hstored := (congrArg (OrderedMap.get? · (Handle.root "a").key) heq).trans hroot
    exact absurd (hkeys ▸ OrderedMap.mem_keys_iff.2 ⟨_, hstored⟩) List.not_mem_nil
  have hcalm := World.undisturbed_calm hcontexts hdocuments
  exact ⟨herror, hkeys, l, hl, hids, hspared, (hlater (hdeletable hchanged) _ hcalm
    (World.calm_documents _) (World.calm_contexts _)).1⟩

end NetIntent
