import NetIntent.Proofs.Installed

namespace NetIntent

/-!
# No context is lost

Contexts are built in many calls and deleted at several places, and any of these calls may fail.
Nevertheless all that is ever stored belongs to a context with a root, and each such context is
known: a ledger has its id, or a failure has named it.

* `Stores.Records`, `History.Named` — the two ways in which a context is known;
* `Change.agree_or_vacant`, `Change.fresh`, `Change.records` — what one operation does to an old
  context, to the one it begins, and to what is recorded;
* `History.Accounted` — the invariant: what is stored of a context has its root, and is known;
* `History.Accounted.vacant_of_deleted` — a deleted cluster leaves nothing of its contexts.
-/

open Registry Deployment

/-- A ledger has the id. -/
def Stores.Records (s : Stores) (id : String) : Prop :=
  ∃ p c l, s.documents.ledger? p c = some l ∧ id ∈ l.appliedIds

/-- A failure has named the id as one of a context that was not cleaned up. -/
def History.Named (h : History) (id : String) : Prop :=
  ∃ e message, Except.error (Failure.cleanupRequired id e message) ∈ h.answers

section Changes

variable {a : Action} {s s' : Stores} {r : Except Failure Unit}

/-- What is stored after an operation was stored before, or belongs to the context it began. -/
theorem Change.get?_contexts (h : Change a s r s') {key : String} {cell : Cell}
    (hcell : s'.contexts.get? key = some cell) :
    s.contexts.get? key = some cell ∨ Text.beginsWith (Handle.root s.nextId).key key = true := by
  -- A context that is being built has its nodes below the next id, and leaves all others alone.
  have hbuilt : ∀ {cluster resources n},
      (s.contexts.builtUpTo s.nextId cluster resources n).get? key = some cell →
      s.contexts.get? key = some cell ∨ Text.beginsWith (Handle.root s.nextId).key key = true := by
    intro cluster resources n hget
    by_cases hkey : Text.beginsWith (Handle.root s.nextId).key key = true
    · exact .inr hkey
    · rw [ContextStore.get?_builtUpTo_of_foreign _ _ hkey] at hget
      exact .inl hget
  cases h with
  | quiet => exact .inl hcell
  | edited _ hedit => exact .inl hcell
  | begun ha hp hvalid hfree htime => exact .inl hcell
  | undone hcontexts =>
    rcases hcontexts with rfl | ⟨resources, n, rfl⟩
    · exact .inl hcell
    · exact hbuilt (ContextStore.get?_of_get?_eraseScan hcell)
  | left => exact hbuilt hcell
  | recorded _ ha hsurvey hwordy htime =>
    rw [Stores.recording_contexts, ContextStore.built_eq] at hcell
    exact hbuilt hcell
  | terminated ha hledger hcurrent hcontexts htime =>
    rcases hcontexts with rfl | rfl
    · exact .inl hcell
    · exact .inl (ContextStore.get?_of_get?_eraseScan hcell)
  | swept hledger hcurrent hdone => exact .inl (ContextStore.get?_of_get?_sweep hcell)
  | removed ha hledger hcurrent hlive hgone => exact .inl (ContextStore.get?_of_get?_sweep hcell)

/-- An operation leaves a context that it did not begin as it is, or takes it away. -/
theorem Change.agree_or_vacant (h : Change a s r s') (hs : s.Chronicled)
    (hids : ValidIds s.contextId) {id : String} (hword : Handle.IsWord id) (hne : id ≠ s.nextId) :
    s.contexts.Agree s'.contexts id ∨ s'.contexts.Vacant id := by
  have hnext : Handle.IsWord s.nextId := hids.isWord s.minted
  -- Contexts are only deleted by the ids of a ledger, which can be words of keys.
  have hswept : ∀ {q k : String} {m : Ledger} {done : List String},
      s.documents.ledger? q k = some m → done ⊆ m.ids →
      s.contexts.Agree (s.contexts.sweep done) id ∨ (s.contexts.sweep done).Vacant id := by
    intro q k m done hm hdone
    by_cases hmem : id ∈ done
    · exact .inr (ContextStore.vacant_sweep _ hmem)
    · refine .inl (ContextStore.agree_sweep _ hword (fun other hother => ?_) hmem)
      exact hs.isWord hids.isWord hm ((hs.mem_ids_iff hids.ne_empty hm).1 (hdone hother))
  cases h with
  | quiet => exact .inl (.refl _ _)
  | edited _ hedit => exact .inl (.refl _ _)
  | begun ha hp hvalid hfree htime => exact .inl (.refl _ _)
  | undone hcontexts =>
    rcases hcontexts with rfl | ⟨resources, n, rfl⟩
    · exact .inl (.refl _ _)
    · exact .inl ((ContextStore.agree_builtUpTo _ hword hnext hne _ _ _).trans
        (ContextStore.agree_eraseScan _ hword hnext hne))
  | left => exact .inl (ContextStore.agree_builtUpTo _ hword hnext hne _ _ _)
  | recorded _ ha hsurvey hwordy htime =>
    exact .inl (ContextStore.agree_built _ hword hnext hne _ _)
  | @terminated q k _ m contexts time ha hledger hcurrent hcontexts htime =>
    rcases hcontexts with rfl | rfl
    · exact .inl (.refl _ _)
    · -- the context that is deleted is this one, or another one
      by_cases hlast : id = m.lastId
      · rw [hlast]
        exact .inr (ContextStore.vacant_eraseScan _ _)
      · have hlastWord := hs.isWord hids.isWord hledger (hs.lastId_mem hledger hcurrent)
        exact .inl (ContextStore.agree_eraseScan _ hword hlastWord hlast)
  | swept hledger hidle hdone => exact hswept hledger hdone
  | removed ha hledger hidle hlive hgone => exact hswept hledger hlive

/-- The context that an operation begins is gone at its end, or it has a root and is known. -/
theorem Change.fresh (h : Change a s r s') (hs : s.Chronicled)
    (hvacant : s.contexts.Vacant s.nextId) :
    s'.contexts.Vacant s.nextId ∨ s'.contexts.Rooted s.nextId ∧
      (s'.Records s.nextId ∨
        ∃ e message, r = .error (.cleanupRequired s.nextId e message)) := by
  cases h with
  | quiet => exact .inl hvacant
  | edited _ hedit => exact .inl hvacant
  | begun ha hp hvalid hfree htime => exact .inl hvacant
  | undone hcontexts =>
    rcases hcontexts with rfl | ⟨resources, n, rfl⟩
    · exact .inl hvacant
    · exact .inl (ContextStore.vacant_eraseScan _ _)
  | @left p c e resources n message =>
    -- What stays has a root, since that comes first, and the failure names it.
    rcases ContextStore.builtUpTo_eq_or_rooted s.contexts s.nextId (contextClusterName p c) resources
      n with hsame | hrooted
    · left
      rw [hsame]
      exact hvacant
    · exact .inr ⟨hrooted, .inr ⟨e, message, rfl⟩⟩
  | @recorded _ p c _ l resources time ha hsurvey hwordy htime =>
    have hl := hsurvey.ledger hs.sound.filed
    rw [Stores.recording_contexts, ContextStore.built_eq]
    rcases ContextStore.builtUpTo_eq_or_rooted s.contexts s.nextId (contextClusterName p c) resources
      (contextNodes s.nextId (contextClusterName p c) resources).length with hsame | hrooted
    · left
      rw [hsame]
      exact hvacant
    · refine .inr ⟨hrooted, .inl ⟨p, c, l.append .applied s.nextId time, ?_, by simp⟩⟩
      rw [Stores.recording_documents,
        DocumentStore.ledger?_withLedger ((hs.sound.timely hl).append _ _ htime), if_pos ⟨rfl, rfl⟩]
  | terminated ha hledger hcurrent hcontexts htime =>
    rcases hcontexts with rfl | rfl
    · exact .inl hvacant
    · exact .inl (hvacant.eraseScan _)
  | swept hledger hcurrent hdone => exact .inl (hvacant.sweep _)
  | removed ha hledger hcurrent hlive hgone => exact .inl (hvacant.sweep _)

/-- What is recorded stays recorded, unless the cluster is deleted, and then nothing is left of
    it. -/
theorem Change.records (h : Change a s r s') (hs : s.Chronicled) (hids : ValidIds s.contextId)
    {id : String} (hrooted : ¬ s.contexts.Vacant id → s.contexts.Rooted id)
    (hrecords : s.Records id) : s'.Records id ∨ s'.contexts.Vacant id := by
  obtain ⟨p, c, l, hl, hid⟩ := hrecords
  -- The ledger that has the id now has it afterwards too, unless it is removed.
  have hledger := h.ledger hs.sound p c
  rw [hl] at hledger
  generalize hnew : s'.documents.ledger? p c = new at hledger
  cases hledger with
  | kept => exact .inl ⟨p, c, l, hnew, hid⟩
  | applied ha hsurvey hwordy hstores =>
    refine .inl ⟨p, c, _, hnew, ?_⟩
    rw [Ledger.appliedIds_append_applied]
    exact List.mem_append_left _ hid
  | terminated ha hcurrent =>
    refine .inl ⟨p, c, _, hnew, ?_⟩
    rw [Ledger.appliedIds_append_terminated]
    exact hid
  | @removed _ live ha hidle hgone hcontexts =>
    right
    rw [hcontexts]
    by_cases hlive : id ∈ live
    · exact ContextStore.vacant_sweep _ hlive
    · have hnone := hgone id ((hs.mem_ids_iff hids.ne_empty hl).2 hid) hlive
      -- A context without a root has no nodes at all.
      have hvacant : s.contexts.Vacant id := by
        by_contra hnot
        exact absurd (hnone.symm.trans (hrooted hnot)) (by simp)
      exact hvacant.sweep _

end Changes

/-! ### The invariant -/

namespace History

variable {ids : Nat → String} {synchronizer : Option Synchronizer}

/-- All that is stored belongs to a context with a root, and each such context is known. -/
structure Accounted (h : History) : Prop where
  installed : h.stores.Installed
  owned : ∀ key cell, h.stores.contexts.get? key = some cell →
    ∃ n, Text.beginsWith (Handle.root (h.stores.contextId n)).key key = true
  rooted : ∀ n, ¬ h.stores.contexts.Vacant (h.stores.contextId n) →
    h.stores.contexts.Rooted (h.stores.contextId n)
  known : ∀ n, ¬ h.stores.contexts.Vacant (h.stores.contextId n) →
    h.stores.Records (h.stores.contextId n) ∨ h.Named (h.stores.contextId n)

/-- At first there are no contexts, and so they are accounted for. -/
theorem accounted_start (ids : Nat → String) (synchronizer : Option Synchronizer) :
    (start ids synchronizer).Accounted where
  installed := .empty ids
  owned := nofun
  rooted := fun _ hn => absurd (fun _ _ => rfl) hn
  known := fun _ hn => absurd (fun _ _ => rfl) hn

/-- A step of a run keeps all contexts accounted for. -/
theorem Accounted.step {h : History} (hh : h.Accounted) (hids : ValidIds h.stores.contextId)
    (s : Step) : (h.step s).Accounted := by
  have hs := hh.installed.chronicled
  obtain ⟨r, hanswers, hchange⟩ := h.change s hs.sound.filed
  have hsupply : (h.step s).stores.contextId = h.stores.contextId := hchange.minted.1
  have hnamed : ∀ id, h.Named id → (h.step s).Named id := by
    intro id hname
    obtain ⟨e, message, hmem⟩ := hname
    refine ⟨e, message, ?_⟩
    rw [hanswers]
    exact List.mem_append_left _ hmem
  have hvacant : h.stores.contexts.Vacant h.stores.nextId :=
    hh.installed.vacant h.stores.minted (Nat.le_refl _)
  -- A context is an old one, or the one that the step began.
  have hcontext : ∀ n, ¬ (h.step s).stores.contexts.Vacant (h.stores.contextId n) →
      (h.step s).stores.contexts.Rooted (h.stores.contextId n) ∧
        ((h.step s).stores.Records (h.stores.contextId n) ∨
          (h.step s).Named (h.stores.contextId n)) := by
    intro n hn
    by_cases hnew : h.stores.contextId n = h.stores.nextId
    · -- the new one is known by its record or by the answer of the step
      rw [hnew] at hn ⊢
      obtain ⟨hrooted, hknown⟩ := (hchange.fresh hs hvacant).resolve_left hn
      refine ⟨hrooted, hknown.imp_right ?_⟩
      rintro ⟨e, message, rfl⟩
      refine ⟨e, message, ?_⟩
      rw [hanswers]
      exact List.mem_append_right _ (List.mem_singleton.2 rfl)
    · -- an old one that is still there is as it was, and as known as it was
      have hagree := (hchange.agree_or_vacant hs hids (hids.isWord n) hnew).resolve_right hn
      have hold : ¬ h.stores.contexts.Vacant (h.stores.contextId n) := fun hv =>
        hn (hagree.vacant hv)
      refine ⟨hagree.rooted (hh.rooted n hold), ?_⟩
      rcases hh.known n hold with hrecords | hname
      · exact .inl ((hchange.records hs hids (hh.rooted n) hrecords).resolve_right hn)
      · exact .inr (hnamed _ hname)
  constructor
  · exact hh.installed.change hids hchange
  · intro key cell hcell
    rw [hsupply]
    rcases hchange.get?_contexts hcell with hold | hnew
    · exact hh.owned key cell hold
    · exact ⟨h.stores.minted, hnew⟩
  · intro n hn
    rw [hsupply] at hn ⊢
    exact (hcontext n hn).1
  · intro n hn
    rw [hsupply] at hn ⊢
    exact (hcontext n hn).2

/-- Over a whole run all contexts stay accounted for. -/
theorem accounted_after (hids : ValidIds ids) (steps : List Step) :
    (after ids synchronizer steps).Accounted ∧
      (after ids synchronizer steps).stores.contextId = ids := by
  refine after_induction (P := fun h => h.Accounted ∧ h.stores.contextId = ids) ?_ ?_ steps
  · exact ⟨accounted_start ids synchronizer, rfl⟩
  · intro h s hbefore
    obtain ⟨haccounted, hsupply⟩ := hbefore
    obtain ⟨r, -, hchange⟩ := h.change s haccounted.installed.chronicled.sound.filed
    refine ⟨haccounted.step ?_ s, hchange.minted.1.trans hsupply⟩
    rw [hsupply]
    exact hids

/-- A recorded context without a root has no nodes at all. -/
theorem Accounted.vacant_of_rootless {h : History} (hh : h.Accounted) {p c : String} {l : Ledger}
    (hl : h.stores.documents.ledger? p c = some l) {id : String} (hid : id ∈ l.appliedIds)
    (hnone : h.stores.contexts.get? (Handle.root id).key = none) :
    h.stores.contexts.Vacant id := by
  obtain ⟨n, -, rfl⟩ := hh.installed.chronicled.minted p c l hl id hid
  by_contra hnot
  exact absurd (hnone.symm.trans (hh.rooted n hnot)) (by simp)

/-! ### Deleting a cluster -/

/-- If deleting a cluster succeeds, then its ledger is gone, and so are the contexts of the ledger
    that had a root. -/
theorem deleteCluster_succeeded (p c : String) {w : World} (hw : w.Faithful)
    (hfiled : w.documents.Filed) :
    (deleteCluster p c).void.Ensures w fun r w' => r = .ok () →
      ∃ l live, w.documents.ledger? p c = some l ∧
        (∀ id ∈ l.ids, id ∉ live → w.contexts.get? (Handle.root id).key = none) ∧
        w'.documents = w.documents.remove Registry.store (clusterKey p c) ∧
        w'.contexts = w.contexts.sweep live := by
  refine void_ensures ((deleteCluster_ensures p c hw).mono fun r w' h hok => ?_)
  rcases h with ⟨⟨e, rfl⟩, -⟩ | ⟨l, live, hleftovers, h⟩
  · cases hok
  · rcases h with ⟨⟨e, rfl⟩, -⟩ | ⟨-, hquiet⟩
    · cases hok
    · exact ⟨l, live, hleftovers.ledger hfiled, hleftovers.gone, hquiet.documents, hquiet.contexts⟩

/-- After a cluster was deleted, its ledger and all of its contexts are gone. -/
theorem Accounted.vacant_of_deleted {h : History} (hh : h.Accounted)
    (hids : ValidIds h.stores.contextId) (p c : String) (circumstances : Circumstances)
    (hanswer : (h.step ⟨.deleteCluster p c, circumstances⟩).answers = h.answers ++ [.ok ()]) :
    ∃ l, h.stores.documents.ledger? p c = some l ∧
      (h.step ⟨.deleteCluster p c, circumstances⟩).stores.documents.ledger? p c = none ∧
      ∀ id ∈ l.ids, (h.step ⟨.deleteCluster p c, circumstances⟩).stores.contexts.Vacant id := by
  have hs := hh.installed.chronicled
  have hdeleted := deleteCluster_succeeded p c (w := h.world.under circumstances)
    (h.world.faithful_under circumstances) hs.sound.filed
  have hok : ((deleteCluster p c).void.run (h.world.under circumstances)).1 = .ok () :=
    List.singleton_inj.1 (List.append_cancel_left hanswer)
  obtain ⟨l, live, hl, hgone, hdocuments, hcontexts⟩ := hdeleted hok
  refine ⟨l, hl, ?_, ?_⟩
  · show ((deleteCluster p c).void.run (h.world.under circumstances)).2.documents.ledger? p c = none
    rw [hdocuments, DocumentStore.ledger?_remove, if_pos ⟨rfl, rfl⟩]
  · intro id hid
    show ((deleteCluster p c).void.run (h.world.under circumstances)).2.contexts.Vacant id
    rw [hcontexts]
    -- A context that was not deleted had no root, and hence nothing else.
    by_cases hlive : id ∈ live
    · exact ContextStore.vacant_sweep _ hlive
    · have hvacant := hh.vacant_of_rootless hl ((hs.mem_ids_iff hids.ne_empty hl).1 hid)
        (hgone id hid hlive)
      exact hvacant.sweep _

/-- **No context is lost.** Over every run, each stored node belongs to a context from the supply;
    every context with a node has its root, and it is recorded in the ledger of a cluster or was
    named by a failure; and a cluster that is deleted leaves nothing of its contexts. -/
theorem contexts_accounted_for (hids : ValidIds ids) (steps : List Step) :
    (∀ key cell, (after ids synchronizer steps).stores.contexts.get? key = some cell →
      ∃ n, Text.beginsWith (Handle.root (ids n)).key key = true) ∧
    (∀ id key cell, Handle.IsWord id → Text.beginsWith (Handle.root id).key key = true →
      (after ids synchronizer steps).stores.contexts.get? key = some cell →
      (after ids synchronizer steps).stores.contexts.Rooted id ∧
        ((∃ p c cluster l,
            (after ids synchronizer steps).stores.documents.cluster? p c = some cluster ∧
            (after ids synchronizer steps).stores.documents.ledger? p c = some l ∧ id ∈ l.ids) ∨
          ∃ e message, Except.error (Failure.cleanupRequired id e message)
            ∈ (after ids synchronizer steps).answers)) ∧
    ∀ p c circumstances,
      ((after ids synchronizer steps).step ⟨.deleteCluster p c, circumstances⟩).answers
        = (after ids synchronizer steps).answers ++ [.ok ()] →
      ∃ l, (after ids synchronizer steps).stores.documents.ledger? p c = some l ∧
        ∀ id ∈ l.ids, ∀ key, Text.beginsWith (Handle.root id).key key = true →
          ((after ids synchronizer steps).step
            ⟨.deleteCluster p c, circumstances⟩).stores.contexts.get? key = none := by
  obtain ⟨h, hsupply⟩ := @accounted_after ids synchronizer hids steps
  have hs := h.installed.chronicled
  have hvalid : ValidIds (after ids synchronizer steps).stores.contextId := by
    rw [hsupply]
    exact hids
  refine ⟨?_, ?_, ?_⟩
  · intro key cell hcell
    rw [← hsupply]
    exact h.owned key cell hcell
  · intro id key cell hword hkey hcell
    -- The key belongs to one context only, so that the id is one of the supply.
    obtain ⟨n, hn⟩ := h.owned key cell hcell
    obtain rfl := Handle.eq_of_beginsWith_root hword (hvalid.isWord n) hkey hn
    have hnot : ¬ (after ids synchronizer steps).stores.contexts.Vacant
        ((after ids synchronizer steps).stores.contextId n) := by
      intro hvacant
      exact absurd (hcell.symm.trans (hvacant key hkey)) (by simp)
    refine ⟨h.rooted n hnot, (h.known n hnot).imp_left ?_⟩
    rintro ⟨p, c, l, hl, hid⟩
    obtain ⟨cluster, hcluster⟩ := hs.sound.cluster? hl
    exact ⟨p, c, cluster, l, hcluster, hl, (hs.mem_ids_iff hvalid.ne_empty hl).2 hid⟩
  · intro p c circumstances hanswer
    obtain ⟨l, hl, -, hvacant⟩ := h.vacant_of_deleted hvalid p c circumstances hanswer
    exact ⟨l, hl, fun id hid key hkey => hvacant id hid key hkey⟩

/-- A run in which a context is applied and terminated, and another one is begun, and neither
    completed nor cleaned up. -/
def leftBehind : List Step :=
  [⟨.createProvider ⟨{ name := "p" }⟩, {}⟩,
    ⟨.createCluster "p" ⟨{ name := "c" }⟩ {}, {}⟩,
    ⟨.apply "p" "c" .never, {}⟩,
    ⟨.terminate "p" "c" .never, {}⟩,
    ⟨.apply "p" "c" .never,
      { outages := [{ method := .put, holds := "status" }, { method := .deleteAll }] }⟩]

/-- The context whose removal failed is left, with its root, and a deletion of the cluster leaves
    nothing of the contexts that its ledger names. -/
theorem contexts_accounted_for_leftBehind :
    (after unaryId (some {}) leftBehind).stores.contexts.keys = ["/context/aa/"] ∧
    (after unaryId (some {}) leftBehind).stores.contexts.Rooted "aa" ∧
    ∃ l, (after unaryId (some {}) leftBehind).stores.documents.ledger? "p" "c" = some l ∧
      ∀ id ∈ l.ids, ∀ key, Text.beginsWith (Handle.root id).key key = true →
        ((after unaryId (some {}) leftBehind).step
          ⟨.deleteCluster "p" "c", {}⟩).stores.contexts.get? key = none := by
  obtain ⟨-, hknown, hdeleted⟩ :=
    @contexts_accounted_for _ (some {}) unaryId_valid leftBehind
  obtain ⟨hkeys, hanswer⟩ : (after unaryId (some {}) leftBehind).stores.contexts.keys
        = ["/context/aa/"] ∧
      ((after unaryId (some {}) leftBehind).step ⟨.deleteCluster "p" "c", {}⟩).answers
        = (after unaryId (some {}) leftBehind).answers ++ [.ok ()] := by
    decide +kernel
  obtain ⟨cell, hcell⟩ := OrderedMap.mem_keys_iff.1 (hkeys ▸ List.mem_singleton.2 rfl)
  have hbegins : Text.beginsWith (Handle.root "aa").key "/context/aa/" = true := by decide +kernel
  exact ⟨hkeys, (hknown "aa" "/context/aa/" cell (by decide) hbegins hcell).1,
    hdeleted "p" "c" {} hanswer⟩

end History

end NetIntent
