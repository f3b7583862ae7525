import NetIntent.Proofs.Reporting

namespace NetIntent

/-!
# No cluster is stuck

Whatever was declared, and whatever became of earlier requests, a registered cluster can be taken
further: intents that are not applied can be applied and their cluster can be deleted, and intents
that are applied can be terminated. No check on the way can refuse a name that was accepted before.

* `World.Accepting` — the synchronizer accepts every request in time;
* `Stores.Reporting.run_commit` — what is declared can be built and recorded;
* `Stores.Reporting.vacant_of_idle` — no context is left of a cluster that is not applied;
* `Reached.never_stuck` — every registered cluster can be taken further.
-/

open Op Registry Deployment

/-- There is a synchronizer, and it accepts every request within the time limit. -/
def World.Accepting (w : World) : Prop :=
  ∃ s delayMs, w.synchronizer = some s ∧ s.answer = .after delayMs .accepted ∧ delayMs ≤ w.limitMs

/-- Where requests are accepted there is a synchronizer. -/
theorem World.Accepting.isSome {w : World} (h : w.Accepting) : w.synchronizer.isSome = true := by
  obtain ⟨s, _, hs, -⟩ := h
  rw [hs]
  rfl

/-- A request that is not given up is accepted. -/
theorem World.Accepting.run_ask {w : World} (h : w.Accepting) (request : Request) (id : String) :
    ((ask request id .never).run w).1 = .ok () := by
  obtain ⟨s, delayMs, hs, haccept, hdelay⟩ := h
  exact run_ask_of_accept hs haccept hdelay request id

/-- Circumstances may be those of an accepting synchronizer. -/
theorem World.accepting_under {w : World} {c : Circumstances} {delayMs : Nat}
    (h : w.synchronizer.isSome = true) (hc : c.answer = .after delayMs .accepted)
    (hdelay : delayMs ≤ c.limitMs) : (w.under c).Accepting := by
  obtain ⟨s, hs⟩ := Option.isSome_iff_exists.1 h
  exact ⟨{ s with answer := c.answer }, delayMs, by simp [World.under, hs], hc, hdelay⟩

namespace Stores

variable {s : Stores} {written : Written} {p c : String} {l : Ledger}

/-- A context that is shown has its root. -/
theorem Reports.rooted {id : String} {networks : List Network}
    {providerNetworks : List ProviderNetwork}
    (h : s.Reports written p c id networks providerNetworks) : s.contexts.Rooted id :=
  h.nodes.get?_of_mem (n := (Handle.root id, .string id))
    (mem_reportedNodes.2 (.inl (mem_contextNodes.2 (.inl List.mem_cons_self)))) rfl

namespace Reporting

/-- The ids of a ledger were taken from the supply. -/
theorem valid_of_mem (hs : s.Reporting written) (hids : ValidIds s.contextId)
    (hl : s.documents.ledger? p c = some l) {id : String} (hid : id ∈ l.appliedIds) :
    RunContext.isValidId id = true := by
  obtain ⟨n, -, rfl⟩ := hs.chronicled.minted p c l hl id hid
  exact hids.valid n

/-- No context is left of a cluster whose intents are not applied. -/
theorem vacant_of_idle (hs : s.Reporting written) (hids : ValidIds s.contextId)
    (hl : s.documents.ledger? p c = some l) (hidle : l.current ≠ .ok .applied) :
    ∀ id ∈ l.ids, RunContext.isValidId id = true ∧ s.contexts.Vacant id := by
  intro id hid
  have hmem := (hs.chronicled.mem_ids_iff hids.ne_empty hl).1 hid
  exact ⟨hs.valid_of_mem hids hl hmem, hs.gone p c l hl id hmem fun hrun => hidle hrun.1⟩

section

variable {w : World} (hs : w.stores.Reporting written) (hw : w.Undisturbed)
  (hp : Metadata.IsName p) (hc : Metadata.IsName c) (hl : w.documents.ledger? p c = some l)
include hs hw hp hc hl

/-- What is declared can be built and recorded: all names were checked when it was declared. -/
theorem run_commit (hids : ValidIds w.contextId)
    (hidle : l.current = .ok .created ∨ l.current = .ok .terminated)
    (hsync : w.synchronizer.isSome = true) :
    ∃ (networks : List Network) (providerNetworks : List ProviderNetwork),
      (commit p c).run w = (.ok (w.contextId w.minted),
        w.recording p c l (render networks ++ render providerNetworks)) ∧
      (w.stores.recording p c l (render networks ++ render providerNetworks) w.now).Shows p c
        w.stores.nextId networks providerNetworks := by
  have hfiled := hs.chronicled.sound.filed
  obtain ⟨networks, providerNetworks, hsurvey, hdeclared, hproviderDeclared⟩ :=
    run_survey hw hfiled hs.tidy hp.1 hc.1 hl hidle hsync
  have hcluster : (Segment.level "cluster" (contextClusterName p c)).Sound :=
    Segment.sound_joined (by decide) hp.2.2 hc.2.2
  have hnames : ∀ r ∈ render networks ++ render providerNetworks,
      (Segment.level "resource" r.name).Sound := by
    intro r hr
    rcases List.mem_append.1 hr with hr | hr
    · exact hdeclared.sound_resource hs.tidy .network hr
    · exact hproviderDeclared.sound_resource hs.tidy .providerNetwork hr
  refine ⟨networks, providerNetworks, ?_, ?_, ?_, ?_⟩
  · exact Deployment.run_commit hw hfiled hp.1 hc.1 hl hsurvey
      (Handle.validateName_eq_ok_iff.2 hcluster.2)
      fun r hr => Handle.validateName_eq_ok_iff.2 (hnames r hr).2
  · exact hdeclared.congr fun n => DocumentStore.value?_key_withLedger .network _
  · exact hproviderDeclared.congr fun n => DocumentStore.value?_key_withLedger .providerNetwork _
  · -- nothing was stored yet under the id that was taken
    exact (hs.vacant _ (Nat.le_refl _)).holds_built (hids.isWord _) hcluster.2.2.1
      (fun r hr => (hnames r hr).2.2.1) (nodup_resourceNames hdeclared hproviderDeclared)

/-- Intents that are not applied can be applied, and then their context shows them. -/
theorem apply_accepted (hids : ValidIds w.contextId)
    (hidle : l.current = .ok .created ∨ l.current = .ok .terminated) (haccept : w.Accepting) :
    ((apply p c .never).run w).1 = .ok (w.contextId w.minted) ∧
      ∃ networks providerNetworks, ((apply p c .never).run w).2.stores
          = w.stores.recording p c l (render networks ++ render providerNetworks) w.now ∧
        ((apply p c .never).run w).2.stores.Shows p c w.stores.nextId networks providerNetworks := by
  obtain ⟨networks, providerNetworks, hcommit, hshown⟩ :=
    hs.run_commit hw hp hc hl hids hidle haccept.isSome
  obtain ⟨hstores, -⟩ := ask_ensures .install (w.contextId w.minted) .never
    (w := w.recording p c l (render networks ++ render providerNetworks))
  rw [run_apply hcommit]
  refine ⟨?_, networks, providerNetworks, hstores, ?_⟩
  · -- what is recorded has nothing to do with the synchronizer
    have hrecording : (w.recording p c l (render networks ++ render providerNetworks)).Accepting :=
      haccept
    rw [hrecording.run_ask]
    rfl
  · rw [hstores]
    exact hshown

/-- A cluster whose intents are not applied can be deleted. -/
theorem deleteCluster_succeeds (hids : ValidIds w.contextId)
    (hidle : l.current = .ok .created ∨ l.current = .ok .terminated) :
    ((deleteCluster p c).run w).1 = .ok () := by
  have hidle' : l.current ≠ .ok .applied := by rcases hidle with h | h <;> simp [h]
  rw [run_deleteCluster_of_vacant hw hs.chronicled.sound.filed hp.1 hc.1 hl hidle
    (hs.vacant_of_idle hids hl hidle')]

/-- Intents that are applied can be terminated, and then their context is gone. -/
theorem terminate_accepted (hids : ValidIds w.contextId) (hcurrent : l.current = .ok .applied)
    (haccept : w.Accepting) :
    ((terminate p c .never).run w).1 = .ok () ∧
      ((terminate p c .never).run w).2.contexts.Vacant l.lastId := by
  obtain ⟨networks, providerNetworks, hshown⟩ := hs.shown p c l hl hcurrent
  have hid := hs.valid_of_mem hids hl (hs.chronicled.lastId_mem hl hcurrent)
  have hfiled := hs.chronicled.sound.filed
  have hretrieved := run_retrieve hw hfiled hp.1 hc.1 hl hcurrent haccept.isSome hid hshown.rooted
  have hrun := run_terminate hw hfiled hretrieved .never
  have hasked := haccept.run_ask .uninstall l.lastId
  rcases hask : (ask .uninstall l.lastId .never).run w with ⟨r, w₁⟩
  rw [hask] at hasked hrun
  obtain rfl : r = .ok () := hasked
  rw [hrun]
  exact ⟨rfl, ContextStore.vacant_eraseScan _ _⟩

end

end Reporting

end Stores

/-- **No cluster is stuck.** After any operations with answering stores, whatever the synchronizer
    answered and wrote in between, a registered cluster has a ledger. If its intents are not
    applied, then its deletion succeeds while the stores answer, and so does applying them, if the
    synchronizer accepts that. If they are applied, then terminating them succeeds in the same way,
    and nothing of their context is left. -/
theorem Reached.never_stuck {ids : Nat → String} {synchronizer : Option Synchronizer} {h : History}
    {written : Written} (hids : ValidIds ids) (hreached : Reached ids synchronizer h written)
    {p c : String} {cluster : Cluster} (hcluster : h.stores.documents.cluster? p c = some cluster)
    {w : World} (hw : w.Undisturbed) (hstores : w.stores = h.stores) :
    ∃ l, h.stores.documents.ledger? p c = some l ∧
      ((l.current = .ok .created ∨ l.current = .ok .terminated) ∧
          ((deleteCluster p c).run w).1 = .ok () ∧
          (w.Accepting → ((apply p c .never).run w).1 = .ok h.stores.nextId) ∨
        l.current = .ok .applied ∧
          (w.Accepting → ((terminate p c .never).run w).1 = .ok () ∧
            ((terminate p c .never).run w).2.contexts.Vacant l.lastId)) := by
  obtain ⟨hs, hsupply⟩ := hreached.reporting hids
  rw [← hstores] at hs hsupply hcluster ⊢
  have hids' : ValidIds w.contextId := by
    rw [show w.contextId = ids from hsupply]
    exact hids
  obtain ⟨hp, hc, l, hl⟩ := hs.registered p c cluster hcluster
  refine ⟨l, hl, ?_⟩
  have hidle (hidle : l.current = .ok .created ∨ l.current = .ok .terminated) :
      ((deleteCluster p c).run w).1 = .ok () ∧
        (w.Accepting → ((apply p c .never).run w).1 = .ok w.stores.nextId) :=
    ⟨hs.deleteCluster_succeeds hw hp hc hl hids' hidle, fun haccept =>
      (hs.apply_accepted hw hp hc hl hids' hidle haccept).1⟩
  -- The life that the ledger tells has come to one of three states.
  obtain ⟨finished, running, hlife⟩ := hs.chronicled.life p c l hl
  rcases hlife.current_cases with ⟨hcreated, -⟩ | ⟨happlied | hterminated, -⟩
  · exact .inl ⟨.inl hcreated, hidle (.inl hcreated)⟩
  · exact .inr ⟨happlied, hs.terminate_accepted hw hp hc hl hids' happlied⟩
  · exact .inl ⟨.inr hterminated, hidle (.inr hterminated)⟩

/-- A run in which the request to install is declined, and the request to uninstall is not answered
    in time. -/
def givenUp : List Step :=
  [⟨.createProvider ⟨{ name := "p" }⟩, {}⟩,
    ⟨.createCluster "p" ⟨{ name := "c" }⟩ {}, {}⟩,
    ⟨.createNetwork ⟨{ name := "instruction" }, "ovn4nfv", []⟩ "p" "c" false, {}⟩,
    ⟨.apply "p" "c" .never, { answer := .reject }⟩,
    ⟨.terminate "p" "c" .never, { answer := .hang }⟩]

/-- After a request that was not answered the intents are still applied, and terminating them again
    succeeds. -/
theorem Reached.never_stuck_givenUp :
    ∃ l, (History.after unaryId (some {}) givenUp).stores.documents.ledger? "p" "c" = some l ∧
      l.actions = [(.created, ""), (.applied, "a")] ∧
      ((terminate "p" "c" .never).run
        ((History.after unaryId (some {}) givenUp).world.under {})).1 = .ok () ∧
      ((terminate "p" "c" .never).run
        ((History.after unaryId (some {}) givenUp).world.under {})).2.contexts.Vacant "a" := by
  have hcalm : ({} : Circumstances).Undisturbed := ⟨rfl, rfl, rfl⟩
  have hreached : Reached unaryId (some {}) (History.after unaryId (some {}) givenUp) fun _ => none :=
    Reached.start.steps givenUp (by
      simp only [givenUp, List.forall_mem_cons, List.not_mem_nil, false_implies, implies_true]
      exact ⟨hcalm, hcalm, hcalm, ⟨rfl, rfl, rfl⟩, ⟨rfl, rfl, rfl⟩, trivial⟩)
  -- A termination was given up, so that the context is still recorded as applied.
  obtain ⟨hledger, hcluster, hsync⟩ :
      ((History.after unaryId (some {}) givenUp).stores.documents.ledger? "p" "c").map
          (fun l => (l.actions, l.lastId, decide (l.current = .ok .applied)))
        = some ([(.created, ""), (.applied, "a")], "a", true) ∧
      ((History.after unaryId (some {}) givenUp).stores.documents.cluster? "p" "c").isSome = true ∧
      (History.after unaryId (some {}) givenUp).world.synchronizer.isSome = true := by
    decide +kernel
  -- The rest holds of every state with these facts, so that the run is computed only above.
  suffices hany : ∀ h : History, Reached unaryId (some {}) h (fun _ => none) →
      (h.stores.documents.ledger? "p" "c").map
          (fun l => (l.actions, l.lastId, decide (l.current = .ok .applied)))
        = some ([(.created, ""), (.applied, "a")], "a", true) →
      (h.stores.documents.cluster? "p" "c").isSome = true →
      h.world.synchronizer.isSome = true →
      ∃ l, h.stores.documents.ledger? "p" "c" = some l ∧
        l.actions = [(.created, ""), (.applied, "a")] ∧
        ((terminate "p" "c" .never).run (h.world.under {})).1 = .ok () ∧
        ((terminate "p" "c" .never).run (h.world.under {})).2.contexts.Vacant "a" from
    hany _ hreached hledger hcluster hsync
  intro h hreached hledger hcluster hsync
  obtain ⟨cluster, hcluster⟩ := Option.isSome_iff_exists.1 hcluster
  have haccept : (h.world.under {}).Accepting := World.accepting_under hsync rfl (Nat.zero_le _)
  obtain ⟨l, hl, hidle | ⟨-, hterminated⟩⟩ := Reached.never_stuck unaryId_valid hreached hcluster
    (h.world.undisturbed_under hcalm) rfl
  all_goals
    rw [hl] at hledger
    obtain ⟨hactions, hlast, hcurrent⟩ : l.actions = _ ∧ l.lastId = "a" ∧ l.current = .ok .applied := by
      simpa using hledger
  · simp [hcurrent] at hidle
  · exact ⟨l, hl, hactions, (hterminated haccept).1, hlast ▸ (hterminated haccept).2⟩

end NetIntent
