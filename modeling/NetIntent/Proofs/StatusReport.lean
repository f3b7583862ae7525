import NetIntent.Proofs.ContextReport
import NetIntent.Proofs.Counting
import NetIntent.Proofs.Reporting

namespace NetIntent

/-!
# The report on a cluster

While the stores answer, every registered cluster can be reported on. What is reported of an applied
cluster are its intents, each with the status that the synchronizer wrote last for its resource.

* `get?_observedCounts` — the counts are those of the statuses;
* `Intent.ReadsBack`, `Intent.report` — what is reported of an intent;
* `Answered` — what a query answers, by the ledger of the cluster;
* `Stores.Reporting.answered` — one query;
* `Reached.status_answered` — these answers are given after all reachable histories.
-/

open Op Registry Deployment

/-! ### Counts and reports -/

/-- What is reported of a resource that was seen. -/
def Observed.report (r : Observed) : ResourceReport :=
  { gvk := r.object.gvk, name := r.object.name, rsyncStatus := r.status }

/-- Without filters, all that was seen is reported. -/
theorem resourceReports_all (seen : List Observed) :
    resourceReports .all [] seen = seen.map Observed.report := by
  simp [resourceReports, keeps, detailOf, Observed.report]

/-- How many resources have a status. -/
def statusCount (resources : List ResourceReport) (status : String) : Nat :=
  resources.countP fun r => decide (r.rsyncStatus.map InstallStatus.name = some status)

/-- A status is counted as often in the reports as it was seen. -/
theorem statusCount_map_report (seen : List Observed) (status : String) :
    statusCount (seen.map Observed.report) status
      = (seen.filterMap fun r => r.status.map InstallStatus.name).count status := by
  rw [statusCount, List.countP_map, List.count_filterMap]
  refine List.countP_congr fun r _ => ?_
  rw [Function.comp_apply, decide_eq_true_iff, beq_iff_eq]
  rfl

/-- The counts after resources were counted are larger by the numbers of their statuses. -/
theorem get?_observedCounts (seen : List Observed) (counts : Counts) (status : String) :
    (observedCounts seen counts).get? status
      = if statusCount (seen.map Observed.report) status = 0 then counts.get? status
        else some ((counts.get? status).getD 0
          + statusCount (seen.map Observed.report) status) := by
  rw [observedCounts_eq, Counts.get?_tally, statusCount_map_report]
  split
  · rename_i hmem
    rw [if_neg (mt List.count_eq_zero.1 (not_not_intro hmem))]
  · rename_i hmem
    rw [if_pos (List.count_eq_zero_of_not_mem hmem)]

section Intents

variable {α : Type} [Intent α]

/-- The text of the custom resource of the intent is read back with its version, its kind and its
    name. -/
def Intent.ReadsBack (i : α) : Prop :=
  (KubeObject.ofManifest? (Intent.resourceText i)).map (fun o => (o.apiVersion, o.kind, o.name))
    = some (resourceVersion, Intent.kind α, Intent.name i)

/-- What is reported of an intent: the status that was written for its resource. -/
def Intent.report (written : Written) (id cluster : String) (i : α) : ResourceReport :=
  { gvk := ⟨"k8s.plugin.opnfv.org", "v1alpha1", Intent.kind α⟩, name := Intent.name i,
    rsyncStatus := (written (resourceHandle id cluster (Intent.resourceName i))).bind
      InstallStatus.ofDocument? }

/-- The custom resources of intents have one group and one version. -/
theorem gvk_resourceVersion (kind : String) :
    Gvk.ofApiVersion resourceVersion kind = ⟨"k8s.plugin.opnfv.org", "v1alpha1", kind⟩ := by
  have hsplit : Text.splitLast '/' resourceVersion = some ("k8s.plugin.opnfv.org", "v1alpha1") := by
    decide
  rw [Gvk.ofApiVersion, hsplit]

/-- Intents whose texts can be read back are reported one by one. -/
theorem filterMap_render {written : Written} {id cluster : String} {intents : List α}
    (h : ∀ i ∈ intents, Intent.ReadsBack i) :
    (render intents).filterMap (fun r => (observed? written id cluster r).map Observed.report)
      = intents.map (Intent.report written id cluster) := by
  rw [render, List.filterMap_map, ← List.filterMap_eq_map]
  refine List.filterMap_congr fun i hi => ?_
  obtain ⟨o, ho, heq⟩ := Option.map_eq_some_iff.1 (h i hi)
  obtain ⟨hversion, hkind, hname⟩ := by simpa using heq
  simp [observed?, ho, Observed.report, Intent.report, KubeObject.gvk, hversion, hkind, hname,
    gvk_resourceVersion]

end Intents

/-! ### What a query answers -/

/-- What a query on a cluster without a filter answers, by its ledger. -/
inductive Answered (s : Stores) (written : Written) (p c : String) (l : Ledger) :
    Except Failure StatusReport → Prop
  /-- The intents were never applied. -/
  | notApplied (hcurrent : l.current = .ok .created) :
    Answered s written p c l (.error (.notApplied (contextClusterName p c)))
  /-- They are terminated, and their context is gone. -/
  | gone (hcurrent : l.current = .ok .terminated) :
    Answered s written p c l (.error (.notFound "AppContext" l.lastId))
  /-- They are applied: each declared intent is reported with the status that was written for it,
      and the statuses are counted. -/
  | reported (hcurrent : l.current = .ok .applied) {status : ContextStatus}
      (hstatus : s.contexts.value? ((Handle.root l.lastId).leaf "status").key
        = some status.document)
      {networks : List Network} {providerNetworks : List ProviderNetwork}
      (hnetworks : s.documents.Declares p c networks)
      (hproviderNetworks : s.documents.Declares p c providerNetworks)
      {resources : List ResourceReport}
      (hresources : resources.Perm
        (networks.map (Intent.report written l.lastId (contextClusterName p c))
          ++ providerNetworks.map (Intent.report written l.lastId (contextClusterName p c))))
      {counts : Counts}
      (hcounts : ∀ status, counts.get? status
        = if statusCount resources status = 0 then none else some (statusCount resources status)) :
    Answered s written p c l (.ok
      { name := c, ledger := l, status := status, rsyncCounts := counts,
        apps := networkApps p c resources })

/-- The last context of an applied cluster can be reported on. -/
theorem Stores.Reporting.displays {w : World} {written : Written}
    (hs : w.stores.Reporting written) (hids : ValidIds w.contextId) (hw : w.Undisturbed)
    {p c : String} {l : Ledger} (hl : w.documents.ledger? p c = some l)
    (hcurrent : l.current = .ok .applied) {networks : List Network}
    {providerNetworks : List ProviderNetwork}
    (hshown : w.stores.Reports written p c l.lastId networks providerNetworks) :
    w.Displays written l.lastId (contextClusterName p c)
      (render networks ++ render providerNetworks) where
  undisturbed := hw
  nodes := hshown.nodes
  sayable := hs.sayable hids hl hcurrent hshown
  named := by
    -- The names of both kinds of resources have just one plus sign.
    have hkind : ∀ {α : Type} [Intent α] {intents : List α}, IntentKind α →
        w.documents.Declares p c intents → ∀ r ∈ render intents,
          Handle.isResourceName r.name = true := by
      intro α _ intents kind hdeclared r hr
      obtain ⟨i, hi, rfl⟩ := List.mem_map.1 hr
      exact Handle.isResourceName_joined (hdeclared.isName hs.tidy kind hi).2.1 kind.isName.2.1
    intro r hr
    rcases List.mem_append.1 hr with hr | hr
    · exact hkind .network hshown.declared r hr
    · exact hkind .providerNetwork hshown.providerDeclared r hr
  nodup := nodup_resourceNames hshown.declared hshown.providerDeclared
  valid := hs.valid

section Query

variable {w : World} {p c : String} {l : Ledger}

/-- The status of a cluster whose intents were never applied is refused. -/
theorem run_status_of_created (hledger : (getLedger p c).run w = (.ok l, w)) (hlast : l.lastId = "") :
    (Deployment.status p c {}).run w = (.error (.notApplied (contextClusterName p c)), w) := by
  unfold status
  rw [run_bind_ok hledger, if_pos ⟨rfl, hlast⟩, throw_bind, run_throw]

/-- The status of a cluster whose last context is gone is refused, since that is not found. -/
theorem run_status_of_vacant (hw : w.Undisturbed) (hledger : (getLedger p c).run w = (.ok l, w))
    (hid : RunContext.isValidId l.lastId = true) (hvacant : w.contexts.Vacant l.lastId) :
    (Deployment.status p c {}).run w = (.error (.notFound "AppContext" l.lastId), w) := by
  have hne : l.lastId ≠ "" := (Handle.isValidId_iff.1 hid).1
  have hnone := hvacant _ (Handle.beginsWith_root_self (Handle.root l.lastId))
  have hgather : (gather l [networkApp] {}).run w
      = (.error (.notFound "AppContext" l.lastId), w) := by
    unfold gather
    dsimp only
    rw [if_pos rfl]
    exact run_bind_error (AppContext.run_fromId_of_none hw hid hnone)
  unfold status
  rw [run_bind_ok hledger, if_neg fun hempty => hne hempty.2]
  exact run_bind_error hgather

/-- The report on a cluster whose context shows these intents. -/
theorem World.Displays.run_status {written : Written} {networks : List Network}
    {providerNetworks : List ProviderNetwork}
    (h : w.Displays written l.lastId (contextClusterName p c)
      (render networks ++ render providerNetworks))
    (hledger : (getLedger p c).run w = (.ok l, w)) (hp : '+' ∉ p.toList)
    (hnetworks : ∀ i ∈ networks, Intent.ReadsBack i)
    (hproviderNetworks : ∀ i ∈ providerNetworks, Intent.ReadsBack i) :
    ∃ (resources : List ResourceReport) (counts : Counts),
      (Deployment.status p c {}).run w
        = (.ok { name := c, ledger := l, status := .instantiating, rsyncCounts := counts,
                 apps := networkApps p c resources }, w) ∧
      resources.Perm (networks.map (Intent.report written l.lastId (contextClusterName p c))
        ++ providerNetworks.map (Intent.report written l.lastId (contextClusterName p c))) ∧
      ∀ status, counts.get? status
        = if statusCount resources status = 0 then none else some (statusCount resources status) := by
  obtain ⟨rs, hrs, hgather⟩ := h.run_gather hp rfl
  have hne : l.lastId ≠ "" := (Handle.isValidId_iff.1 h.sayable.id_valid).1
  generalize hseen : rs.filterMap (observed? written l.lastId (contextClusterName p c)) = seen
    at hgather
  refine ⟨resourceReports .all [] seen, observedCounts seen .empty, ?_, ?_, ?_⟩
  · unfold Deployment.status
    rw [run_bind_ok hledger, if_neg fun hempty => hne hempty.2]
    exact (run_bind_ok hgather).trans rfl
  · -- in the order of the keys, and not in that of the documents
    rw [resourceReports_all, ← hseen, List.map_filterMap]
    refine (hrs.filterMap _).trans (List.Perm.of_eq ?_)
    rw [List.filterMap_append, filterMap_render hnetworks, filterMap_render hproviderNetworks]
  · intro status
    rw [get?_observedCounts, resourceReports_all]
    simp

end Query

/-- What is answered to a query on a registered cluster. -/
theorem Stores.Reporting.answered {w : World} {written : Written}
    (hs : w.stores.Reporting written) (hids : ValidIds w.contextId) (hw : w.Undisturbed)
    {p c : String} {cluster : Cluster} (hcluster : w.documents.cluster? p c = some cluster)
    (hread : ∀ (α : Type) [Intent α], IntentKind α → ∀ i : α, w.documents.HasIntent p c i →
      Intent.ReadsBack i) :
    ∃ l answer, w.documents.ledger? p c = some l ∧
      (Deployment.status p c {}).run w = (answer, w) ∧ Answered w.stores written p c l answer := by
  obtain ⟨hp, hc, l, hl⟩ := hs.registered p c cluster hcluster
  have hledger := run_getLedger hw hs.chronicled.sound.filed hp.1 hc.1 hl
  -- The life that the ledger tells has come to one of three states.
  obtain ⟨finished, running, hlife⟩ := hs.chronicled.life p c l hl
  rcases hlife.current_cases with ⟨hcreated, hlast⟩ | ⟨happlied | hterminated, hmem⟩
  · exact ⟨l, _, hl, run_status_of_created hledger hlast, .notApplied hcreated⟩
  · obtain ⟨networks, providerNetworks, hshown⟩ := hs.shown p c l hl happlied
    have hdisplays := hs.displays hids hw hl happlied hshown
    obtain ⟨resources, counts, hrun, hresources, hcounts⟩ := hdisplays.run_status hledger hp.2.1
      (fun i hi => hread _ .network i (hshown.declared.hasIntent_iff.2 hi))
      (fun i hi => hread _ .providerNetwork i (hshown.providerDeclared.hasIntent_iff.2 hi))
    refine ⟨l, _, hl, hrun, .reported happlied ?_ hshown.declared hshown.providerDeclared hresources
      hcounts⟩
    rw [ContextStore.value?, World.stores_contexts, hdisplays.get?_overallStatus]
  · have hid : RunContext.isValidId l.lastId = true := by
      obtain ⟨n, -, heq⟩ := hs.chronicled.minted p c l hl _ hmem
      rw [heq]
      exact hids.valid n
    exact ⟨l, _, hl, run_status_of_vacant hw hledger hid
      (hs.gone p c l hl _ hmem (by simp [hterminated])),
      .gone hterminated⟩

/-- **What is applied is what is reported.** After any operations with answering stores, with
    statuses that the synchronizer wrote for resources in between, a query on a registered cluster
    without a filter says that it was not applied, that its context is gone, or, for each intent
    that is declared, what was written for it last; and it changes nothing. The texts of the stored
    intents have to be read back as they were written. -/
theorem Reached.status_answered {ids : Nat → String} {synchronizer : Option Synchronizer}
    {h : History} {written : Written} (hids : ValidIds ids)
    (hreached : Reached ids synchronizer h written) {circumstances : Circumstances}
    (hcalm : circumstances.Undisturbed) {p c : String} {cluster : Cluster}
    (hcluster : h.stores.documents.cluster? p c = some cluster)
    (hread : ∀ (α : Type) [Intent α], IntentKind α → ∀ i : α,
      h.stores.documents.HasIntent p c i → Intent.ReadsBack i) :
    ∃ l answer, h.stores.documents.ledger? p c = some l ∧
      (Deployment.status p c {}).run (h.world.under circumstances)
        = (answer, h.world.under circumstances) ∧
      Answered h.stores written p c l answer := by
  obtain ⟨hs, hsupply⟩ := hreached.reporting hids
  have hids' : ValidIds (h.world.under circumstances).contextId := by
    rw [show (h.world.under circumstances).contextId = ids from hsupply]
    exact hids
  exact Stores.Reporting.answered (w := h.world.under circumstances) hs hids'
    (h.world.undisturbed_under hcalm) hcluster hread

namespace History

/-- A network. -/
def declaredOne : Network := ⟨{ name := "n" }, "ovn4nfv", []⟩

/-- A run in which this network is declared and applied. -/
def oneApplied : List Step :=
  [⟨.createProvider ⟨{ name := "p" }⟩, {}⟩,
    ⟨.createCluster "p" ⟨{ name := "c" }⟩ {}, {}⟩,
    ⟨.createNetwork declaredOne "p" "c" false, {}⟩,
    ⟨.apply "p" "c" .never, {}⟩]

/-- What is stored after it. -/
theorem documents_oneApplied :
    ((after unaryId (some {}) oneApplied).stores.documents.ledger? "p" "c").map
        (fun l => (decide (l.current = .ok .applied), l.lastId)) = some (true, "a") ∧
      ((after unaryId (some {}) oneApplied).stores.documents.cluster? "p" "c").isSome = true ∧
      ((after unaryId (some {}) oneApplied).stores.documents.find Registry.store
        (Intent.key Network "p" "c" "") (Intent.tag Network)).mapM Intent.ofJson?
          = some [declaredOne] ∧
      ((after unaryId (some {}) oneApplied).stores.documents.find Registry.store
        (Intent.key ProviderNetwork "p" "c" "") (Intent.tag ProviderNetwork)).mapM
          (Intent.ofJson? (α := ProviderNetwork)) = some [] := by
  decide +kernel

/-- The text of the one intent of the example is read back. -/
theorem readsBack_declaredOne : Intent.ReadsBack declaredOne := by
  have htext : Intent.resourceText declaredOne
      = "apiVersion: k8s.plugin.opnfv.org/v1alpha1\nkind: Network\nmetadata:\n  name: n\n  description: ''\n  userData1: ''\n  userData2: ''\nspec:\n  cniType: ovn4nfv\n  ipv4Subnets: []\n" := by
    decide +kernel
  rw [Intent.ReadsBack, htext]
  decide +kernel

end History

/-- After this run the synchronizer reports on the network, and the query is answered with it. -/
theorem Reached.status_answered_oneApplied :
    ∃ h written l answer, Reached unaryId (some {}) h written ∧
      written (resourceHandle "a" (contextClusterName "p" "c")
        (Intent.resourceName History.declaredOne)) = some InstallStatus.applied.document ∧
      h.stores.documents.ledger? "p" "c" = some l ∧ l.current = .ok .applied ∧
      (Deployment.status "p" "c" {}).run (h.world.under {}) = (answer, h.world.under {}) ∧
      Answered h.stores written "p" "c" l answer := by
  have hcalm : ({} : Circumstances).Undisturbed := ⟨rfl, rfl, rfl⟩
  have hstart : Reached unaryId (some {}) (.start unaryId (some {})) fun _ => none := .start
  have hreached := hstart.steps History.oneApplied (by simp [History.oneApplied, hcalm])
  -- From here on only what is stored after the run counts, and not the run itself.
  have hdocuments := History.documents_oneApplied
  rw [History.after] at hdocuments
  generalize History.oneApplied.foldl History.step (.start unaryId (some {})) = h
    at hreached hdocuments
  obtain ⟨hs, hsupply⟩ := hreached.reporting unaryId_valid
  obtain ⟨hledger, hcluster, hnetworks, hproviderNetworks⟩ := hdocuments
  obtain ⟨l, hl, heq⟩ := Option.map_eq_some_iff.1 hledger
  obtain ⟨hcurrent, hlast⟩ : l.current = .ok .applied ∧ l.lastId = "a" := by simpa using heq
  obtain ⟨cluster, hcluster⟩ := Option.isSome_iff_exists.1 hcluster
  have hdeclared := DocumentStore.declares_of_find hs.chronicled.sound.filed hs.tidy .network
    (by decide) (by decide) hnetworks
  have hproviderDeclared := DocumentStore.declares_of_find hs.chronicled.sound.filed hs.tidy
    .providerNetwork (by decide) (by decide) hproviderNetworks
  -- The synchronizer reports on the network.
  have hresource := hs.hasResource (hsupply ▸ unaryId_valid) hl hcurrent .network
    (hdeclared.hasIntent_iff.2 (List.mem_singleton.2 rfl))
  rw [hlast] at hresource
  have hreported := hreached.report hresource (v := InstallStatus.applied.document) (by decide)
  rw [← h.report_documents (resourceHandle "a" (contextClusterName "p" "c")
    (Intent.resourceName History.declaredOne)) InstallStatus.applied.document]
    at hcluster hl hdeclared hproviderDeclared
  obtain ⟨l', answer, hl', hrun, hanswer⟩ := Reached.status_answered unaryId_valid hreported hcalm
    hcluster (by
      intro α _ kind i hi
      cases kind with
      | network =>
        obtain rfl : i = History.declaredOne := List.mem_singleton.1 (hdeclared.hasIntent_iff.1 hi)
        exact History.readsBack_declaredOne
      | providerNetwork => exact absurd (hproviderDeclared.hasIntent_iff.1 hi) List.not_mem_nil)
  obtain rfl : l = l' := Option.some.inj (hl.symm.trans hl')
  exact ⟨_, _, l, answer, hreported, Function.update_self .., hl', hcurrent, hrun, hanswer⟩

end NetIntent
