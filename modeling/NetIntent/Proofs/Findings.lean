import NetIntent.Proofs.Counting
import NetIntent.Proofs.ReportView

namespace NetIntent

/-!
# What is listed and what is counted

A report is made in two steps: what there is on the clusters of the apps is found, and then it is
listed and counted. The counts take in whatever is found, and the list leaves out the clusters whose
name inside the context has no separator. So the two agree just if nothing is counted there.

* `findings` — what is found on the clusters of the apps of a context;
* `StatusReport.ofFindings` — the report on what is found;
* `gather_shows_findings` — the two steps are what gathering a report does;
* `listed_ofFindings`, `rsyncCounts_ofFindings`, `clusterCounts_ofFindings` — what is listed, and what
  is counted;
* `gather_counts` — how the two differ;
* `counts_ne_listed` — a context for which they differ.
-/

open Op

/-! ### Findings -/

/-- What is found on a cluster of an app. -/
structure ClusterFindings where
  /-- The name of the cluster inside the context. -/
  cluster : String
  resources : List Observed

/-- What is found on the clusters of an app. -/
structure AppFindings where
  app : String
  clusters : List ClusterFindings

namespace AppContext

/-- The resources on a cluster of an app; none if the cluster cannot be read. The objects of a
    snapshot have no status that the synchronizer wrote. -/
def found (c : AppContext) (source : StatusSource) (app cluster : String) : Op (List Observed) :=
  match source with
  | .rsync => do
    match ← (c.getClusterHandle app cluster).attempt with
    | .error _ => return []
    | .ok h =>
      match ← (c.observeCluster h).attempt with
      | .error _ => return []
      | .ok seen => return seen
  | .cluster => do
    match ← c.snapshot app cluster with
    | none => return []
    | some s => return s.objects.map fun object => ⟨object, none⟩

/-- What is found on clusters of an app. -/
def foundOnClusters (c : AppContext) (source : StatusSource) (app : String) :
    List String → Op (List ClusterFindings)
  | [] => return []
  | cluster :: rest => do
    let resources ← c.found source app cluster
    let others ← foundOnClusters c source app rest
    return ⟨cluster, resources⟩ :: others

/-- What is found of apps, on the clusters that the query lets pass. An app whose clusters cannot be
    listed is passed over. -/
def foundOfApps (c : AppContext) (q : StatusQuery) : List String → Op (List AppFindings)
  | [] => return []
  | app :: rest => do
    match ← (c.getClusterNames app).attempt with
    | .error _ => foundOfApps c q rest
    | .ok clusters =>
      let clusters ← c.foundOnClusters q.source app (clusters.filter (keeps q.clusters))
      let others ← foundOfApps c q rest
      return ⟨app, clusters⟩ :: others

end AppContext

/-- The overall status of the context that a query names, or of the last one of a ledger, and what is
    found there. -/
def findings (l : Ledger) (apps : List String) (q : StatusQuery) :
    Op (ContextStatus × List AppFindings) := do
  let c ← AppContext.fromId (if q.contextId = "" then l.lastId else q.contextId)
  let status ← c.overallStatus
  let found ← c.foundOfApps q (apps.filter (keeps q.apps))
  return (status, found)

/-! ### The report on findings -/

namespace StatusQuery

variable (q : StatusQuery)

/-- The status by which a resource is counted, if it has one. -/
def counted (r : Observed) : Option String :=
  match q.source with
  | .rsync => r.status.map InstallStatus.name
  | .cluster => some present

/-- What is reported of a resource. -/
def reported (r : Observed) : ResourceReport :=
  let report : ResourceReport :=
    { gvk := r.object.gvk, name := r.object.name, detail := detailOf q.output r.object }
  match q.source with
  | .rsync => { report with rsyncStatus := r.status }
  | .cluster => { report with clusterStatus := some present }

/-- What is reported of the resources that the filter lets pass. -/
def reports (resources : List Observed) : List ResourceReport :=
  (resources.filter fun r => keeps q.resources r.object.name).map q.reported

end StatusQuery

/-- The report on a cluster, if there is one. -/
def ClusterFindings.report? (q : StatusQuery) (f : ClusterFindings) : Option ClusterReport :=
  clusterReport? f.cluster (q.reports f.resources)

/-- The report on an app, if there is one. -/
def AppFindings.report? (q : StatusQuery) (f : AppFindings) : Option AppReport :=
  appReport? q f.app (f.clusters.filterMap (ClusterFindings.report? q))

/-- All resources on these clusters. -/
def resourcesOn (clusters : List ClusterFindings) : List Observed :=
  clusters.flatMap (·.resources)

/-- All clusters of these apps. -/
def clustersOf (found : List AppFindings) : List ClusterFindings := found.flatMap (·.clusters)

/-- The counts of what is found on clusters. -/
def StatusQuery.counts (q : StatusQuery) (clusters : List ClusterFindings) (counts : Counts) :
    Counts :=
  counts.tally ((resourcesOn clusters).filterMap q.counted)

/-- The report on what is found: everything is counted, and what the query lets pass is listed. -/
def StatusReport.ofFindings (l : Ledger) (q : StatusQuery) (status : ContextStatus)
    (found : List AppFindings) : StatusReport :=
  let counts := q.counts (clustersOf found) .empty
  let report : StatusReport :=
    { ledger := l, status := status, apps := found.filterMap (AppFindings.report? q) }
  match q.source with
  | .rsync => { report with rsyncCounts := counts }
  | .cluster => { report with clusterCounts := counts }

/-! ### Gathering is finding and reporting -/

section Gathering

variable (q : StatusQuery) (c : AppContext)

/-- What is returned in the end is seen of the operation before. -/
theorem Op.shows_map {α β : Type} (op : Op α) (view : α → β) :
    (op >>= fun a => pure (view a)).Shows op view := by
  intro w
  rw [run_bind]
  rcases op.run w with ⟨e | a, w'⟩ <;> rfl

/-- Clusters may be counted in two goes. -/
theorem counts_append (clusters clusters' : List ClusterFindings) (counts : Counts) :
    q.counts (clusters ++ clusters') counts = q.counts clusters' (q.counts clusters counts) := by
  simp [StatusQuery.counts, resourcesOn, Counts.tally_append]

/-- The first cluster may be counted on its own. -/
theorem counts_cons (f : ClusterFindings) (clusters : List ClusterFindings) (counts : Counts) :
    q.counts (f :: clusters) counts = q.counts clusters (q.counts [f] counts) :=
  counts_append q [f] clusters counts

/-- What comes of the first element stands before the rest. -/
theorem filterMap_cons_eq {α β : Type} (f : α → Option β) (a : α) (l : List α) :
    (a :: l).filterMap f = (f a).toList ++ l.filterMap f := by
  rw [List.filterMap_cons]
  cases f a <;> rfl

/-- With the synchronizer as source, resources are counted by their status. -/
theorem counted_rsync (hsource : q.source = .rsync) :
    q.counted = fun r => r.status.map InstallStatus.name := by
  funext r
  simp [StatusQuery.counted, hsource]

/-- With the clusters as source, every resource is counted as present. -/
theorem counted_cluster (hsource : q.source = .cluster) : q.counted = fun _ => some present := by
  funext r
  simp [StatusQuery.counted, hsource]

/-- With the synchronizer as source, the reports are made of what was observed. -/
theorem resourceReports_eq (hsource : q.source = .rsync) (seen : List Observed) :
    resourceReports q.output q.resources seen = q.reports seen := by
  simp [resourceReports, StatusQuery.reports, StatusQuery.reported, hsource]

/-- With the synchronizer as source, the counts are made of what was observed. -/
theorem counts_observed (hsource : q.source = .rsync) (cluster : String) (seen : List Observed)
    (counts : Counts) : observedCounts seen counts = q.counts [⟨cluster, seen⟩] counts := by
  rw [observedCounts_eq, StatusQuery.counts, counted_rsync q hsource]
  simp [resourcesOn]

/-- With the clusters as source, the reports are made of the objects of a snapshot. -/
theorem snapshotReports_eq (hsource : q.source = .cluster) (s : Snapshot) :
    snapshotReports q.output q.resources s
      = q.reports (s.objects.map fun object => ⟨object, none⟩) := by
  simp [snapshotReports, StatusQuery.reports, StatusQuery.reported, hsource, List.filter_map,
    Function.comp_def]

/-- With the clusters as source, the counts are made of the objects of a snapshot. -/
theorem counts_snapshot (hsource : q.source = .cluster) (cluster : String) (s : Snapshot)
    (counts : Counts) : snapshotCounts s counts
      = q.counts [⟨cluster, s.objects.map fun object => ⟨object, none⟩⟩] counts := by
  rw [snapshotCounts_eq, StatusQuery.counts, counted_cluster q hsource]
  simp [resourcesOn, List.filterMap_map]

/-- The resources of a cluster are reported and counted as they are found. -/
theorem clusterResources_shows_found (app cluster : String) (counts : Counts) :
    (clusterResources c q app cluster counts).Shows (c.found q.source app cluster)
      fun seen => (q.reports seen, q.counts [⟨cluster, seen⟩] counts) := by
  have hnone : (pure ([], counts) : Op (List ResourceReport × Counts)).Shows (pure [])
      fun seen => (q.reports seen, q.counts [⟨cluster, seen⟩] counts) := fun _ => rfl
  unfold clusterResources AppContext.found
  cases hsource : q.source with
  | rsync =>
    refine shows_bind _ fun handle => ?_
    cases handle with
    | error e => exact hnone
    | ok h =>
      have hresources : (contextResources c h q.output q.resources counts).Shows
          (c.observeCluster h) fun seen => (q.reports seen, q.counts [⟨cluster, seen⟩] counts) := by
        unfold contextResources
        simp only [resourceReports_eq q hsource, counts_observed q hsource cluster]
        exact shows_map _ _
      refine hresources.attempt.bind fun seen => ?_
      cases seen with
      | error e => exact hnone
      | ok seen => exact fun _ => rfl
  | cluster =>
    refine shows_bind _ fun snapshot => ?_
    cases snapshot with
    | none => exact hnone
    | some s =>
      dsimp only
      rw [snapshotReports_eq q hsource, counts_snapshot q hsource cluster]
      exact fun _ => rfl

/-- The reports on the clusters of an app show what is found on them. -/
theorem clusterReports_shows_found (app : String) (clusters : List String) (counts : Counts) :
    (clusterReports c q app clusters counts).Shows (c.foundOnClusters q.source app clusters)
      fun found => (found.filterMap (ClusterFindings.report? q), q.counts found counts) := by
  induction clusters generalizing counts with
  | nil => exact fun _ => rfl
  | cons cluster clusters ih =>
    refine (clusterResources_shows_found q c app cluster counts).bind fun seen => ?_
    refine (ih _).bind fun others => ?_
    intro w
    simp only [run_pure, Except.map]
    rw [filterMap_cons_eq, counts_cons q ⟨cluster, seen⟩ others]
    rfl

/-- The reports on apps show what is found of them. -/
theorem appReports_shows_found (apps : List String) (counts : Counts) :
    (appReports c q apps counts).Shows (c.foundOfApps q apps)
      fun found => (found.filterMap (AppFindings.report? q), q.counts (clustersOf found) counts) := by
  induction apps generalizing counts with
  | nil => exact fun _ => rfl
  | cons app apps ih =>
    refine shows_bind _ fun names => ?_
    cases names with
    | error e => exact ih counts
    | ok names =>
      refine (clusterReports_shows_found q c app _ counts).bind fun clusters => ?_
      refine (ih _).bind fun others => ?_
      intro w
      simp only [run_pure, Except.map]
      rw [filterMap_cons_eq, ← counts_append]
      rfl

/-- To gather a report is to find what there is, and to report on it. -/
theorem gather_shows_findings (l : Ledger) (apps : List String) :
    (gather l apps q).Shows (findings l apps q)
      fun found => .ofFindings l q found.1 found.2 := by
  unfold gather findings
  refine shows_bind _ fun c => shows_bind _ fun status => ?_
  refine (appReports_shows_found q c _ .empty).bind fun found => ?_
  intro w
  unfold StatusReport.ofFindings
  cases q.source with
  | rsync => rfl
  | cluster => rfl

variable {q} {l : Ledger} {apps : List String} {w w' : World}

/-- If something is found, the report is made of it. -/
theorem run_gather_of_findings {status : ContextStatus} {found : List AppFindings}
    (h : (findings l apps q).run w = (.ok (status, found), w')) :
    (gather l apps q).run w = (.ok (.ofFindings l q status found), w') := by
  rw [gather_shows_findings q l apps w, h]
  rfl

/-- If nothing can be found, the report fails for the same reason. -/
theorem run_gather_of_error {e : Failure} (h : (findings l apps q).run w = (.error e, w')) :
    (gather l apps q).run w = (.error e, w') := by
  rw [gather_shows_findings q l apps w, h]
  rfl

end Gathering

/-- The report has the overall status of the context. -/
@[simp] theorem status_ofFindings (l : Ledger) (q : StatusQuery) (status : ContextStatus)
    (found : List AppFindings) : (StatusReport.ofFindings l q status found).status = status := by
  unfold StatusReport.ofFindings
  cases q.source <;> rfl

/-! ### What is listed, and what is counted -/

/-- The resources that a report lists. -/
def StatusReport.listed (r : StatusReport) : List ResourceReport :=
  r.apps.flatMap fun app => app.clusters.flatMap (·.resources)

/-- The name of the cluster inside the context has a separator. -/
def ClusterFindings.IsNamed (f : ClusterFindings) : Prop := (Text.splitOnce '+' f.cluster).isSome

/-- Whether a cluster has a proper name can be tested. -/
instance (f : ClusterFindings) : Decidable f.IsNamed := inferInstanceAs (Decidable (_ = _))

/-- The resources on clusters that are listed under their name. -/
def namedResources (found : List AppFindings) : List Observed :=
  resourcesOn ((clustersOf found).filter fun f => f.IsNamed)

/-- The resources on clusters that are passed over for their name. -/
def namelessResources (found : List AppFindings) : List Observed :=
  resourcesOn ((clustersOf found).filter fun f => ¬ f.IsNamed)

/-- Every resource is on a cluster with a proper name or on one without. -/
theorem perm_namedResources (found : List AppFindings) :
    (namedResources found ++ namelessResources found).Perm (resourcesOn (clustersOf found)) := by
  have hperm := List.filter_append_perm (fun f : ClusterFindings => decide f.IsNamed)
    (clustersOf found)
  simpa [namedResources, namelessResources, resourcesOn] using hperm.flatMap_right _

/-- The apps of a report are those of which there is something to report. -/
theorem apps_ofFindings (l : Ledger) (q : StatusQuery) (status : ContextStatus)
    (found : List AppFindings) :
    (StatusReport.ofFindings l q status found).apps = found.filterMap (AppFindings.report? q) := by
  unfold StatusReport.ofFindings
  cases q.source <;> rfl

section Listed

variable {q : StatusQuery}

/-- Resources may be reported on in two goes. -/
theorem reports_append (resources resources' : List Observed) :
    q.reports (resources ++ resources') = q.reports resources ++ q.reports resources' := by
  simp [StatusQuery.reports]

/-- Without a filter there is a report on every resource. -/
theorem reports_of_nil (hresources : q.resources = []) (resources : List Observed) :
    q.reports resources = resources.map q.reported := by
  simp [StatusQuery.reports, hresources, keeps]

/-- A cluster is listed with its resources, unless its name has no separator. -/
theorem resources_report? (f : ClusterFindings) :
    (f.report? q).toList.flatMap (·.resources)
      = if f.IsNamed then q.reports f.resources else [] := by
  unfold ClusterFindings.report? clusterReport?
  generalize q.reports f.resources = reports
  by_cases hempty : reports = []
  · simp [hempty]
  · cases hname : Text.splitOnce '+' f.cluster <;>
      simp [hempty, hname, ClusterFindings.IsNamed]

/-- The listed resources of clusters are those on clusters with a proper name. -/
theorem resources_filterMap_report? (clusters : List ClusterFindings) :
    (clusters.filterMap (ClusterFindings.report? q)).flatMap (·.resources)
      = q.reports (resourcesOn (clusters.filter fun f => f.IsNamed)) := by
  induction clusters with
  | nil => rfl
  | cons f clusters ih =>
    rw [filterMap_cons_eq, List.flatMap_append, ih, resources_report?]
    by_cases hname : f.IsNamed <;> simp [hname, resourcesOn, reports_append]

/-- The summary lists nothing. -/
theorem listed_of_summary (houtput : q.output = .summary) (l : Ledger) (status : ContextStatus)
    (found : List AppFindings) : (StatusReport.ofFindings l q status found).listed = [] := by
  simp [StatusReport.listed, apps_ofFindings, AppFindings.report?, appReport?, houtput]

variable (houtput : q.output ≠ .summary)
include houtput

/-- The listed resources of an app are those on clusters with a proper name. -/
theorem clusters_report? (f : AppFindings) :
    (f.report? q).toList.flatMap (fun app => app.clusters.flatMap (·.resources))
      = q.reports (resourcesOn (f.clusters.filter fun f => f.IsNamed)) := by
  unfold AppFindings.report? appReport?
  rw [← resources_filterMap_report?]
  generalize f.clusters.filterMap (ClusterFindings.report? q) = clusters
  cases clusters <;> simp [houtput]

/-- The list has the resources on all clusters whose name has a separator. -/
theorem listed_ofFindings (l : Ledger) (status : ContextStatus) (found : List AppFindings) :
    (StatusReport.ofFindings l q status found).listed = q.reports (namedResources found) := by
  rw [StatusReport.listed, apps_ofFindings]
  induction found with
  | nil => rfl
  | cons f found ih =>
    rw [filterMap_cons_eq, List.flatMap_append, clusters_report? houtput, ih, ← reports_append]
    simp [namedResources, clustersOf, resourcesOn]

end Listed

/-- How many of the resources have the status that the synchronizer wrote. -/
def withStatus (resources : List ResourceReport) (s : InstallStatus) : Nat :=
  resources.countP fun r => r.rsyncStatus = some s

/-- How many of the resources are present on their cluster. -/
def withPresence (resources : List ResourceReport) : Nat :=
  resources.countP fun r => r.clusterStatus = some present

section Counted

variable (l : Ledger) (q : StatusQuery) (status : ContextStatus) (found : List AppFindings)

/-- The word of a status tells which status it is. -/
theorem InstallStatus.name_inj {s t : InstallStatus} : s.name = t.name ↔ s = t := by
  cases s <;> cases t <;> decide

/-- There are two sources. -/
theorem StatusQuery.source_cases : q.source = .rsync ∨ q.source = .cluster := by
  cases q.source <;> simp

/-- Whatever is found is counted, on clusters of any name. -/
theorem getD_get?_counts (word : String) :
    ((q.counts (clustersOf found) .empty).get? word).getD 0
      = (namedResources found).countP (fun r => q.counted r == some word)
        + (namelessResources found).countP fun r => q.counted r == some word := by
  rw [StatusQuery.counts, Counts.getD_get?_tally, List.count_filterMap, ← List.countP_append,
    (perm_namedResources found).countP_eq]
  simp

/-- The counts of the statuses that the synchronizer wrote take in the resources on all clusters. -/
theorem rsyncCounts_ofFindings (s : InstallStatus) :
    ((StatusReport.ofFindings l q status found).rsyncCounts.get? s.name).getD 0
      = withStatus ((namedResources found).map q.reported) s
        + withStatus ((namelessResources found).map q.reported) s := by
  rcases q.source_cases with hsource | hsource
  · have hcounts : (StatusReport.ofFindings l q status found).rsyncCounts
        = q.counts (clustersOf found) .empty := by simp [StatusReport.ofFindings, hsource]
    have hcounted : ∀ r, (q.counted r == some s.name)
        = decide ((q.reported r).rsyncStatus = some s) := by
      intro r
      rw [Bool.eq_iff_iff]
      simp [StatusQuery.counted, StatusQuery.reported, hsource, InstallStatus.name_inj]
    rw [hcounts, getD_get?_counts]
    simp only [hcounted, withStatus, List.countP_map, Function.comp_def]
  · -- where the clusters are asked, no such status is read
    have hcounts : (StatusReport.ofFindings l q status found).rsyncCounts = .empty := by
      simp [StatusReport.ofFindings, hsource]
    simp [hcounts, withStatus, StatusQuery.reported, hsource, Function.comp_def]

/-- The count of what is present takes in the objects on all clusters. -/
theorem clusterCounts_ofFindings :
    ((StatusReport.ofFindings l q status found).clusterCounts.get? present).getD 0
      = withPresence ((namedResources found).map q.reported)
        + withPresence ((namelessResources found).map q.reported) := by
  rcases q.source_cases with hsource | hsource
  · have hcounts : (StatusReport.ofFindings l q status found).clusterCounts = .empty := by
      simp [StatusReport.ofFindings, hsource]
    simp [hcounts, withPresence, StatusQuery.reported, hsource, Function.comp_def]
  · have hcounts : (StatusReport.ofFindings l q status found).clusterCounts
        = q.counts (clustersOf found) .empty := by simp [StatusReport.ofFindings, hsource]
    rw [hcounts, getD_get?_counts]
    simp [withPresence, StatusQuery.counted, StatusQuery.reported, hsource, Function.comp_def]

/-- None of the reported resources would count just if none of the found ones does. -/
theorem counted_eq_none_iff (resources : List Observed) :
    ((∀ s, withStatus (resources.map q.reported) s = 0) ∧
        withPresence (resources.map q.reported) = 0)
      ↔ ∀ r ∈ resources, q.counted r = none := by
  rcases q.source_cases with hsource | hsource
  · have hstatus : ∀ r, (q.reported r).rsyncStatus = r.status := by
      simp [StatusQuery.reported, hsource]
    have hpresence : ∀ r, (q.reported r).clusterStatus = none := by
      simp [StatusQuery.reported, hsource]
    simp only [withStatus, withPresence, List.countP_map, List.countP_eq_zero, Function.comp_def,
      hstatus, hpresence, counted_rsync q hsource]
    simp only [Option.map_eq_none_iff]
    simp only [decide_eq_true_eq, Option.eq_none_iff_forall_ne_some]
    exact ⟨fun h r hr s => h.1 s r hr, fun h => ⟨fun s r hr => h r hr s, by simp⟩⟩
  · simp [withStatus, withPresence, StatusQuery.reported, StatusQuery.counted, hsource,
      Function.comp_def, List.eq_nil_iff_forall_not_mem]

end Counted

/-- **What is counted and not listed is what is on clusters without a proper name.** A report without
    a filter of resources lists what is found on the clusters whose name has a separator. The counts
    take in the other clusters too, so that they are those of the list just if nothing with a status
    is found there. -/
theorem gather_counts {w w' : World} {l : Ledger} {apps : List String} {q : StatusQuery}
    {r : StatusReport} (hresources : q.resources = []) (houtput : q.output ≠ .summary)
    (hrun : (gather l apps q).run w = (.ok r, w')) :
    ∃ found, (findings l apps q).run w = (.ok (r.status, found), w') ∧
      r.listed = (namedResources found).map q.reported ∧
      (∀ s : InstallStatus, (r.rsyncCounts.get? s.name).getD 0
        = withStatus r.listed s + withStatus ((namelessResources found).map q.reported) s) ∧
      (r.clusterCounts.get? present).getD 0
        = withPresence r.listed + withPresence ((namelessResources found).map q.reported) ∧
      (((∀ s : InstallStatus, (r.rsyncCounts.get? s.name).getD 0 = withStatus r.listed s) ∧
          (r.clusterCounts.get? present).getD 0 = withPresence r.listed)
        ↔ ∀ o ∈ namelessResources found, q.counted o = none) := by
  rcases hfindings : (findings l apps q).run w with ⟨e | ⟨status, found⟩, w₁⟩
  · rw [run_gather_of_error hfindings] at hrun
    cases hrun
  · rw [run_gather_of_findings hfindings] at hrun
    obtain ⟨hr, rfl⟩ := Prod.mk.inj hrun
    obtain rfl : .ofFindings l q status found = r := Except.ok.inj hr
    rw [listed_ofFindings houtput, reports_of_nil hresources, status_ofFindings]
    refine ⟨found, rfl, rfl, rsyncCounts_ofFindings l q status found,
      clusterCounts_ofFindings l q status found, ?_⟩
    simp only [rsyncCounts_ofFindings, clusterCounts_ofFindings, Nat.add_eq_left]
    exact counted_eq_none_iff q _

/-! ### A cluster without a proper name -/

/-- A context with one app on one cluster, and there one resource that is applied. -/
def buildCluster (cluster : String) : Op AppContext := do
  let c ← AppContext.unbound.init
  let root ← c.create
  let _ ← c.setStatus .instantiating
  let app ← c.addApp root "net"
  let cluster ← c.addCluster app cluster
  let resource ← c.addResource cluster "n+Network" "kind: Network\nmetadata:\n  name: n\n"
  let _ ← c.nodes.addOneLevel resource "status" InstallStatus.applied.document
  return c

/-- The world in which such a context was built. -/
def clusterBuilt (cluster : String) : World :=
  ((buildCluster cluster).run { contextId := fun _ => "a" }).2

/-- On a cluster with a proper name, the resource is listed and counted. -/
theorem gather_counts_clusterBuilt :
    ∃ r w', (gather {} ["net"] { contextId := "a" }).run (clusterBuilt "p+c") = (.ok r, w') ∧
      r.rsyncCounts.get? InstallStatus.applied.name = some 1 ∧
      withStatus r.listed .applied = 1 := by
  obtain ⟨hreport, hfound⟩ :
      ((gather {} ["net"] { contextId := "a" }).run (clusterBuilt "p+c")).1.map
        (fun r => (r.rsyncCounts.get? InstallStatus.applied.name, withStatus r.listed .applied))
          = .ok (some 1, 1) ∧
      ((findings {} ["net"] { contextId := "a" }).run (clusterBuilt "p+c")).1.map
        (fun found => (namelessResources found.2).length) = .ok 0 := by
    decide +kernel
  rcases hrun : (gather {} ["net"] { contextId := "a" }).run (clusterBuilt "p+c") with ⟨e | r, w'⟩
  · rw [hrun] at hreport
    cases hreport
  · rw [hrun] at hreport
    obtain ⟨hcount, -⟩ := Prod.mk.inj (Except.ok.inj hreport)
    obtain ⟨found, hfindings, -, -, -, hiff⟩ := gather_counts rfl (by decide) hrun
    rw [hfindings] at hfound
    have hnone : namelessResources found = [] := List.length_eq_zero_iff.1 (Except.ok.inj hfound)
    have hlisted := (hiff.2 (by simp [hnone])).1 .applied
    rw [hcount] at hlisted
    exact ⟨r, w', rfl, hcount, hlisted.symm⟩

/-- On a cluster whose name has no separator, the resource is counted and not listed. -/
theorem counts_ne_listed :
    ∃ r w', (gather {} ["net"] { contextId := "a" }).run (clusterBuilt "lonely") = (.ok r, w') ∧
      r.rsyncCounts.get? InstallStatus.applied.name = some 1 ∧
      withStatus r.listed .applied = 0 := by
  have hreport : ((gather {} ["net"] { contextId := "a" }).run (clusterBuilt "lonely")).1.map
      (fun r => (r.rsyncCounts.get? InstallStatus.applied.name, withStatus r.listed .applied))
        = .ok (some 1, 0) := by decide +kernel
  rcases hrun : (gather {} ["net"] { contextId := "a" }).run (clusterBuilt "lonely")
    with ⟨e | r, w'⟩
  · rw [hrun] at hreport
    cases hreport
  · rw [hrun] at hreport
    obtain ⟨hcount, hlisted⟩ := Prod.mk.inj (Except.ok.inj hreport)
    exact ⟨r, w', rfl, hcount, hlisted⟩

end NetIntent
