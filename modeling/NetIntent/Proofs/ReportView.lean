import NetIntent.Report.Gather
import NetIntent.Proofs.ContextNodes

namespace NetIntent

/-!
# Filters and outputs only restrict the view

Two queries that differ in their output and in their filter of resources walk through the same
context and count the same resources. So the report of one is that of the other, seen through a
function: resources that the filter does not name are left out, bodies are erased, or the list of
apps is.

* `Op.Shows` — an operation does what another does, and shows its result through a function;
* `ReportView` — how the reports of one query are seen as those of another, level by level;
* `gather_shows` — the whole report is seen in this way;
* `StatusReport.keeping`, `erased`, `emptied` — the three views, and `ReportView`s for them;
* `gather_restricts` — what two such queries have in common, and how their lists of apps differ.
-/

open Op

/-! ### Operations that show the result of others -/

namespace Op

variable {α β γ δ : Type} {op : Op α} {op' : Op β} {view : α → β} {view' : γ → δ}

/-- The first operation does what the second one does, and shows its result through a function. -/
def Shows (op' : Op β) (op : Op α) (view : α → β) : Prop :=
  ∀ w, op'.run w = ((op.run w).1.map view, (op.run w).2)

/-- A returned value is seen through the function. -/
theorem shows_pure (view : α → β) (a : α) : (pure (view a) : Op β).Shows (pure a) view :=
  fun _ => rfl

/-- Two steps after each other show their result where each of them does so. -/
theorem Shows.bind {next : α → Op γ} {next' : β → Op δ} (h : op'.Shows op view)
    (hnext : ∀ a, (next' (view a)).Shows (next a) view') :
    (op' >>= next').Shows (op >>= next) view' := by
  intro w
  rw [run_bind, run_bind, h w]
  rcases op.run w with ⟨e | a, w'⟩
  · rfl
  · exact hnext a w'

/-- An operation shows its own result. -/
theorem shows_refl (op : Op α) : op.Shows op id := by
  intro w
  rcases hrun : op.run w with ⟨e | a, w'⟩ <;> rfl

/-- The same step comes first. -/
theorem shows_bind (op : Op α) {next : α → Op γ} {next' : α → Op δ}
    (hnext : ∀ a, (next' a).Shows (next a) view') : (op >>= next').Shows (op >>= next) view' :=
  (shows_refl op).bind hnext

/-- What is shown of a shown result is seen through both functions. -/
theorem Shows.trans {op'' : Op γ} {view' : β → γ} (h' : op''.Shows op' view')
    (h : op'.Shows op view) : op''.Shows op (view' ∘ view) := by
  intro w
  rw [h' w, h w]
  cases (op.run w).1 <;> rfl

/-- An attempt shows what its operation shows, and fails on the same terms. -/
theorem Shows.attempt (h : op'.Shows op view) : op'.attempt.Shows op.attempt (Except.map view) := by
  intro w
  rw [run_attempt, run_attempt, h w]
  rfl

/-- What is returned beside the counts is seen through a function, and the counts stay. -/
theorem shows_counted {reports reports' : List α} (view : List α → List α)
    (h : reports' = view reports) (counts : Counts) :
    (pure (reports', counts) : Op (List α × Counts)).Shows (pure (reports, counts))
      (Prod.map view id) := by
  subst h
  exact shows_pure (Prod.map view id) (reports, counts)

end Op

/-! ### Views of reports -/

/-- How the reports of one query are seen as those of another, level by level: the two differ in
    their output and in their filter of resources, and each level follows from the one below. -/
structure ReportView (q q' : StatusQuery) where
  /-- What is seen of the resources of a cluster. -/
  resources : List ResourceReport → List ResourceReport
  /-- What is seen of the clusters of an app. -/
  clusters : List ClusterReport → List ClusterReport
  /-- What is seen of the apps of a context. -/
  apps : List AppReport → List AppReport
  query_eq : q' = { q with output := q'.output, resources := q'.resources }
  resources_nil : resources [] = []
  observed : ∀ seen, resourceReports q'.output q'.resources seen
    = resources (resourceReports q.output q.resources seen)
  snapshot : ∀ s, snapshotReports q'.output q'.resources s
    = resources (snapshotReports q.output q.resources s)
  clusters_nil : clusters [] = []
  clusters_append : ∀ cluster found reports,
    clusters ((clusterReport? cluster found).toList ++ reports)
      = (clusterReport? cluster (resources found)).toList ++ clusters reports
  apps_nil : apps [] = []
  apps_append : ∀ app found reports, apps ((appReport? q app found).toList ++ reports)
    = (appReport? q' app (clusters found)).toList ++ apps reports

namespace ReportView

variable {q q' : StatusQuery} (v : ReportView q q')

include v

/-- Both queries are about the same context. -/
theorem contextId_eq : q'.contextId = q.contextId := by rw [v.query_eq]

/-- Both queries have the same source. -/
theorem source_eq : q'.source = q.source := by rw [v.query_eq]

/-- Both queries have the same filter of apps. -/
theorem apps_eq : q'.apps = q.apps := by rw [v.query_eq]

/-- Both queries have the same filter of clusters. -/
theorem clusters_eq : q'.clusters = q.clusters := by rw [v.query_eq]

/-- The resources of a cluster in the context are seen through the function, with the same counts.
    -/
theorem contextResources_shows (c : AppContext) (cluster : Handle) (counts : Counts) :
    (contextResources c cluster q'.output q'.resources counts).Shows
      (contextResources c cluster q.output q.resources counts) (Prod.map v.resources id) :=
  shows_bind _ fun seen => shows_counted v.resources (v.observed seen) (observedCounts seen counts)

/-- A cluster that cannot be read is passed over in both queries alike. -/
theorem clusterResources_shows (c : AppContext) (app cluster : String) (counts : Counts) :
    (clusterResources c q' app cluster counts).Shows (clusterResources c q app cluster counts)
      (Prod.map v.resources id) := by
  -- A cluster that cannot be read has no resources in either query.
  have hnone := shows_counted v.resources v.resources_nil.symm counts
  unfold clusterResources
  rw [v.source_eq]
  cases q.source with
  | rsync =>
    refine shows_bind _ fun handle => ?_
    cases handle with
    | error e => exact hnone
    | ok h =>
      refine (v.contextResources_shows c h counts).attempt.bind fun found => ?_
      cases found with
      | error e => exact hnone
      | ok found => exact shows_pure (Prod.map v.resources id) found
  | cluster =>
    refine shows_bind _ fun found => ?_
    cases found with
    | none => exact hnone
    | some s => exact shows_counted v.resources (v.snapshot s) (snapshotCounts s counts)

/-- The clusters of an app are seen through the function, by induction on the list of clusters. -/
theorem clusterReports_shows (c : AppContext) (app : String) (clusters : List String)
    (counts : Counts) :
    (clusterReports c q' app clusters counts).Shows (clusterReports c q app clusters counts)
      (Prod.map v.clusters id) := by
  induction clusters generalizing counts with
  | nil => exact shows_counted v.clusters v.clusters_nil.symm counts
  | cons cluster clusters ih =>
    refine (v.clusterResources_shows c app cluster counts).bind fun (resources, counts) => ?_
    refine (ih counts).bind fun (reports, counts) => ?_
    exact shows_counted v.clusters (v.clusters_append cluster resources reports).symm counts

/-- The apps of a context are seen through the function, by induction on the list of apps. -/
theorem appReports_shows (c : AppContext) (apps : List String) (counts : Counts) :
    (appReports c q' apps counts).Shows (appReports c q apps counts) (Prod.map v.apps id) := by
  induction apps generalizing counts with
  | nil => exact shows_counted v.apps v.apps_nil.symm counts
  | cons app apps ih =>
    refine shows_bind _ fun clusters => ?_
    cases clusters with
    | error e => exact ih counts
    | ok clusters =>
      dsimp only
      rw [v.clusters_eq]
      refine (v.clusterReports_shows c app _ counts).bind fun (found, counts) => ?_
      refine (ih counts).bind fun (reports, counts) => ?_
      exact shows_counted v.apps (v.apps_append app found reports).symm counts

end ReportView

/-- The report with its apps seen through a function. -/
def StatusReport.viewing (view : List AppReport → List AppReport) (r : StatusReport) :
    StatusReport :=
  { r with apps := view r.apps }

/-- A report is seen through its list of apps. -/
theorem gather_shows {q q' : StatusQuery} (v : ReportView q q') (l : Ledger) (apps : List String) :
    (gather l apps q').Shows (gather l apps q) (StatusReport.viewing v.apps) := by
  unfold gather
  rw [v.contextId_eq, v.apps_eq, v.source_eq]
  refine shows_bind _ fun c => shows_bind _ fun status => ?_
  refine (v.appReports_shows c _ .empty).bind fun (reports, counts) => ?_
  cases q.source with
  | rsync => exact fun _ => rfl
  | cluster => exact fun _ => rfl

/-! ### Keeping, erasing and emptying -/

namespace ClusterReport

/-- The report with the resources that have one of these names. -/
def keeping (names : List String) (r : ClusterReport) : ClusterReport :=
  { r with resources := r.resources.filter fun resource => resource.name ∈ names }

/-- The report without the bodies of its resources. -/
def erased (r : ClusterReport) : ClusterReport :=
  { r with resources := r.resources.map fun resource => { resource with detail := none } }

end ClusterReport

namespace AppReport

/-- The report with the resources that have one of these names, without clusters that are left
    empty. -/
def keeping (names : List String) (r : AppReport) : AppReport :=
  { r with
    clusters := (r.clusters.map (ClusterReport.keeping names)).filter (!·.resources.isEmpty) }

/-- The report without the bodies of its resources. -/
def erased (r : AppReport) : AppReport := { r with clusters := r.clusters.map ClusterReport.erased }

end AppReport

namespace StatusReport

/-- The report with the resources that have one of these names, without clusters and apps that are
    left empty. -/
def keeping (names : List String) : StatusReport → StatusReport :=
  viewing fun apps => (apps.map (AppReport.keeping names)).filter (!·.clusters.isEmpty)

/-- The report without the bodies of its resources. -/
def erased : StatusReport → StatusReport := viewing (List.map AppReport.erased)

/-- The report without its list of apps. -/
def emptied : StatusReport → StatusReport := viewing fun _ => []

end StatusReport

/-- The query with another output and another filter of resources. -/
def StatusQuery.showing (q : StatusQuery) (output : StatusOutput) (resources : List String) :
    StatusQuery :=
  { q with output := output, resources := resources }

/-! ### The three views -/

/-- A filter that is not empty keeps just the names in it. -/
theorem keeps_of_ne_nil {names : List String} (h : names ≠ []) (name : String) :
    keeps names name = decide (name ∈ names) := by
  simp [keeps, h]

namespace ReportView

/-- To keep names in the report of a cluster is to report on the resources that have them. -/
theorem clusterReport?_keeping (names : List String) (cluster : String)
    (found : List ResourceReport) :
    ((clusterReport? cluster found).toList.map (ClusterReport.keeping names)).filter
        (!·.resources.isEmpty)
      = (clusterReport? cluster (found.filter (·.name ∈ names))).toList := by
  cases hsplit : Text.splitOnce '+' cluster with
  | none => simp [clusterReport?, hsplit]
  | some parts =>
    by_cases hfound : found = []
    · simp [hfound, clusterReport?]
    · by_cases hkept : found.filter (·.name ∈ names) = []
      · -- the filter leaves nothing of the cluster
        simp [clusterReport?, hsplit, hfound, ClusterReport.keeping, hkept]
      · simp [clusterReport?, hsplit, hfound, ClusterReport.keeping, hkept]

/-- To keep names in the report of an app is to report on the clusters that are left by them. -/
theorem appReport?_keeping (names : List String) (q : StatusQuery) (app : String)
    (found : List ClusterReport) :
    ((appReport? q app found).toList.map (AppReport.keeping names)).filter (!·.clusters.isEmpty)
      = (appReport? q app ((found.map (ClusterReport.keeping names)).filter
          (!·.resources.isEmpty))).toList := by
  by_cases hsummary : q.output = .summary
  · simp [appReport?, hsummary]
  · by_cases hfound : found = []
    · simp [hfound, appReport?]
    · by_cases hkept : (found.map (ClusterReport.keeping names)).filter (!·.resources.isEmpty) = []
      · -- the filter leaves nothing of the app
        simp only [appReport?, hsummary, hkept]
        simp [hfound, AppReport.keeping, hkept]
      · simp only [appReport?, hsummary, List.isEmpty_iff, hkept]
        simp [hfound, AppReport.keeping, hkept]

/-- A filter of resources. -/
def keeping (q : StatusQuery) (output : StatusOutput) {names : List String} (hnames : names ≠ []) :
    ReportView (q.showing output []) (q.showing output names) where
  resources := List.filter (·.name ∈ names)
  clusters found := (found.map (ClusterReport.keeping names)).filter (!·.resources.isEmpty)
  apps found := (found.map (AppReport.keeping names)).filter (!·.clusters.isEmpty)
  query_eq := rfl
  resources_nil := rfl
  observed seen := by
    simp only [resourceReports, StatusQuery.showing, keeps_of_ne_nil hnames]
    simp [keeps, List.filter_map, Function.comp_def]
  snapshot s := by
    simp only [snapshotReports, StatusQuery.showing, keeps_of_ne_nil hnames]
    simp [keeps, List.filter_map, Function.comp_def]
  clusters_nil := rfl
  clusters_append cluster found reports := by
    rw [List.map_append, List.filter_append, clusterReport?_keeping]
  apps_nil := rfl
  apps_append app found reports := by
    rw [List.map_append, List.filter_append, appReport?_keeping]
    rfl

/-- The bodies are left out. -/
def erasing (q : StatusQuery) (names : List String) :
    ReportView (q.showing .detail names) (q.showing .all names) where
  resources := List.map fun resource => { resource with detail := none }
  clusters := List.map ClusterReport.erased
  apps := List.map AppReport.erased
  query_eq := rfl
  resources_nil := rfl
  observed seen := by simp [resourceReports, StatusQuery.showing, detailOf]
  snapshot s := by simp [snapshotReports, StatusQuery.showing, detailOf]
  clusters_nil := rfl
  clusters_append cluster found reports := by
    rw [List.map_append]
    congr 1
    simp only [clusterReport?, List.isEmpty_map]
    split
    · rfl
    · cases Text.splitOnce '+' cluster <;> rfl
  apps_nil := rfl
  apps_append app found reports := by
    rw [List.map_append]
    congr 1
    cases found <;> rfl

/-- The list of apps is left out. -/
def emptying (q : StatusQuery) (names : List String) :
    ReportView (q.showing .all names) (q.showing .summary names) where
  resources := id
  clusters := id
  apps _ := []
  query_eq := rfl
  resources_nil := rfl
  observed _ := rfl
  snapshot _ := rfl
  clusters_nil := rfl
  clusters_append _ _ _ := rfl
  apps_nil := rfl
  apps_append app found reports := by simp [appReport?, StatusQuery.showing]

end ReportView

/-! ### What queries have in common -/

section Restriction

variable (l : Ledger) (apps : List String) (q : StatusQuery)

/-- Whatever its output and its filter are, a query shows no more than the one for all bodies. -/
theorem gather_detail_shows (output : StatusOutput) (names : List String) :
    ∃ view, (gather l apps (q.showing output names)).Shows (gather l apps (q.showing .detail []))
      (StatusReport.viewing view) := by
  -- Names are filtered first; then bodies are erased, and at last the list is dropped.
  have hdetail : ∃ view, (gather l apps (q.showing .detail names)).Shows
      (gather l apps (q.showing .detail [])) (StatusReport.viewing view) := by
    by_cases hnames : names = []
    · subst hnames
      exact ⟨id, shows_refl _⟩
    · exact ⟨_, gather_shows (.keeping q .detail hnames) l apps⟩
  obtain ⟨view, hdetail⟩ := hdetail
  have hall : (gather l apps (q.showing .all names)).Shows (gather l apps (q.showing .detail []))
      (StatusReport.viewing (List.map AppReport.erased ∘ view)) :=
    (gather_shows (.erasing q names) l apps).trans hdetail
  have hsummary := (gather_shows (.emptying q names) l apps).trans hall
  cases output with
  | detail => exact ⟨view, hdetail⟩
  | all => exact ⟨_, hall⟩
  | summary => exact ⟨fun _ => [], hsummary⟩

/-- **Filters and outputs only restrict the view.** Queries that differ in their output and in their
    filter of resources fail alike or report the same but for the apps, and leave the same behind. A
    filter keeps the resources that it names, in order, and drops what is left empty; the detailed
    report without its bodies is the common one; and without the apps it is the summary. -/
theorem gather_restricts :
    (∀ output names output' names' w,
      ((gather l apps (q.showing output names)).run w).1.map StatusReport.emptied
          = ((gather l apps (q.showing output' names')).run w).1.map StatusReport.emptied ∧
        ((gather l apps (q.showing output names)).run w).2
          = ((gather l apps (q.showing output' names')).run w).2) ∧
      (∀ output names, names ≠ [] →
        (gather l apps (q.showing output names)).Shows (gather l apps (q.showing output []))
          (StatusReport.keeping names)) ∧
      (∀ names, (gather l apps (q.showing .all names)).Shows
        (gather l apps (q.showing .detail names)) StatusReport.erased) ∧
      (∀ names, (gather l apps (q.showing .summary names)).Shows
        (gather l apps (q.showing .all names)) StatusReport.emptied) := by
  refine ⟨fun output names output' names' w => ?_,
    fun output _ hnames => gather_shows (.keeping q output hnames) l apps,
    fun names => gather_shows (.erasing q names) l apps,
    fun names => gather_shows (.emptying q names) l apps⟩
  -- Both reports are seen in the one with all bodies, and what is seen differs in the apps only.
  obtain ⟨view, hview⟩ := gather_detail_shows l apps q output names
  obtain ⟨view', hview'⟩ := gather_detail_shows l apps q output' names'
  rw [hview w, hview' w]
  refine ⟨?_, rfl⟩
  cases ((gather l apps (q.showing .detail [])).run w).1 <;> rfl

end Restriction

/-- A snapshot with two pods. -/
def twoPods : Snapshot :=
  { pods := [{ kind := "Pod", metadata := { name := "m" } },
      { kind := "Pod", metadata := { name := "n" } }] }

/-- The context of a cluster of which this snapshot was taken. -/
def snapshotTaken : World :=
  { contexts := ContextStore.withNodes .empty
      (upperNodes "a" "p+c" ++ [((clusterHandle "a" "p+c").leaf "status", twoPods.toJson)])
    contextId := fun _ => "a" }

/-- The pod that the filter leaves out is counted. -/
theorem gather_restricts_snapshotTaken :
    ((gather {} [networkApp]
        (StatusQuery.showing { contextId := "a", source := .cluster } .all ["n"])).run
          snapshotTaken).1.map (fun r => (r.apps, r.clusterCounts.entries))
      = .ok ([⟨networkApp, [⟨"p", "c",
          [{ gvk := ⟨"", "", "Pod"⟩, name := "n", clusterStatus := some present }]⟩]⟩],
        [(present, 2)]) := by
  rw [(gather_restricts {} [networkApp] { contextId := "a", source := .cluster }).2.1 .all ["n"]
    (by decide)]
  decide +kernel

end NetIntent
