import NetIntent.Proofs.Statuses

namespace NetIntent

/-!
# The report on a context

What is gathered from the context of a cluster are its resources, each with the status that was
written last, although the nodes come as keys and in the order of the keys.

* `AppContext.run_installStatus`, `run_observe` — what is read of one resource;
* `World.Displays` — a context that can be reported on;
* `Handle.isResourceOf_iff`, `run_observeCluster` — the nodes that are taken for resources are those
  that were rendered;
* `run_gather` — the report on such a context.
-/

open Op Registry Deployment

/-! ### Steps between handles -/

namespace Handle

variable {h a : Handle}

/-- The steps from a node are those that lead to the other one. -/
theorem relativeTo?_eq_some_iff {steps : List Segment} :
    h.relativeTo? a = some steps ↔ h = ⟨a.contextId, a.segments ++ steps⟩ := by
  obtain ⟨id, segments⟩ := h
  simp only [relativeTo?, isWithin, Option.ite_none_right_eq_some, Bool.and_eq_true,
    decide_eq_true_eq, List.isPrefixOf_iff_prefix, Handle.mk.injEq, Option.some.injEq]
  constructor
  · intro hrel
    obtain ⟨⟨hid, rest, rfl⟩, rfl⟩ := hrel
    exact ⟨hid, by rw [List.drop_left]⟩
  · intro hrel
    obtain ⟨hid, rfl⟩ := hrel
    exact ⟨⟨hid, List.prefix_append _ _⟩, by rw [List.drop_left]⟩

/-- One step away from a node are just its children. -/
theorem relativeTo?_eq_step_iff {s : Segment} : h.relativeTo? a = some [s] ↔ h = a.push s :=
  relativeTo?_eq_some_iff

/-- A child is within its parent. -/
theorem isWithin_push (a : Handle) (s : Segment) : (a.push s).isWithin a = true := by
  simp [isWithin, push, List.isPrefixOf_iff_prefix]

/-- The resources of a cluster are its nodes of that level with a proper name. -/
theorem isResourceOf_iff :
    h.isResourceOf a = true ↔
      ∃ name, h = a.child "resource" name ∧ isResourceName name = true := by
  unfold isResourceOf
  constructor
  · intro hres
    split at hres
    · rename_i level name hrel
      obtain ⟨hlevel, hname⟩ := Bool.and_eq_true_iff.1 hres
      obtain rfl : level = "resource" := of_decide_eq_true hlevel
      exact ⟨name, relativeTo?_eq_step_iff.1 hrel, hname⟩
    · cases hres
  · intro hres
    obtain ⟨name, hh, hname⟩ := hres
    rw [relativeTo?_eq_step_iff.2 hh]
    simpa using hname

end Handle

/-- Where each node beneath the ancestor is read as its name, or as none, the names that are read are
    those of the nodes, each once. -/
theorem ContextStore.IsSubtree.filterMap_child {s : ContextStore} {a : Handle}
    {handles : List Handle} (h : s.IsSubtree a handles) {level : String}
    {read : Handle → Option String}
    (hread : ∀ x name, read x = some name ↔ x = a.child level name) :
    (handles.filterMap read).Nodup ∧
      ∀ name, name ∈ handles.filterMap read ↔ s.HasNode (a.child level name) := by
  constructor
  · refine h.nodup.filterMap fun x y name hx hy => ?_
    rw [(hread x name).1 hx, (hread y name).1 hy]
  · intro name
    rw [List.mem_filterMap]
    constructor
    · intro hmem
      obtain ⟨x, hx, hname⟩ := hmem
      rw [← (hread x name).1 hname]
      exact ((h.mem_iff x).1 hx).1
    · intro hnode
      exact ⟨_, (h.mem_iff _).2 ⟨hnode, Handle.isWithin_push _ _⟩, (hread _ name).2 rfl⟩

/-- Images in another order are the images in that order. -/
theorem exists_map_of_perm_map {α β : Type} {f : α → β} {l : List β} {xs : List α}
    (h : l.Perm (xs.map f)) : ∃ ys : List α, ys.Perm xs ∧ l = ys.map f := by
  have hmap : List.Forall₂ (fun b a => b = f a) (xs.map f) xs :=
    List.forall₂_map_left_iff.2 (List.forall₂_same.2 fun _ _ => rfl)
  obtain ⟨ys, hys, hperm⟩ := List.perm_comp_forall₂ h hmap
  refine ⟨ys, hperm, ?_⟩
  rw [← List.forall₂_eq_eq_eq]
  exact List.forall₂_map_right_iff.2 hys

/-! ### Reading nodes -/

section Reading

variable {w : World} {id : String} {h : Handle} {found : Option Json}

namespace AppContext

/-- The status of a resource is the one that was written, if any was. -/
theorem run_installStatus (hw : w.Undisturbed) (hid : h.contextId = id)
    (hfound : w.contexts.get? (h.leaf "status").key = found.map .value)
    (hvalid : ∀ v, found = some v → (InstallStatus.ofDocument? v).isSome = true) :
    ((ofId id).installStatus h).run w = (.ok (found.bind InstallStatus.ofDocument?), w) := by
  have hleaf : ((ofId id).getLevelHandle h "status").run w = _ :=
    run_existing (h := h.leaf "status") hw hid hfound "status"
  unfold installStatus
  rw [run_attempt_bind hleaf]
  cases found with
  | none => rfl
  | some v =>
    obtain ⟨status, hstatus⟩ := Option.isSome_iff_exists.1 (hvalid v rfl)
    have hvalue := RunContext.run_value (h := h.leaf "status") hw hid hfound hstatus
    rw [Option.bind_some, hstatus]
    exact (run_bind_ok hvalue).trans rfl

/-- What is seen of a resource. -/
theorem run_observe {text : String} (hw : w.Undisturbed) (hid : h.contextId = id)
    (hv : w.contexts.get? h.key = some (.value (.string text)))
    (hfound : w.contexts.get? (h.leaf "status").key = found.map .value)
    (hvalid : ∀ v, found = some v → (InstallStatus.ofDocument? v).isSome = true) :
    ((ofId id).observe h).run w = (.ok ((KubeObject.ofManifest? text).map fun object =>
      ⟨object, found.bind InstallStatus.ofDocument?⟩), w) := by
  unfold observe
  rw [ofId_nodes, run_attempt_bind (RunContext.run_rawValue hw hid hv)]
  exact (run_attempt_bind (run_installStatus hw hid hfound hvalid)).trans rfl

/-- A name of a level is read of the nodes of that level under the parent. -/
theorem childName?_eq_some_iff {x parent : Handle} {level name : String} :
    (match x.relativeTo? parent with
      | some [.level l name] => if l = level then some name else none
      | _ => none) = some name ↔ x = parent.child level name := by
  rw [Handle.child, ← Handle.relativeTo?_eq_step_iff]
  split
  · rename_i l name' hrel
    rw [hrel]
    simp [and_comm]
  · -- any other node beneath the parent
    rename_i hnot
    constructor
    · intro hread
      cases hread
    · intro hrel
      exact absurd hrel (hnot level name)

/-- The names of a level that are found under a node are those of its nodes there, each once. -/
theorem run_childNames {parent : Handle} {handles : List Handle} (hw : w.Undisturbed)
    (hid : parent.contextId = id) (hsub : w.contexts.IsSubtree parent handles) (level : String) :
    ∃ names : List String, ((ofId id).childNames parent level).run w = (.ok names, w) ∧
      names.Nodup ∧ ∀ name, name ∈ names ↔ w.contexts.HasNode (parent.child level name) := by
  have hhandles := RunContext.run_handles (c := ⟨some id⟩) hw (congrArg some hid.symm) hsub
  unfold childNames
  rw [ofId_nodes, run_bind_ok hhandles, run_pure]
  exact ⟨_, rfl, hsub.filterMap_child fun x name => childName?_eq_some_iff⟩

end AppContext

end Reading

/-! ### The resources of a context -/

/-- The context of a cluster can be reported on: it consists of the nodes of its resources with the
    statuses that were written, and both can be read. -/
structure World.Displays (w : World) (written : Written) (id cluster : String)
    (resources : List Rendered) : Prop where
  undisturbed : w.Undisturbed
  nodes : w.contexts.Holds id (reportedNodes written id cluster resources)
  sayable : Sayable id cluster resources
  named : ∀ r ∈ resources, Handle.isResourceName r.name = true
  nodup : (resources.map (·.name)).Nodup
  valid : ∀ resource v, written resource = some v → (InstallStatus.ofDocument? v).isSome = true

/-- What is seen of a resource, if its text can be read. -/
def observed? (written : Written) (id cluster : String) (r : Rendered) : Option Observed :=
  (KubeObject.ofManifest? r.text).map fun object =>
    ⟨object, (written (resourceHandle id cluster r.name)).bind InstallStatus.ofDocument?⟩

/-- A context has no node of another cluster. -/
theorem eq_cluster_of_mem {written : Written} {id cluster name : String} {resources : List Rendered}
    {n : Handle × Json} (hn : n ∈ reportedNodes written id cluster resources)
    (heq : n.1 = ((Handle.root id).child "app" networkApp).child "cluster" name) :
    name = cluster := by
  -- Only the node of the cluster itself is two steps away from the root.
  have hlength : n.1.segments.length = 2 := by rw [heq]; rfl
  rw [mem_reportedNodes, mem_contextNodes, mem_statusNodes] at hn
  rcases hn with (hupper | ⟨r, -, rfl⟩ | hinstr) | ⟨r, -, hn, -⟩
  · simp only [upperNodes, List.mem_cons, List.not_mem_nil, or_false] at hupper
    rcases hupper with rfl | rfl | rfl | rfl | rfl | rfl
    case inr.inr.inr.inr.inr =>
      have hstep := (Handle.push_inj.1 heq).2
      simpa using hstep.symm
    all_goals simp [Handle.root, Handle.leaf, Handle.child, Handle.instruction, Handle.push]
      at hlength
  · simp [resourceHandle, clusterHandle, Handle.root, Handle.child, Handle.push] at hlength
  · simp only [resourceInstructions, List.mem_cons, List.not_mem_nil, or_false] at hinstr
    rcases hinstr with rfl | rfl
    all_goals simp [clusterHandle, Handle.root, Handle.child, Handle.instruction, Handle.push]
      at hlength
  · rw [hn] at hlength
    simp [resourceHandle, clusterHandle, Handle.root, Handle.leaf, Handle.child, Handle.push]
      at hlength

namespace World.Displays

variable {w : World} {written : Written} {id cluster : String} {resources : List Rendered}
  (h : w.Displays written id cluster resources)
include h

/-- Every node of a context that is displayed is stored. -/
theorem get?_of_mem {n : Handle × Json} (hn : n ∈ contextNodes id cluster resources) :
    w.contexts.get? n.1.key = some (.value n.2) :=
  h.nodes.get?_of_mem (mem_reportedNodes.2 (.inl hn)) (contextId_of_mem hn)

/-- A context that is displayed has its root. -/
theorem rooted : w.contexts.Rooted id :=
  h.get?_of_mem (n := (Handle.root id, .string id)) (by simp [contextNodes, upperNodes])

/-- A resource is stored with its text. -/
theorem get?_resource {r : Rendered} (hr : r ∈ resources) :
    w.contexts.get? (resourceHandle id cluster r.name).key = some (.value (.string r.text)) :=
  h.get?_of_mem (n := (resourceHandle id cluster r.name, .string r.text))
    (mem_contextNodes.2 (.inr (.inl ⟨r, hr, rfl⟩)))

/-- Beneath a resource its status is stored if one was written. -/
theorem get?_status {r : Rendered} (hr : r ∈ resources) :
    w.contexts.get? ((resourceHandle id cluster r.name).leaf "status").key
      = (written (resourceHandle id cluster r.name)).map .value := by
  cases hwritten : written (resourceHandle id cluster r.name) with
  | some v =>
    have hn : ((resourceHandle id cluster r.name).leaf "status", v)
        ∈ reportedNodes written id cluster resources :=
      mem_reportedNodes.2 (.inr (mem_statusNodes.2 ⟨r, hr, rfl, hwritten⟩))
    have hget := h.nodes.get?_of_mem hn rfl
    exact hget
  | none =>
    -- None of the nodes is a status of this resource.
    have hstatus := h.sayable.canonical_status hr
    refine h.nodes.get?_eq_none (fun n hn => h.sayable.canonical hn) hstatus rfl fun n hn heq => ?_
    rcases mem_reportedNodes.1 hn with hcontext | hwritten'
    · exact ne_status_of_mem_contextNodes hcontext r.name heq
    · -- a node of a status is that of the same resource
      obtain ⟨r', -, hn', hv⟩ := mem_statusNodes.1 hwritten'
      rw [heq] at hn'
      rw [← (Handle.push_inj.1 hn').1, hwritten] at hv
      cases hv

/-- A resource is observed as its text and its status say. -/
theorem run_observe {r : Rendered} (hr : r ∈ resources) :
    ((AppContext.ofId id).observe (resourceHandle id cluster r.name)).run w
      = (.ok (observed? written id cluster r), w) :=
  AppContext.run_observe h.undisturbed rfl (h.get?_resource hr) (h.get?_status hr)
    fun v hv => h.valid _ v hv

/-- Of several resources those are observed whose texts can be read. -/
theorem run_observeAll {rs : List Rendered} (hrs : ∀ r ∈ rs, r ∈ resources) :
    ((AppContext.ofId id).observeAll (rs.map fun r => resourceHandle id cluster r.name)).run w
      = (.ok (rs.filterMap (observed? written id cluster)), w) := by
  induction rs with
  | nil => rfl
  | cons r rs ih =>
    obtain ⟨hr, hrest⟩ := List.forall_mem_cons.1 hrs
    rw [List.map_cons, AppContext.observeAll, run_bind_ok (h.run_observe hr), run_bind_ok (ih hrest),
      List.filterMap_cons]
    cases observed? written id cluster r <;> rfl

/-- The nodes of the context are those that are reported on. -/
theorem hasNode_iff {x : Handle} (hid : x.contextId = id) :
    w.contexts.HasNode x ↔ ∃ n ∈ reportedNodes written id cluster resources, n.1 = x :=
  h.nodes.hasNode_iff (fun _ hn => h.sayable.canonical hn) hid

/-- The nodes beneath a canonical node can be listed. -/
theorem exists_subtree {a : Handle} (ha : a.Canonical) (hend : ¬ a.EndsBare)
    (hid : a.contextId = id) : ∃ handles, w.contexts.IsSubtree a handles :=
  h.nodes.exists_subtree (fun _ hn => h.sayable.canonical hn) ha hend hid

/-- The nodes that are taken for resources of the cluster are its resources. -/
theorem isResourceOf_iff {x : Handle} :
    w.contexts.HasNode x ∧ x.isResourceOf (clusterHandle id cluster) = true ↔
      ∃ r ∈ resources, x = resourceHandle id cluster r.name := by
  rw [Handle.isResourceOf_iff]
  constructor
  · intro hx
    obtain ⟨hnode, name, rfl, -⟩ := hx
    obtain ⟨n, hn, heq⟩ := (h.hasNode_iff rfl).1 hnode
    rw [← heq]
    refine exists_resource_of_nameAt? hn ?_
    rw [heq]
    simp [Handle.nameAt?, Handle.last?, Handle.child, Handle.push]
  · intro hx
    obtain ⟨r, hr, rfl⟩ := hx
    refine ⟨(h.hasNode_iff rfl).2 ⟨(resourceHandle id cluster r.name, .string r.text), ?_, rfl⟩,
      r.name, rfl, h.named r hr⟩
    exact mem_reportedNodes.2 (.inl (mem_contextNodes.2 (.inr (.inl ⟨r, hr, rfl⟩))))

/-- Resources of different names have different handles. -/
theorem nodup_resourceHandles :
    (resources.map fun r => resourceHandle id cluster r.name).Nodup := by
  refine List.pairwise_map.2 ((List.pairwise_map.1 h.nodup).imp fun hne heq => hne ?_)
  simpa using (Handle.push_inj.1 heq).2

/-- What is seen of the cluster are its resources, in the order of their keys. -/
theorem run_observeCluster :
    ∃ rs : List Rendered, rs.Perm resources ∧
      ((AppContext.ofId id).observeCluster (clusterHandle id cluster)).run w
        = (.ok (rs.filterMap (observed? written id cluster)), w) := by
  obtain ⟨handles, hsub⟩ :=
    h.exists_subtree h.sayable.canonical_cluster (not_endsBare_cluster id cluster) rfl
  have hperm : (handles.filter (·.isResourceOf (clusterHandle id cluster))).Perm
      (resources.map fun r => resourceHandle id cluster r.name) := by
    refine (List.perm_ext_iff_of_nodup (hsub.nodup.filter _) h.nodup_resourceHandles).2 fun x => ?_
    rw [List.mem_filter, hsub.mem_iff, List.mem_map]
    constructor
    · intro hx
      obtain ⟨⟨hnode, -⟩, hres⟩ := hx
      obtain ⟨r, hr, rfl⟩ := h.isResourceOf_iff.1 ⟨hnode, hres⟩
      exact ⟨r, hr, rfl⟩
    · intro hx
      obtain ⟨r, hr, rfl⟩ := hx
      obtain ⟨hnode, hres⟩ := h.isResourceOf_iff.2 ⟨r, hr, rfl⟩
      exact ⟨⟨hnode, Handle.isWithin_push _ _⟩, hres⟩
  -- The handles come in the order of their keys, and so do the resources.
  obtain ⟨rs, hrs, hmap⟩ := exists_map_of_perm_map hperm
  refine ⟨rs, hrs, ?_⟩
  have hhandles := RunContext.run_handles (c := ⟨some id⟩) h.undisturbed rfl hsub
  unfold AppContext.observeCluster
  rw [AppContext.ofId_nodes, run_bind_ok hhandles, hmap]
  exact h.run_observeAll fun r hr => hrs.mem_iff.1 hr

/-! ### Apps and clusters of a context -/

/-- The app of the networks is found. -/
theorem run_getAppHandle :
    ((AppContext.ofId id).getAppHandle networkApp).run w
      = (.ok ((Handle.root id).child "app" networkApp), w) := by
  have hnode := h.get?_of_mem (n := ((Handle.root id).child "app" networkApp, .string networkApp))
    (by simp [contextNodes, upperNodes])
  have hname : validateName "app" networkApp = .ok () := by decide
  unfold AppContext.getAppHandle
  rw [hname, of_ok_bind, AppContext.ofId_nodes,
    run_bind_ok (RunContext.run_root_of_rooted h.undisturbed h.rooted)]
  exact AppContext.run_existing_of_some h.undisturbed rfl hnode "app"

/-- The cluster is found under the app of the networks. -/
theorem run_getClusterHandle :
    ((AppContext.ofId id).getClusterHandle networkApp cluster).run w
      = (.ok (clusterHandle id cluster), w) := by
  have hnode := h.get?_of_mem (n := (clusterHandle id cluster, .string cluster))
    (by simp [contextNodes, upperNodes])
  have hname : validateName "cluster" cluster = .ok () :=
    Handle.validateName_eq_ok_iff.2 h.sayable.cluster_sound.2
  unfold AppContext.getClusterHandle
  rw [hname, of_ok_bind, run_bind_ok h.run_getAppHandle]
  exact AppContext.run_existing_of_some h.undisturbed rfl hnode "cluster"

/-- The context has one cluster. -/
theorem run_getClusterNames :
    ((AppContext.ofId id).getClusterNames networkApp).run w = (.ok [cluster], w) := by
  obtain ⟨handles, hsub⟩ := h.exists_subtree h.sayable.canonical_app
    (by simp [Handle.child, Handle.not_endsBare_push, Segment.IsBare]) rfl
  have hid : ((Handle.root id).child "app" networkApp).contextId = id := rfl
  obtain ⟨names, hrun, hnodup, hmem⟩ :=
    AppContext.run_childNames h.undisturbed hid hsub "cluster"
  -- A context is built for one cluster, although it could hold more.
  have hnames : ∀ name, name ∈ names ↔ name = cluster := by
    intro name
    rw [hmem, h.hasNode_iff rfl]
    constructor
    · intro hnode
      obtain ⟨n, hn, heq⟩ := hnode
      exact eq_cluster_of_mem hn heq
    · intro heq
      refine ⟨(clusterHandle id cluster, .string cluster), ?_, by rw [heq]; rfl⟩
      exact mem_reportedNodes.2 (.inl (by simp [contextNodes, upperNodes]))
  have heq : names = [cluster] := List.perm_singleton.1
    ((List.perm_ext_iff_of_nodup hnodup (List.nodup_singleton cluster)).2 (by simpa using hnames))
  unfold AppContext.getClusterNames
  rw [run_bind_ok h.run_getAppHandle, hrun, heq]

/-- The overall status is the one with which the context was built. -/
theorem get?_overallStatus :
    w.contexts.get? ((Handle.root id).leaf "status").key
      = some (.value ContextStatus.instantiating.document) :=
  h.get?_of_mem (n := ((Handle.root id).leaf "status", ContextStatus.instantiating.document))
    (by simp [contextNodes, upperNodes])

/-- The overall status is that of a context that is installed. -/
theorem run_overallStatus :
    (AppContext.ofId id).overallStatus.run w = (.ok .instantiating, w) := by
  refine AppContext.run_overallStatus h.undisturbed h.rooted ?_
  rw [ContextStore.overallStatus?, h.get?_overallStatus]
  decide

/-! ### The report -/

/-- The resources of the cluster are reported and counted. -/
theorem run_clusterResources (counts : Counts) :
    ∃ rs : List Rendered, rs.Perm resources ∧
      (clusterResources (.ofId id) {} networkApp cluster counts).run w
        = (.ok (resourceReports .all [] (rs.filterMap (observed? written id cluster)),
            observedCounts (rs.filterMap (observed? written id cluster)) counts), w) := by
  obtain ⟨rs, hrs, hseen⟩ := h.run_observeCluster
  refine ⟨rs, hrs, ?_⟩
  have hfound : (contextResources (.ofId id) (clusterHandle id cluster) .all [] counts).run w
      = (.ok (resourceReports .all [] (rs.filterMap (observed? written id cluster)),
          observedCounts (rs.filterMap (observed? written id cluster)) counts), w) := by
    unfold contextResources
    rw [run_bind_ok hseen]
    rfl
  unfold clusterResources
  dsimp only
  rw [run_attempt_bind h.run_getClusterHandle]
  exact (run_attempt_bind hfound).trans rfl

end World.Displays

/-- The apps in the report on a cluster with these resources. -/
def networkApps (p c : String) (resources : List ResourceReport) : List AppReport :=
  if resources.isEmpty then [] else [⟨networkApp, [⟨p, c, resources⟩]⟩]

/-- The name of a cluster inside its context is taken apart again. -/
theorem appReport?_clusterReport? {p c : String} (hp : '+' ∉ p.toList)
    (resources : List ResourceReport) :
    (appReport? {} networkApp (clusterReport? (contextClusterName p c) resources).toList).toList
      = networkApps p c resources := by
  cases resources with
  | nil => rfl
  | cons r resources =>
    simp [appReport?, clusterReport?, networkApps, contextClusterName, Text.splitOnce_joined hp]

section Gather

variable {w : World} {written : Written} {id p c : String} {resources : List Rendered}

/-- The report on the context of a cluster. -/
theorem World.Displays.run_gather
    (h : w.Displays written id (contextClusterName p c) resources) (hp : '+' ∉ p.toList)
    {l : Ledger} (hl : l.lastId = id) :
    ∃ rs : List Rendered, rs.Perm resources ∧
      (gather l [networkApp] {}).run w
        = (.ok
            { ledger := l, status := .instantiating,
              rsyncCounts :=
                observedCounts (rs.filterMap (observed? written id (contextClusterName p c))) .empty,
              apps := networkApps p c (resourceReports .all []
                (rs.filterMap (observed? written id (contextClusterName p c)))) }, w) := by
  obtain ⟨rs, hrs, hresources⟩ := h.run_clusterResources .empty
  refine ⟨rs, hrs, ?_⟩
  generalize hseen : rs.filterMap (observed? written id (contextClusterName p c)) = seen
    at hresources ⊢
  -- the one cluster, the one app, and the context itself
  have hclusters : (clusterReports (.ofId id) {} networkApp [contextClusterName p c] .empty).run w
      = (.ok ((clusterReport? (contextClusterName p c) (resourceReports .all [] seen)).toList,
          observedCounts seen .empty), w) := by
    unfold clusterReports clusterReports
    rw [run_bind_ok hresources]
    simp
  have happs : (appReports (.ofId id) {} [networkApp] .empty).run w
      = (.ok (networkApps p c (resourceReports .all [] seen), observedCounts seen .empty), w) := by
    unfold appReports
    rw [run_attempt_bind h.run_getClusterNames]
    refine (run_bind_ok hclusters).trans ?_
    rw [← appReport?_clusterReport? hp]
    simp [appReports]
  have hload := AppContext.run_fromId h.undisturbed h.sayable.id_valid h.rooted
  unfold gather
  dsimp only
  rw [if_pos rfl, hl, run_bind_ok hload, run_bind_ok h.run_overallStatus]
  exact (run_bind_ok happs).trans rfl

end Gather

end NetIntent
