import NetIntent.Proofs.Reportable

namespace NetIntent

/-!
# Stores that differ at one resource

Two stores hold the same but for the value of one resource and its status. Then they have the same
clusters and the same other resources, and each of these is seen alike in both.

* `ContextStore.AlikeBut` — two stores that differ at one resource and its status only;
* `run_handles_alike` — both are read as the same handles, but for that of the status;
* `getClusterNames_looks_alike`, `overallStatus_looks_alike` — both have the same clusters and the same
  overall status;
* `run_observeCluster_alike` — on each cluster the same resources are observed;
* `found_looks_alike` — on other clusters than that of the resource the same is found.
-/

open Op

/-! ### Stores that differ at one resource -/

/-- The handle of a resource on a cluster of an app. -/
def resourcePlace (id app cluster name : String) : Handle :=
  (((Handle.root id).child "app" app).child "cluster" cluster).child "resource" name

/-- Both stores hold the resource, and they hold the same but for its value and its status. -/
structure ContextStore.AlikeBut (h : Handle) (s s' : ContextStore) : Prop where
  stored : h.key ∈ s.keys
  stored' : h.key ∈ s'.keys
  same : ∀ key, key ≠ h.key → key ≠ (h.leaf "status").key → s.get? key = s'.get? key

namespace ContextStore.AlikeBut

variable {s s' : ContextStore} {h : Handle}

/-- Apart from the status, they have the same keys. -/
theorem mem_keys_iff (halike : s.AlikeBut h s') {key : String} (hne : key ≠ (h.leaf "status").key) :
    key ∈ s.keys ↔ key ∈ s'.keys := by
  by_cases hkey : key = h.key
  · subst hkey
    exact ⟨fun _ => halike.stored', fun _ => halike.stored⟩
  · rw [OrderedMap.mem_keys_iff, OrderedMap.mem_keys_iff, halike.same key hkey hne]

/-- Without the status the keys are the same, in the same order. -/
theorem filter_keys_eq (halike : s.AlikeBut h s') :
    s.keys.filter (· ≠ (h.leaf "status").key) = s'.keys.filter (· ≠ (h.leaf "status").key) := by
  have hmem : ∀ key, key ∈ s.keys.filter (· ≠ (h.leaf "status").key)
      ↔ key ∈ s'.keys.filter (· ≠ (h.leaf "status").key) := by
    intro key
    simp only [List.mem_filter, decide_eq_true_eq]
    exact and_congr_left fun hne => halike.mem_keys_iff hne
  have hperm := (List.perm_ext_iff_of_nodup (s.nodup_keys.filter _) (s'.nodup_keys.filter _)).2 hmem
  exact hperm.eq_of_pairwise
    (fun _ _ _ _ hab hba => absurd (String.lt_trans hab hba) (String.lt_irrefl _))
    (s.pairwise_keys.filter _) (s'.pairwise_keys.filter _)

end ContextStore.AlikeBut

namespace Handle

/-- What is read of keys are handles with these keys. -/
theorem map_key_of_mapM_parse {keys : List String} {handles : List Handle}
    (h : keys.mapM Handle.parse = .ok handles) :
    handles.map Handle.key = keys ∧ ∀ x ∈ handles, x.Canonical := by
  induction keys generalizing handles with
  | nil =>
    obtain rfl : [] = handles := Except.ok.inj h
    exact ⟨rfl, by simp⟩
  | cons k keys ih =>
    rw [List.mapM_cons] at h
    cases hk : Handle.parse k with
    | error e => rw [hk] at h; cases h
    | ok x =>
      cases hkeys : keys.mapM Handle.parse with
      | error e => rw [hk, hkeys] at h; cases h
      | ok rest =>
        rw [hk, hkeys] at h
        obtain rfl : x :: rest = handles := Except.ok.inj h
        obtain ⟨hx, rfl⟩ := canonical_of_parse hk
        obtain ⟨hmap, hrest⟩ := ih hkeys
        exact ⟨by rw [List.map_cons, hmap], List.forall_mem_cons.2 ⟨hx, hrest⟩⟩

/-- Without a key that can be read, the others are read all the same, or fail all the same. -/
theorem mapM_parse_filter {st : Handle} (hst : st.Canonical) (keys : List String) :
    (keys.filter (· ≠ st.key)).mapM Handle.parse
      = (keys.mapM Handle.parse).map (List.filter (· ≠ st)) := by
  induction keys with
  | nil => rfl
  | cons k keys ih =>
    -- The status node is dropped from the keys just if its handle is dropped.
    by_cases hk : k = st.key
    · subst hk
      rw [List.filter_cons_of_neg (by simp), ih, List.mapM_cons, hst.parse_key]
      cases keys.mapM Handle.parse with
      | error e => rfl
      | ok rest => exact congrArg Except.ok (List.filter_cons_of_neg (by simp)).symm
    · rw [List.filter_cons_of_pos (by simpa using hk), List.mapM_cons, List.mapM_cons, ih]
      cases hparse : Handle.parse k with
      | error e => rfl
      | ok x =>
        have hx : x ≠ st := fun heq => hk (heq ▸ (canonical_of_parse hparse).2.symm)
        cases keys.mapM Handle.parse with
        | error e => rfl
        | ok rest => exact congrArg Except.ok (List.filter_cons_of_pos (by simpa using hx)).symm

end Handle

section TwoStores

variable {w w' : World} {h : Handle}

/-- The handles that are found are canonical, and each is found once. -/
theorem of_run_handles {w₁ : World} {c : RunContext} {a : Handle} {handles : List Handle}
    (hw : w.Undisturbed) (hrun : (c.handles a).run w = (.ok handles, w₁)) :
    handles.Nodup ∧ ∀ x ∈ handles, x.Canonical := by
  unfold RunContext.handles RunContext.check at hrun
  split at hrun
  · rw [of_ok_bind, run_bind_ok (run_nodeKeys hw _), OrderedMap.map_scan, run_of] at hrun
    obtain ⟨hkeys, hcanonical⟩ := Handle.map_key_of_mapM_parse (Prod.mk.inj hrun).1
    have hnodup : (handles.map Handle.key).Nodup := by
      rw [hkeys]
      exact w.contexts.nodup_keys.filter _
    exact ⟨hnodup.of_map, hcanonical⟩
  · cases hrun

/-- The keys that are read as handles are the same but for that of the status. -/
theorem run_handles_alike (hw : w.Undisturbed) (hw' : w'.Undisturbed)
    (halike : w.contexts.AlikeBut h w'.contexts) (hstatus : (h.leaf "status").Canonical)
    (c : RunContext) (a : Handle) :
    (∃ e, (c.handles a).run w = (.error e, w) ∧ (c.handles a).run w' = (.error e, w')) ∨
      ∃ handles handles', (c.handles a).run w = (.ok handles, w) ∧
        (c.handles a).run w' = (.ok handles', w') ∧
        handles.filter (· ≠ h.leaf "status") = handles'.filter (· ≠ h.leaf "status") := by
  unfold RunContext.handles RunContext.check
  split
  · rw [of_ok_bind, run_bind_ok (run_nodeKeys hw _), run_bind_ok (run_nodeKeys hw' _),
      OrderedMap.map_scan, OrderedMap.map_scan, run_of, run_of]
    -- But for the status node, the same keys are scanned in both worlds.
    have hfilter : ((w.contexts.keys.filter (Text.beginsWith a.key)).mapM Handle.parse).map
          (List.filter (· ≠ h.leaf "status"))
        = ((w'.contexts.keys.filter (Text.beginsWith a.key)).mapM Handle.parse).map
          (List.filter (· ≠ h.leaf "status")) := by
      rw [← Handle.mapM_parse_filter hstatus, ← Handle.mapM_parse_filter hstatus, List.filter_comm,
        halike.filter_keys_eq, List.filter_comm]
    cases hread : (w.contexts.keys.filter (Text.beginsWith a.key)).mapM Handle.parse with
    | error e =>
      rw [hread] at hfilter
      cases hread' : (w'.contexts.keys.filter (Text.beginsWith a.key)).mapM Handle.parse with
      | error e' =>
        rw [hread'] at hfilter
        exact .inl ⟨e, rfl, by rw [Except.error.inj hfilter]⟩
      | ok handles' => rw [hread'] at hfilter; cases hfilter
    | ok handles =>
      rw [hread] at hfilter
      cases hread' : (w'.contexts.keys.filter (Text.beginsWith a.key)).mapM Handle.parse with
      | error e' => rw [hread'] at hfilter; cases hfilter
      | ok handles' =>
        rw [hread'] at hfilter
        exact .inr ⟨handles, handles', rfl, rfl, Except.ok.inj hfilter⟩
  · exact .inl ⟨_, rfl, rfl⟩

/-- What is read of the others does not depend on one that is passed over. -/
theorem filterMap_filter_ne {α β : Type} [DecidableEq α] {f : α → Option β} {a : α} (ha : f a = none)
    (l : List α) : (l.filter (· ≠ a)).filterMap f = l.filterMap f := by
  rw [List.filterMap_filter]
  refine List.filterMap_congr fun x _ => ?_
  by_cases hx : x = a
  · simp [hx, ha]
  · simp [hx]

end TwoStores

/-! ### What is looked at alike -/

section Alike

variable {id app cluster name : String}

variable (hh : (resourcePlace id app cluster name).Canonical)
include hh

/-- The id of a context with a canonical resource can be loaded. -/
theorem isValidId_of_resourcePlace : RunContext.isValidId id = true :=
  Handle.isValidId_iff.2 ⟨hh.id_ne, hh.id_word⟩

/-- The status beneath a canonical resource is canonical. -/
theorem canonical_status_of_resourcePlace :
    ((resourcePlace id app cluster name).leaf "status").Canonical :=
  hh.push (by simp [resourcePlace, Handle.child, Handle.not_endsBare_push, Segment.IsBare])
    (by decide)

/-- Any other node is the same in both stores. -/
theorem nodeAlike_of_ne {x : Handle} (hx : x.Canonical) (hne : x ≠ resourcePlace id app cluster name)
    (hne' : x ≠ (resourcePlace id app cluster name).leaf "status") (c : RunContext) :
    c.NodeAlike (fun w w' => w.contexts.AlikeBut (resourcePlace id app cluster name) w'.contexts)
      x :=
  fun _ _ _ halike => halike.same x.key (mt (Handle.key_inj hx hh).1 hne)
    (mt (Handle.key_inj hx (canonical_status_of_resourcePlace hh)).1 hne')

/-- The nodes above the resources are. -/
theorem nodeAlike_of_length {x : Handle} (hx : x.Canonical) (hlength : x.segments.length ≤ 2)
    (c : RunContext) :
    c.NodeAlike (fun w w' => w.contexts.AlikeBut (resourcePlace id app cluster name) w'.contexts)
      x := by
  refine nodeAlike_of_ne hh hx ?_ ?_ c
  · rintro rfl
    simp [resourcePlace, Handle.child, Handle.push, Handle.root] at hlength
  · rintro rfl
    simp [resourcePlace, Handle.child, Handle.leaf, Handle.push, Handle.root] at hlength

/-- The root is found alike, since it is no resource. -/
theorem root_looks_alike : (RunContext.root ⟨some id⟩).Looks fun w w' =>
    w.contexts.AlikeBut (resourcePlace id app cluster name) w'.contexts := by
  refine RunContext.root_looks_of fun id' hid' => ?_
  obtain rfl : id = id' := Option.some.inj hid'
  exact nodeAlike_of_length hh (Handle.canonical_root (isValidId_of_resourcePlace hh)) (by simp [Handle.root]) _

omit hh in
/-- What is found of an app is its handle, and its name was checked. -/
theorem getAppHandle_reads (id app : String) :
    ((AppContext.ofId id).getAppHandle app).Reads fun _ x =>
      x = (Handle.root id).child "app" app ∧ validateName "app" app = .ok () := by
  refine (reads_of _).step fun u => (RunContext.root_reads id).step fun root =>
    (AppContext.existing_reads _ _ _).mono ?_
  intro w x hx hroot hname
  exact ⟨hroot.1 ▸ hx, hname⟩

/-- Apps are found alike. -/
theorem getAppHandle_looks_alike (app' : String) :
    ((AppContext.ofId id).getAppHandle app').Looks fun w w' =>
      w.contexts.AlikeBut (resourcePlace id app cluster name) w'.contexts := by
  refine (looks_of _).step (reads_of _) fun u => ?_
  refine ((root_looks_alike hh).mono fun _ _ h => h.1).step (RunContext.root_reads id) fun root => ?_
  refine AppContext.existing_looks_of ?_ _
  intro hid w w' halike
  obtain ⟨⟨halike, hname⟩, rfl, -⟩ := halike
  have hroot := Handle.canonical_root (isValidId_of_resourcePlace hh)
  have happ := hroot.child (Handle.not_endsBare_root id)
    (Handle.sound_of_validateName (show "app" ∈ namedLevels by decide) hname)
  exact nodeAlike_of_length hh happ.1 (by simp [Handle.child, Handle.push, Handle.root]) _ hid w w'
    halike

omit hh in
/-- What is found of a cluster is its handle. -/
theorem getClusterHandle_reads (id app cluster : String) :
    ((AppContext.ofId id).getClusterHandle app cluster).Reads fun _ x =>
      x = ((Handle.root id).child "app" app).child "cluster" cluster := by
  refine (reads_of _).step fun u => (getAppHandle_reads id app).step fun root =>
    (AppContext.existing_reads _ _ _).mono ?_
  intro w x hx hroot hname
  exact hroot.1 ▸ hx

/-- Clusters are found alike. -/
theorem getClusterHandle_looks_alike (app' cluster' : String) :
    ((AppContext.ofId id).getClusterHandle app' cluster').Looks fun w w' =>
      w.contexts.AlikeBut (resourcePlace id app cluster name) w'.contexts := by
  refine (looks_of _).step (reads_of _) fun u => ?_
  refine ((getAppHandle_looks_alike hh app').mono fun _ _ h => h.1).step
    (getAppHandle_reads id app') fun handle => ?_
  refine AppContext.existing_looks_of ?_ _
  intro hid w w' halike
  obtain ⟨⟨halike, hcluster⟩, rfl, happ⟩ := halike
  have hroot := Handle.canonical_root (isValidId_of_resourcePlace hh)
  have happ := hroot.child (Handle.not_endsBare_root id)
    (Handle.sound_of_validateName (show "app" ∈ namedLevels by decide) happ)
  have hcluster := happ.1.child happ.2
    (Handle.sound_of_validateName (show "cluster" ∈ namedLevels by decide) hcluster)
  exact nodeAlike_of_length hh hcluster.1 (by simp [Handle.child, Handle.push, Handle.root]) _ hid
    w w' halike

/-- The overall status is read alike. -/
theorem overallStatus_looks_alike :
    (AppContext.ofId id).overallStatus.Looks fun w w' =>
      w.contexts.AlikeBut (resourcePlace id app cluster name) w'.contexts := by
  have hroot := Handle.canonical_root (isValidId_of_resourcePlace hh)
  have hleaf : ((Handle.root id).leaf "status").Canonical :=
    hroot.push (Handle.not_endsBare_root id) (by decide)
  -- The overall status lies nearer to the root than any node of a resource.
  have hnode : ∀ x : Handle, x = (Handle.root id).leaf "status" →
      (AppContext.ofId id).nodes.NodeAlike (fun w w' =>
        w.contexts.AlikeBut (resourcePlace id app cluster name) w'.contexts) x := by
    rintro x rfl
    exact nodeAlike_of_length hh hleaf (by simp [Handle.leaf, Handle.push, Handle.root]) _
  refine (root_looks_alike hh).step (RunContext.root_reads id) fun root => ?_
  have hreads : ((AppContext.ofId id).getLevelHandle root "status").Reads fun _ found =>
      found = root.leaf "status" :=
    (readOnly_of _).step fun _ => (AppContext.existing_reads _ _ _).mono fun _ _ hfound _ => hfound
  refine Looks.step ((looks_of _).bind fun _ => AppContext.existing_looks_of ?_ _) hreads
    fun leaf => RunContext.value_looks_of ?_ _
  · intro hid w w' h
    obtain ⟨halike, rfl, -⟩ := h
    exact hnode _ rfl hid w w' halike
  · intro hid w w' h
    obtain ⟨⟨halike, rfl, -⟩, rfl⟩ := h
    exact hnode _ rfl hid w w' halike

/-- The names of nodes do not tell the one store from the other. -/
theorem childNames_looks_alike (parent : Handle) (level : String) :
    ((AppContext.ofId id).childNames parent level).Looks fun w w' =>
      w.contexts.AlikeBut (resourcePlace id app cluster name) w'.contexts where
  readOnly :=
    (AppContext.childNames_looks (AppContext.ofId id).nodes.seenAlike_eq parent level).readOnly
  same := by
    intro w w' hw hw' halike
    unfold AppContext.childNames
    rcases run_handles_alike hw hw' halike (canonical_status_of_resourcePlace hh)
      (AppContext.ofId id).nodes parent with ⟨e, hr, hr'⟩ | ⟨_, _, hr, hr', hfilter⟩
    · exact ⟨_, run_bind_error hr, run_bind_error hr'⟩
    · rw [run_bind_ok hr, run_bind_ok hr', run_pure, run_pure,
        ← filterMap_filter_ne (a := (resourcePlace id app cluster name).leaf "status"), hfilter,
        filterMap_filter_ne]
      · exact ⟨_, rfl, rfl⟩
      all_goals
        -- a leaf is no named node
        refine Option.eq_none_iff_forall_ne_some.2 fun n hn => ?_
        cases (Handle.push_inj.1 (AppContext.childName?_eq_some_iff.1 hn)).2

omit hh in
/-- The names are different. -/
theorem nodup_of_run_childNames {w w₁ : World} {parent : Handle} {level : String}
    {names : List String} (hw : w.Undisturbed)
    (hrun : ((AppContext.ofId id).childNames parent level).run w = (.ok names, w₁)) :
    names.Nodup := by
  unfold AppContext.childNames at hrun
  rcases hhandles : ((AppContext.ofId id).nodes.handles parent).run w with ⟨e | handles, w₂⟩
  · rw [run_bind_error hhandles] at hrun
    cases hrun
  · rw [run_bind_ok hhandles] at hrun
    obtain rfl := Except.ok.inj (Prod.mk.inj hrun).1
    refine (of_run_handles hw hhandles).1.filterMap fun x y n hx hy => ?_
    rw [AppContext.childName?_eq_some_iff.1 hx, AppContext.childName?_eq_some_iff.1 hy]

/-- The clusters of an app are the same in both stores, each once. -/
theorem getClusterNames_looks_alike (app' : String) :
    ((AppContext.ofId id).getClusterNames app').Looks fun w w' =>
      w.contexts.AlikeBut (resourcePlace id app cluster name) w'.contexts :=
  (getAppHandle_looks_alike hh app').bind fun _ => childNames_looks_alike hh _ _

omit hh in
/-- No cluster is listed twice. -/
theorem nodup_of_run_getClusterNames {w w₁ : World} {app' : String} {names : List String}
    (hw : w.Undisturbed)
    (hrun : ((AppContext.ofId id).getClusterNames app').run w = (.ok names, w₁)) :
    names.Nodup := by
  unfold AppContext.getClusterNames at hrun
  rcases happ : ((AppContext.ofId id).getAppHandle app').run w with ⟨e | handle, w₂⟩
  · rw [run_bind_error happ] at hrun
    cases hrun
  · have hsame : w₂ = w := by
      have hsteady := (AppContext.getAppHandle_looks (AppContext.ofId id).nodes.seenAlike_eq
        app').steady w hw
      rwa [happ] at hsteady
    rw [run_bind_ok happ, hsame] at hrun
    exact nodup_of_run_childNames hw hrun

end Alike

/-! ### What is found in both stores -/

section Found

/-- What is seen of a resource of a context. -/
def World.seen (w : World) (id : String) (x : Handle) : Option Observed :=
  match (((AppContext.ofId id).observe x).run w).1 with
  | .ok seen => seen
  | .error _ => none

variable {w w' : World} {id app cluster name : String}

/-- To observe a resource is to see what is stored of it. -/
theorem run_observe_seen (hw : w.Undisturbed) (x : Handle) :
    ((AppContext.ofId id).observe x).run w = (.ok (w.seen id x), w) := by
  obtain ⟨seen, hseen⟩ := AppContext.observe_tells (AppContext.ofId id) x w hw
  rw [World.seen, hseen]

/-- To observe several resources is to see what is stored of each. -/
theorem run_observeAll_seen (hw : w.Undisturbed) (handles : List Handle) :
    ((AppContext.ofId id).observeAll handles).run w
      = (.ok (handles.filterMap (w.seen id)), w) := by
  induction handles with
  | nil => rfl
  | cons x handles ih =>
    rw [AppContext.observeAll, run_bind_ok (run_observe_seen hw x), run_bind_ok ih, run_pure,
      filterMap_cons_eq]

variable (hh : (resourcePlace id app cluster name).Canonical)
include hh

/-- Any other resource is seen alike in both stores. -/
theorem seen_eq_of_ne (hw : w.Undisturbed) (hw' : w'.Undisturbed)
    (halike : w.contexts.AlikeBut (resourcePlace id app cluster name) w'.contexts)
    {parent : Handle} {n : String} (hx : (parent.child "resource" n).Canonical)
    (hne : parent.child "resource" n ≠ resourcePlace id app cluster name) :
    w.seen id (parent.child "resource" n) = w'.seen id (parent.child "resource" n) := by
  have hleaf : ((parent.child "resource" n).leaf "status").Canonical :=
    hx.push (by simp [Handle.child, Handle.not_endsBare_push, Segment.IsBare]) (by decide)
  have hlooks := AppContext.observe_looks_of (c := AppContext.ofId id)
    (nodeAlike_of_ne hh hx hne (fun heq => by cases (Handle.push_inj.1 heq).2) _)
    (nodeAlike_of_ne hh hleaf (fun heq => by cases (Handle.push_inj.1 heq).2)
      (fun heq => hne (Handle.push_inj.1 heq).1) _)
  obtain ⟨r, hr, hr'⟩ := hlooks.same w w' hw hw' halike
  rw [World.seen, World.seen, hr, hr']

/-- The resources that are found on a cluster are the same in both stores. -/
theorem run_observeCluster_alike (hw : w.Undisturbed) (hw' : w'.Undisturbed)
    (halike : w.contexts.AlikeBut (resourcePlace id app cluster name) w'.contexts)
    (parent : Handle) :
    (∃ e, ((AppContext.ofId id).observeCluster parent).run w = (.error e, w) ∧
        ((AppContext.ofId id).observeCluster parent).run w' = (.error e, w')) ∨
      ∃ handles : List Handle, handles.Nodup ∧
        (∀ x ∈ handles, x.Canonical ∧ ∃ n, x = parent.child "resource" n) ∧
        ((AppContext.ofId id).observeCluster parent).run w
          = (.ok (handles.filterMap (w.seen id)), w) ∧
        ((AppContext.ofId id).observeCluster parent).run w'
          = (.ok (handles.filterMap (w'.seen id)), w') := by
  unfold AppContext.observeCluster
  rcases run_handles_alike hw hw' halike (canonical_status_of_resourcePlace hh)
    (AppContext.ofId id).nodes parent with ⟨e, hr, hr'⟩ | ⟨handles, handles', hr, hr', hfilter⟩
  · exact .inl ⟨e, run_bind_error hr, run_bind_error hr'⟩
  · have hresources : handles'.filter (·.isResourceOf parent)
        = handles.filter (·.isResourceOf parent) := by
      -- the status is no resource
      have hnone : ((resourcePlace id app cluster name).leaf "status").isResourceOf parent
          = false := by
        refine Bool.eq_false_iff.2 fun htrue => ?_
        obtain ⟨n, heq, -⟩ := Handle.isResourceOf_iff.1 htrue
        cases (Handle.push_inj.1 heq).2
      have hguard : Option.guard (·.isResourceOf parent)
          ((resourcePlace id app cluster name).leaf "status") = none := by simp [hnone]
      rw [← List.filterMap_eq_filter, ← filterMap_filter_ne hguard, ← hfilter,
        filterMap_filter_ne hguard]
    obtain ⟨hnodup, hcanonical⟩ := of_run_handles hw hr
    refine .inr ⟨handles.filter (·.isResourceOf parent), hnodup.filter _, fun x hx => ?_, ?_, ?_⟩
    · obtain ⟨hx, hres⟩ := List.mem_filter.1 hx
      obtain ⟨n, heq, -⟩ := Handle.isResourceOf_iff.1 hres
      exact ⟨hcanonical x hx, n, heq⟩
    · rw [run_bind_ok hr]
      exact run_observeAll_seen hw _
    · rw [run_bind_ok hr', hresources]
      exact run_observeAll_seen hw' _

/-- On another cluster the same is found in both stores. -/
theorem found_looks_alike {app' cluster' : String} (hne : ¬ (app' = app ∧ cluster' = cluster)) :
    ((AppContext.ofId id).found .rsync app' cluster').Looks fun w w' =>
      w.contexts.AlikeBut (resourcePlace id app cluster name) w'.contexts := by
  have hc := (AppContext.ofId id).nodes.seenAlike_eq
  refine (getClusterHandle_looks_alike hh app' cluster').attempt.step
    (Answers.attempt (getClusterHandle_reads id app' cluster')) fun handle => ?_
  cases handle with
  | error e => exact looks_pure _
  | ok parent =>
    refine Looks.bind (Looks.attempt ⟨(AppContext.observeCluster_looks hc parent).readOnly, ?_⟩)
      fun seen => ?_
    · intro w w' hw hw' h
      obtain ⟨halike, hparent⟩ := h
      obtain rfl := hparent parent rfl
      rcases run_observeCluster_alike hh hw hw' halike
          (((Handle.root id).child "app" app').child "cluster" cluster')
        with ⟨e, hr, hr'⟩ | ⟨handles, -, hhandles, hr, hr'⟩
      · exact ⟨_, hr, hr'⟩
      · refine ⟨_, hr, ?_⟩
        rw [hr']
        -- none of its resources is the one that differs
        have hseen : ∀ x ∈ handles, w.seen id x = w'.seen id x := by
          intro x hx
          obtain ⟨hcanonical, n, rfl⟩ := hhandles x hx
          refine seen_eq_of_ne hh hw hw' halike hcanonical fun heq => hne ?_
          have hcluster := Handle.push_inj.1 (Handle.push_inj.1 heq).1
          exact ⟨(Segment.level.inj (Handle.push_inj.1 hcluster.1).2).2,
            (Segment.level.inj hcluster.2).2⟩
        rw [List.filterMap_congr hseen]
    · cases seen with
      | error e => exact looks_pure _
      | ok seen => exact looks_pure _

end Found

end NetIntent
