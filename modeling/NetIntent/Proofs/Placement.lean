import NetIntent.Proofs.Discrepancy

namespace NetIntent

/-!
# Findings with a resource in its place

What is found in two stores that differ at one resource is the same list, with the resource put in at
one place. A report on it has its list and its counts from elsewhere, and its share of the resource.

* `exists_placed` — two readings of a list that differ at one item;
* `Place`, `AppFindings.placing` — findings with a resource in its place;
* `run_found_placed`, `run_foundOfApps_placed` — the findings of two such stores;
* `StatusReport.Shares` — a report that has its list and its counts from elsewhere, but for one
  resource;
* `shares_ofFindings` — the report on findings with a resource in its place is one.
-/

open Op

/-! ### Findings with a resource in its place -/

/-- The list with an item put in at a position, if there is one. -/
def placed {α : Type} (position : Nat) (own : Option α) (l : List α) : List α :=
  l.take position ++ own.toList ++ l.drop position

/-- What comes of one element of a list stands where the element stood. -/
theorem filterMap_eq_placed {α β : Type} (f : α → Option β) (before after : List α) (a : α) :
    (before ++ a :: after).filterMap f
      = placed (before.filterMap f).length (f a) (before.filterMap f ++ after.filterMap f) := by
  rw [List.filterMap_append, filterMap_cons_eq, placed, List.take_left, List.drop_left,
    List.append_assoc]

/-- Two readings of a list without duplicates that agree but for one item are the same but for this
    item in its place. -/
theorem exists_placed {α β : Type} {f f' : α → Option β} {a : α} {l : List α} (hnodup : l.Nodup)
    (hsame : ∀ x ∈ l, x ≠ a → f x = f' x) :
    ∃ (rest : List β) (position : Nat) (own own' : Option β),
      l.filterMap f = placed position own rest ∧ l.filterMap f' = placed position own' rest ∧
      (own = none ∨ own = f a) ∧ (own' = none ∨ own' = f' a) := by
  by_cases hmem : a ∈ l
  · obtain ⟨before, after, rfl⟩ := List.append_of_mem hmem
    obtain ⟨hbefore, hafter⟩ : a ∉ before ∧ a ∉ after := by
      simpa using (List.nodup_cons.1 (List.nodup_middle.1 hnodup)).1
    have hbefore : before.filterMap f = before.filterMap f' :=
      List.filterMap_congr fun x hx =>
        hsame x (List.mem_append_left _ hx) fun heq => hbefore (heq ▸ hx)
    have hafter : after.filterMap f = after.filterMap f' :=
      List.filterMap_congr fun x hx => hsame x (by simp [hx]) fun heq => hafter (heq ▸ hx)
    refine ⟨before.filterMap f ++ after.filterMap f, (before.filterMap f).length, f a, f' a,
      filterMap_eq_placed f before after a, ?_, .inr rfl, .inr rfl⟩
    rw [hbefore, hafter]
    exact filterMap_eq_placed f' before after a
  · -- the item is not in the list, and nothing is put in
    have hrest : l.filterMap f = l.filterMap f' :=
      List.filterMap_congr fun x hx => hsame x hx fun heq => hmem (heq ▸ hx)
    exact ⟨l.filterMap f, 0, none, none, rfl, hrest.symm, .inl rfl, .inl rfl⟩

section Placed

variable {w w' : World} {id app cluster name : String}
  (hh : (resourcePlace id app cluster name).Canonical)
include hh

/-- On the cluster of the resource the same is found but for the resource itself. -/
theorem run_found_placed (hw : w.Undisturbed) (hw' : w'.Undisturbed)
    (halike : w.contexts.AlikeBut (resourcePlace id app cluster name) w'.contexts) :
    ∃ (seen : List Observed) (position : Nat) (own own' : Option Observed),
      ((AppContext.ofId id).found .rsync app cluster).run w = (.ok (placed position own seen), w) ∧
      ((AppContext.ofId id).found .rsync app cluster).run w'
        = (.ok (placed position own' seen), w') ∧
      (own = none ∨ own = w.seen id (resourcePlace id app cluster name)) ∧
      (own' = none ∨ own' = w'.seen id (resourcePlace id app cluster name)) := by
  obtain ⟨r, hr, hr'⟩ := (getClusterHandle_looks_alike hh app cluster).same w w' hw hw' halike
  unfold AppContext.found
  dsimp only
  rw [run_attempt_bind hr, run_attempt_bind hr']
  -- A cluster or a listing that cannot be read has nothing in both worlds.
  cases r with
  | error e => exact ⟨[], 0, none, none, rfl, rfl, .inl rfl, .inl rfl⟩
  | ok parent =>
    dsimp only
    rcases run_observeCluster_alike hh hw hw' halike parent
      with ⟨e, hr, hr'⟩ | ⟨handles, hnodup, hhandles, hr, hr'⟩
    · rw [run_attempt_bind hr, run_attempt_bind hr']
      exact ⟨[], 0, none, none, rfl, rfl, .inl rfl, .inl rfl⟩
    · rw [run_attempt_bind hr, run_attempt_bind hr']
      -- All other resources are seen alike.
      have hseen : ∀ x ∈ handles, x ≠ resourcePlace id app cluster name →
          w.seen id x = w'.seen id x := by
        intro x hx hne
        obtain ⟨hcanonical, n, rfl⟩ := hhandles x hx
        exact seen_eq_of_ne hh hw hw' halike hcanonical hne
      obtain ⟨rest, position, own, own', hrest, hrest', hown, hown'⟩ := exists_placed hnodup hseen
      refine ⟨rest, position, own, own', ?_, ?_, hown, hown'⟩
      · rw [← hrest]
        rfl
      · rw [← hrest']
        rfl

end Placed

/-- A position among the resources that are found on a cluster of an app. -/
structure Place where
  app : String
  cluster : String
  position : Nat

/-- The cluster with a resource in its place, if the place is there. -/
def ClusterFindings.placing (p : Place) (own : Option Observed) (app : String)
    (f : ClusterFindings) : ClusterFindings :=
  if app = p.app ∧ f.cluster = p.cluster then { f with resources := placed p.position own f.resources }
  else f

/-- The name of the cluster stays. -/
@[simp] theorem cluster_placing (p : Place) (own : Option Observed) (app : String)
    (f : ClusterFindings) : (f.placing p own app).cluster = f.cluster := by
  unfold ClusterFindings.placing
  split <;> rfl

/-- The findings on a cluster are those with the resource in its place. -/
theorem mk_placing (p : Place) (own : Option Observed) (app : String) (f : ClusterFindings) :
    (⟨f.cluster, (f.placing p own app).resources⟩ : ClusterFindings) = f.placing p own app := by
  rw [← cluster_placing p own app f]

/-- The clusters of an app with a resource in its place, if the place is there. -/
def AppFindings.placing (p : Place) (own : Option Observed) (f : AppFindings) : AppFindings :=
  { f with clusters := f.clusters.map (ClusterFindings.placing p own f.app) }

section Placing

variable {w w' : World} {id app cluster name : String}
  (hh : (resourcePlace id app cluster name).Canonical)
include hh

/-- On each cluster the same is found in both stores, but for the resource in its place. -/
theorem run_found_placing (hw : w.Undisturbed) (hw' : w'.Undisturbed)
    (halike : w.contexts.AlikeBut (resourcePlace id app cluster name) w'.contexts)
    {seen : List Observed} {position : Nat} {own own' : Option Observed}
    (hr : ((AppContext.ofId id).found .rsync app cluster).run w
      = (.ok (placed position own seen), w))
    (hr' : ((AppContext.ofId id).found .rsync app cluster).run w'
      = (.ok (placed position own' seen), w'))
    (app' cluster' : String) :
    ∃ f : ClusterFindings, f.cluster = cluster' ∧
      ((AppContext.ofId id).found .rsync app' cluster').run w
        = (.ok (f.placing ⟨app, cluster, position⟩ own app').resources, w) ∧
      ((AppContext.ofId id).found .rsync app' cluster').run w'
        = (.ok (f.placing ⟨app, cluster, position⟩ own' app').resources, w') := by
  by_cases hplace : app' = app ∧ cluster' = cluster
  · obtain ⟨rfl, rfl⟩ := hplace
    refine ⟨⟨cluster', seen⟩, rfl, ?_, ?_⟩
    · simpa [ClusterFindings.placing] using hr
    · simpa [ClusterFindings.placing] using hr'
  · obtain ⟨found, hfound⟩ := (AppContext.ofId id).found_tells .rsync app' cluster' w hw
    obtain ⟨r, hsame, hsame'⟩ := (found_looks_alike hh hplace).same w w' hw hw' halike
    obtain rfl : r = .ok found := (Prod.mk.inj (hsame.symm.trans hfound)).1
    refine ⟨⟨cluster', found⟩, rfl, ?_, ?_⟩
    · simpa [ClusterFindings.placing, hplace] using hsame
    · simpa [ClusterFindings.placing, hplace] using hsame'

omit hh in
/-- What is found on the clusters of an app differs at the place of the resource only. -/
theorem run_foundOnClusters_placing {c : AppContext} {place : Place} {own own' : Option Observed}
    (app' : String)
    (hfound : ∀ cluster', ∃ f : ClusterFindings, f.cluster = cluster' ∧
      (c.found .rsync app' cluster').run w = (.ok (f.placing place own app').resources, w) ∧
      (c.found .rsync app' cluster').run w' = (.ok (f.placing place own' app').resources, w'))
    (clusters : List String) :
    ∃ f : AppFindings, f.app = app' ∧ f.clusters.map (·.cluster) = clusters ∧
      (c.foundOnClusters .rsync app' clusters).run w = (.ok (f.placing place own).clusters, w) ∧
      (c.foundOnClusters .rsync app' clusters).run w'
        = (.ok (f.placing place own').clusters, w') := by
  induction clusters with
  | nil => exact ⟨⟨app', []⟩, rfl, rfl, rfl, rfl⟩
  | cons cluster' clusters ih =>
    obtain ⟨f, rfl, hf, hf'⟩ := hfound cluster'
    obtain ⟨fs, rfl, rfl, hfs, hfs'⟩ := ih
    refine ⟨⟨fs.app, f :: fs.clusters⟩, rfl, rfl, ?_, ?_⟩
    · rw [AppContext.foundOnClusters, run_bind_ok hf, run_bind_ok hfs, run_pure, mk_placing]
      rfl
    · rw [AppContext.foundOnClusters, run_bind_ok hf', run_bind_ok hfs', run_pure, mk_placing]
      rfl

/-- What is found of apps in both stores is the same but for the resource in its place. -/
theorem run_foundOfApps_placed (hw : w.Undisturbed) (hw' : w'.Undisturbed)
    (halike : w.contexts.AlikeBut (resourcePlace id app cluster name) w'.contexts)
    {q : StatusQuery} (hsource : q.source = .rsync) :
    ∃ (place : Place) (own own' : Option Observed), place.app = app ∧ place.cluster = cluster ∧
      (own = none ∨ own = w.seen id (resourcePlace id app cluster name)) ∧
      (own' = none ∨ own' = w'.seen id (resourcePlace id app cluster name)) ∧
      ∀ apps : List String, ∃ found : List AppFindings,
        ((AppContext.ofId id).foundOfApps q apps).run w
          = (.ok (found.map (AppFindings.placing place own)), w) ∧
        ((AppContext.ofId id).foundOfApps q apps).run w'
          = (.ok (found.map (AppFindings.placing place own')), w') ∧
        (found.map (·.app)).Sublist apps ∧
        ∀ f ∈ found, (f.clusters.map (·.cluster)).Nodup := by
  obtain ⟨seen, position, own, own', hr, hr', hown, hown'⟩ := run_found_placed hh hw hw' halike
  refine ⟨⟨app, cluster, position⟩, own, own', rfl, rfl, hown, hown', fun apps => ?_⟩
  -- The induction is on the list of apps, each of which is found alike but for the one place.
  induction apps with
  | nil => exact ⟨[], rfl, rfl, .slnil, by simp⟩
  | cons app' apps ih =>
    obtain ⟨found, hfound, hfound', hsub, hnodup⟩ := ih
    obtain ⟨r, hnames, hnames'⟩ :=
      (getClusterNames_looks_alike hh app').same w w' hw hw' halike
    rw [AppContext.foundOfApps, run_attempt_bind hnames, run_attempt_bind hnames']
    cases r with
    | error e => exact ⟨found, hfound, hfound', hsub.cons _, hnodup⟩
    | ok names =>
      dsimp only
      obtain ⟨f, rfl, hf, hrun, hrun'⟩ := run_foundOnClusters_placing app'
        (run_found_placing hh hw hw' halike hr hr' app') (names.filter (keeps q.clusters))
      rw [hsource, run_bind_ok hrun, run_bind_ok hrun', run_bind_ok hfound, run_bind_ok hfound']
      refine ⟨f :: found, rfl, rfl, hsub.cons_cons _, List.forall_mem_cons.2 ⟨?_, hnodup⟩⟩
      rw [hf]
      exact (nodup_of_run_getClusterNames hw hnames).filter _

end Placing

/-! ### The share of one resource in a report -/

/-- The report lists these resources and has these counts, but for one resource: so many times at
    most it is listed, and counted under its status. -/
structure StatusReport.Shares (q : StatusQuery) (rest : List ResourceReport)
    (counts : String → Nat) (times : Nat) (own : Option Observed) (r : StatusReport) : Prop where
  listed : ∃ n ≤ times, r.listed.Perm (rest ++ (List.replicate n (q.reports own.toList)).flatten)
  counted : ∃ n ≤ times, ∀ word, (r.rsyncCounts.get? word).getD 0
    = counts word + if own.bind q.counted = some word then n else 0

section Share

variable (p : Place) (own : Option Observed)

/-- A resource so many times, if there is one. -/
def ownTimes (n : Nat) : List Observed := (List.replicate n own.toList).flatten

/-- A resource is there as many times as it is in both parts. -/
theorem ownTimes_add (m n : Nat) : ownTimes own (m + n) = ownTimes own m ++ ownTimes own n := by
  rw [ownTimes, List.replicate_add, List.flatten_append]
  rfl

/-- A list with an element in some place is the list with that element, in another order. -/
theorem perm_placed {α : Type} (n : Nat) (own : Option α) (l : List α) :
    (placed n own l).Perm (own.toList ++ l) := by
  have hswap : (l.take n ++ own.toList ++ l.drop n).Perm (own.toList ++ l.take n ++ l.drop n) :=
    List.perm_append_comm.append_right _
  rwa [List.append_assoc own.toList, List.take_append_drop] at hswap

/-- Two lists with additions are one list with both. -/
theorem perm_append_additions {α : Type} {l l' m m' a b : List α} (h : l.Perm (l' ++ a))
    (h' : m.Perm (m' ++ b)) : (l ++ m).Perm (l' ++ m' ++ (a ++ b)) := by
  refine (h.append h').trans ?_
  rw [List.append_assoc, List.append_assoc]
  refine List.Perm.append_left l' ?_
  rw [← List.append_assoc, ← List.append_assoc]
  exact List.perm_append_comm.append_right b

/-- On the clusters of an app the resource is added, once for each cluster of that name. -/
theorem perm_resourcesOn_placing (keep : String → Bool) (app : String)
    (clusters : List ClusterFindings) :
    ∃ n ≤ if app = p.app then (clusters.map (·.cluster)).count p.cluster else 0,
      (resourcesOn ((clusters.map (ClusterFindings.placing p own app)).filter fun f =>
          keep f.cluster)).Perm
        (resourcesOn (clusters.filter fun f => keep f.cluster) ++ ownTimes own n) := by
  induction clusters with
  | nil => exact ⟨0, by simp, .nil⟩
  | cons f clusters ih =>
    obtain ⟨n, hn, hperm⟩ := ih
    -- One cluster more leaves room for the resource at least as many times.
    have hmore : n ≤ if app = p.app then ((f :: clusters).map (·.cluster)).count p.cluster else 0 := by
      refine hn.trans ?_
      split
      · rw [List.map_cons]
        exact List.count_le_count_cons
      · exact le_rfl
    by_cases hkeep : keep f.cluster = true
    · simp only [List.map_cons, List.filter_cons, cluster_placing, hkeep, if_true]
      by_cases hplace : app = p.app ∧ f.cluster = p.cluster
      · refine ⟨1 + n, ?_, ?_⟩
        · simp only [hplace, if_true, List.count_cons_self] at hn ⊢
          omega
        · have hresources : (f.placing p own app).resources.Perm
              (f.resources ++ ownTimes own 1) := by
            rw [ClusterFindings.placing, if_pos hplace]
            refine (perm_placed _ _ _).trans ?_
            simpa [ownTimes] using List.perm_append_comm
          rw [ownTimes_add]
          exact perm_append_additions hresources hperm
      · refine ⟨n, hmore, ?_⟩
        have hresources : f.placing p own app = f := if_neg hplace
        rw [hresources]
        simpa [resourcesOn] using hperm.append_left f.resources
    · simp only [List.map_cons, List.filter_cons, cluster_placing, hkeep]
      exact ⟨n, hmore, hperm⟩

/-- In what is found of apps the resource is added, at most once for each time its app occurs. -/
theorem perm_clustersOf_placing (keep : String → Bool) {found : List AppFindings}
    (hnodup : ∀ f ∈ found, (f.clusters.map (·.cluster)).Nodup) :
    ∃ n ≤ (found.map (·.app)).count p.app,
      (resourcesOn ((clustersOf (found.map (AppFindings.placing p own))).filter fun f =>
          keep f.cluster)).Perm
        (resourcesOn ((clustersOf found).filter fun f => keep f.cluster) ++ ownTimes own n) := by
  induction found with
  | nil => exact ⟨0, by simp, .nil⟩
  | cons f found ih =>
    obtain ⟨hf, hrest⟩ := List.forall_mem_cons.1 hnodup
    obtain ⟨n, hn, hperm⟩ := ih hrest
    obtain ⟨m, hm, happ⟩ := perm_resourcesOn_placing p own keep f.app f.clusters
    refine ⟨m + n, ?_, ?_⟩
    -- Each app lists a cluster once at most, and so it has the resource once at most.
    · have hone : (f.clusters.map (·.cluster)).count p.cluster ≤ 1 :=
        List.nodup_iff_count_le_one.1 hf _
      rw [List.map_cons, List.count_cons]
      by_cases happ : f.app = p.app
      · simp only [happ, if_true, beq_self_eq_true] at hm ⊢
        omega
      · simp only [happ, if_false, beq_iff_eq] at hm ⊢
        omega
    · have hboth := perm_append_additions happ hperm
      simpa [clustersOf, resourcesOn, AppFindings.placing, ownTimes_add] using hboth

/-- A cluster has a proper name just if that can be split. -/
theorem decide_isNamed (f : ClusterFindings) :
    decide f.IsNamed = (Text.splitOnce '+' f.cluster).isSome := by
  rw [Bool.eq_iff_iff, decide_eq_true_iff]
  rfl

/-- The resource is reported on as often as it is found. -/
theorem reports_ownTimes (q : StatusQuery) (n : Nat) :
    q.reports (ownTimes own n) = (List.replicate n (q.reports own.toList)).flatten := by
  simp [StatusQuery.reports, ownTimes, List.filter_flatten, List.map_flatten]

/-- The resource is counted as often as it is found, if it is counted at all. -/
theorem countP_ownTimes (own : Option Observed) (n : Nat) (count : Observed → Bool) :
    (ownTimes own n).countP count = if own.any count then n else 0 := by
  cases own with
  | none => simp [ownTimes]
  | some o => cases hcount : count o <;> simp [ownTimes, List.countP_replicate, hcount]

/-- A report on findings with the resource in its place has its share of it. -/
theorem shares_ofFindings (l : Ledger) {q : StatusQuery} (status : ContextStatus)
    {found : List AppFindings} {apps : List String} (hsource : q.source = .rsync)
    (hsub : (found.map (·.app)).Sublist apps)
    (hnodup : ∀ f ∈ found, (f.clusters.map (·.cluster)).Nodup) :
    (StatusReport.ofFindings l q status (found.map (AppFindings.placing p own))).Shares q
      (StatusReport.ofFindings l q status found).listed
      (fun word => ((StatusReport.ofFindings l q status found).rsyncCounts.get? word).getD 0)
      (apps.count p.app) own where
  listed := by
    by_cases houtput : q.output = .summary
    · exact ⟨0, Nat.zero_le _, by simp [listed_of_summary houtput]⟩
    · obtain ⟨n, hn, hperm⟩ := perm_clustersOf_placing p own
        (fun cluster => (Text.splitOnce '+' cluster).isSome) hnodup
      refine ⟨n, hn.trans (hsub.count_le _), ?_⟩
      rw [listed_ofFindings houtput, listed_ofFindings houtput, ← reports_ownTimes, ← reports_append]
      refine (List.Perm.filter _ ?_).map _
      simpa only [namedResources, decide_isNamed] using hperm
  counted := by
    obtain ⟨n, hn, hperm⟩ := perm_clustersOf_placing p own (fun _ => true) hnodup
    refine ⟨n, hn.trans (hsub.count_le _), fun word => ?_⟩
    -- The counts are those of all resources found, in whatever order.
    have hcounts : ∀ found, (StatusReport.ofFindings l q status found).rsyncCounts
        = q.counts (clustersOf found) .empty := by simp [StatusReport.ofFindings, hsource]
    have hcount : ∀ found : List AppFindings,
        ((q.counts (clustersOf found) .empty).get? word).getD 0
          = (resourcesOn (clustersOf found)).countP fun r => q.counted r == some word := by
      intro found
      rw [StatusQuery.counts, Counts.getD_get?_tally, List.count_filterMap]
      simp
    simp only [List.filter_true] at hperm
    rw [hcounts, hcounts, hcount, hcount, hperm.countP_eq, List.countP_append, countP_ownTimes]
    cases own <;> simp

end Share

end NetIntent
