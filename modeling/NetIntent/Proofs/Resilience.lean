import NetIntent.Proofs.Placement

namespace NetIntent

/-!
# A bad resource does no harm to a report

While the stores answer, a report fails only if the context or its overall status cannot be read,
whatever else is stored. And what is stored at one resource, and whether it has a status, is seen in
its own entries only.

* `run_gather_of_foreign` — a resource is not seen in the reports on other contexts;
* `run_findings_placed` — in the report on its own context it is found in one place;
* `gather_resilient` — the two facts about reports.
-/

open Op

/-! ### Two reports -/

section Reports

variable {w w' : World} {l : Ledger} {apps : List String} {q : StatusQuery}
  {id app cluster name : String}

/-- A report on another context is the same. -/
theorem run_gather_of_foreign (hw : w.Undisturbed) (hw' : w'.Undisturbed)
    (hh : (resourcePlace id app cluster name).Canonical)
    (halike : w.contexts.AlikeBut (resourcePlace id app cluster name) w'.contexts)
    (hid : q.contextOf l ≠ id) :
    ∃ r, (gather l apps q).run w = (r, w) ∧ (gather l apps q).run w' = (r, w') := by
  by_cases hvalid : RunContext.isValidId (q.contextOf l) = true
  · have hword := (Handle.isValidId_iff.1 hvalid).2
    have hlooks : (gather l apps q).Looks fun w w' =>
        w.contexts.Agree w'.contexts (q.contextOf l) := gather_looks q l apps fun _ _ h => h
    refine hlooks.same w w' hw hw' fun key hkey => (halike.same key ?_ ?_).symm
    -- the keys that differ belong to the context of the resource
    · rintro rfl
      exact hid ((Handle.beginsWith_root_iff hword hh.id_word).1 hkey).symm
    · rintro rfl
      have hstatus := (canonical_status_of_resourcePlace hh).id_word
      exact hid ((Handle.beginsWith_root_iff hword hstatus).1 hkey).symm
  · obtain ⟨e, -, he⟩ := AppContext.fromId_of_invalid hvalid
    have hfails : gather l apps q = throw e := by
      rw [gather, ← StatusQuery.contextOf, he]
      rfl
    rw [hfails]
    exact ⟨.error e, rfl, rfl⟩

variable (apps) in
/-- What is found is the same but for the resource in its place. Where the context cannot be reported
    on, the two fail alike. -/
theorem run_findings_placed (hw : w.Undisturbed) (hw' : w'.Undisturbed) (hsource : q.source = .rsync)
    (hid : q.contextOf l = id) (hh : (resourcePlace id app cluster name).Canonical)
    (halike : w.contexts.AlikeBut (resourcePlace id app cluster name) w'.contexts) :
    (∃ e, (findings l apps q).run w = (.error e, w) ∧ (findings l apps q).run w' = (.error e, w')) ∨
      ∃ (status : ContextStatus) (place : Place) (own own' : Option Observed)
        (found : List AppFindings), place.app = app ∧ place.cluster = cluster ∧
        (own = none ∨ own = w.seen id (resourcePlace id app cluster name)) ∧
        (own' = none ∨ own' = w'.seen id (resourcePlace id app cluster name)) ∧
        (findings l apps q).run w = (.ok (status, found.map (AppFindings.placing place own)), w) ∧
        (findings l apps q).run w'
          = (.ok (status, found.map (AppFindings.placing place own')), w') ∧
        (found.map (·.app)).Sublist apps ∧
        ∀ f ∈ found, (f.clusters.map (·.cluster)).Nodup := by
  -- Loading looks at the root only, which is the same in both worlds.
  have hload : (AppContext.fromId (q.contextOf l)).Looks fun w w' =>
      w.contexts.AlikeBut (resourcePlace id app cluster name) w'.contexts := by
    rw [hid, AppContext.fromId_eq (isValidId_of_resourcePlace hh)]
    exact (root_looks_alike hh).bind fun _ => looks_pure _
  unfold findings
  rw [← StatusQuery.contextOf]
  obtain ⟨r, hr, hr'⟩ := hload.same w w' hw hw' halike
  cases r with
  | error e => exact .inl ⟨e, run_bind_error hr, run_bind_error hr'⟩
  | ok c =>
    obtain ⟨rfl, -⟩ := (AppContext.fromId_reads _).of_run hw hr
    rw [run_bind_ok hr, run_bind_ok hr', hid]
    -- The overall status is no node of the resource either.
    obtain ⟨r, hr, hr'⟩ := (overallStatus_looks_alike hh).same w w' hw hw' halike
    cases r with
    | error e => exact .inl ⟨e, run_bind_error hr, run_bind_error hr'⟩
    | ok status =>
      -- What is found differs at the place of the resource only.
      obtain ⟨place, own, own', happ, hcluster, hown, hown', hfound⟩ :=
        run_foundOfApps_placed hh hw hw' halike hsource
      obtain ⟨found, hrun, hrun', hsub, hnodup⟩ := hfound (apps.filter (keeps q.apps))
      refine .inr ⟨status, place, own, own', found, happ, hcluster, hown, hown', ?_, ?_,
        hsub.trans List.filter_sublist, hnodup⟩
      · rw [run_bind_ok hr, run_bind_ok hrun]
        rfl
      · rw [run_bind_ok hr', run_bind_ok hrun']
        rfl

end Reports

/-- **A bad resource does no harm to a report.** While the stores answer, a report fails just if the
    context or its overall status cannot be read, whatever else is stored. And whatever is stored at
    one resource and at its status, if anything, the reports on what the synchronizer wrote are the
    same but for this resource: it is found in one place, and for each time that its app is asked for
    it has one entry at most, and one unit of one count at most. -/
theorem gather_resilient :
    (∀ (w : World) (l : Ledger) (apps : List String) (q : StatusQuery), w.Undisturbed →
      (w.contexts.Reportable (q.contextOf l) → ∃ r, (gather l apps q).run w = (.ok r, w)) ∧
      (¬ w.contexts.Reportable (q.contextOf l) → ∃ e, (gather l apps q).run w = (.error e, w))) ∧
    ∀ (w w' : World) (l : Ledger) (apps : List String) (q : StatusQuery)
      (id app cluster name : String), w.Undisturbed → w'.Undisturbed → q.source = .rsync →
      (resourcePlace id app cluster name).Canonical →
      w.contexts.AlikeBut (resourcePlace id app cluster name) w'.contexts →
      (∃ r, (gather l apps q).run w = (r, w) ∧ (gather l apps q).run w' = (r, w')) ∨
      ∃ (r r' : StatusReport) (place : Place) (own own' : Option Observed)
        (found : List AppFindings) (rest : List ResourceReport) (counts : String → Nat),
        (gather l apps q).run w = (.ok r, w) ∧ (gather l apps q).run w' = (.ok r', w') ∧
        place.app = app ∧ place.cluster = cluster ∧
        (own = none ∨ own = w.seen id (resourcePlace id app cluster name)) ∧
        (own' = none ∨ own' = w'.seen id (resourcePlace id app cluster name)) ∧
        r = .ofFindings l q r.status (found.map (AppFindings.placing place own)) ∧
        r' = .ofFindings l q r.status (found.map (AppFindings.placing place own')) ∧
        r.Shares q rest counts (apps.count app) own ∧
        r'.Shares q rest counts (apps.count app) own' := by
  constructor
  · intro w l apps q hw
    exact ⟨(run_gather_iff hw).2, run_gather_of_not_reportable hw⟩
  · intro w w' l apps q id app cluster name hw hw' hsource hh halike
    by_cases hid : q.contextOf l = id
    · rcases run_findings_placed apps hw hw' hsource hid hh halike with
        ⟨e, hr, hr'⟩ | ⟨status, place, own, own', found, rfl, rfl, hown, hown', hr, hr', hsub, hnodup⟩
      · exact .inl ⟨.error e, run_gather_of_error hr, run_gather_of_error hr'⟩
      · refine .inr ⟨_, _, place, own, own', found, _, _, run_gather_of_findings hr,
          run_gather_of_findings hr', rfl, rfl, hown, hown', ?_, ?_,
          shares_ofFindings place own l status hsource hsub hnodup,
          shares_ofFindings place own' l status hsource hsub hnodup⟩
        · rw [status_ofFindings]
        · rw [status_ofFindings]
    -- A report on another context does not show the difference.
    · exact .inl (run_gather_of_foreign hw hw' hh halike hid)

/-! ### A resource that is spoiled -/

/-- The resource of the context that is built for a cluster. -/
def builtResource : Handle := resourcePlace "a" "net" "p+c" "n+Network"

/-- The world in which this resource has a text that cannot be read. -/
def resourceSpoiled : World :=
  (clusterBuilt "p+c").withContexts
    ((clusterBuilt "p+c").contexts.insert builtResource.key (.value (.string "[")))

/-- The stores answer in the example. -/
theorem clusterBuilt_undisturbed : (clusterBuilt "p+c").Undisturbed := ⟨by rfl, by rfl, by rfl⟩

/-- The stores answer in the example after the resource was spoiled, too. -/
theorem resourceSpoiled_undisturbed : resourceSpoiled.Undisturbed :=
  clusterBuilt_undisturbed.withContexts _

/-- What is stored in the example: the root of the context, its overall status, and the resource. -/
theorem clusterBuilt_stored :
    (clusterBuilt "p+c").contexts.get? (Handle.root "a").key = some (.value (.string "a")) ∧
      (clusterBuilt "p+c").contexts.overallStatus? "a" = some .instantiating ∧
      ((clusterBuilt "p+c").contexts.get? builtResource.key).isSome = true := by
  decide +kernel

/-- The context of the example can be reported on. -/
theorem clusterBuilt_reportable : (clusterBuilt "p+c").contexts.Reportable "a" where
  id_ne := by decide
  id_word := by decide
  rooted := clusterBuilt_stored.1
  status := ⟨.instantiating, clusterBuilt_stored.2.1⟩

/-- The two worlds of the example differ at the one resource only. -/
theorem resourceSpoiled_alikeBut :
    (clusterBuilt "p+c").contexts.AlikeBut builtResource resourceSpoiled.contexts := by
  have hstored := clusterBuilt_stored.2.2
  have hcontexts : resourceSpoiled.contexts
      = (clusterBuilt "p+c").contexts.insert builtResource.key (.value (.string "[")) := rfl
  refine ⟨OrderedMap.mem_keys_iff.2 (Option.isSome_iff_exists.1 hstored),
    OrderedMap.mem_keys_iff.2 ⟨.value (.string "["), ?_⟩, fun key hkey _ => ?_⟩
  · rw [hcontexts, OrderedMap.get?_insert, if_pos rfl]
  · rw [hcontexts, OrderedMap.get?_insert, if_neg hkey]

/-- How many resources a report lists, and how many it counts. -/
def StatusReport.numbers (r : StatusReport) : Nat × List (String × Nat) :=
  (r.listed.length, r.rsyncCounts.entries)

/-- Asked for once or twice, the resource is listed and counted as often, and once it is spoiled not
    at all. -/
theorem numbers_resourceSpoiled :
    (((gather {} ["net"] { contextId := "a" }).run (clusterBuilt "p+c")).1.map
        StatusReport.numbers = .ok (1, [("Applied", 1)]) ∧
      ((gather {} ["net"] { contextId := "a" }).run resourceSpoiled).1.map
        StatusReport.numbers = .ok (0, [])) ∧
    ((gather {} ["net", "net"] { contextId := "a" }).run (clusterBuilt "p+c")).1.map
        StatusReport.numbers = .ok (2, [("Applied", 2)]) ∧
      ((gather {} ["net", "net"] { contextId := "a" }).run resourceSpoiled).1.map
        StatusReport.numbers = .ok (0, []) := by
  decide +kernel

/-- Asked for once, the resource is listed and counted once, or not at all. -/
theorem gather_resilient_resourceSpoiled :
    ∃ (r r' : StatusReport) (own own' : Option Observed) (rest : List ResourceReport)
      (counts : String → Nat),
      (gather {} ["net"] { contextId := "a" }).run (clusterBuilt "p+c")
        = (.ok r, clusterBuilt "p+c") ∧
      (gather {} ["net"] { contextId := "a" }).run resourceSpoiled = (.ok r', resourceSpoiled) ∧
      r.numbers = (1, [("Applied", 1)]) ∧ r'.numbers = (0, []) ∧
      r.Shares { contextId := "a" } rest counts 1 own ∧
      r'.Shares { contextId := "a" } rest counts 1 own' := by
  obtain ⟨⟨hnumbers, hnumbers'⟩, -⟩ := numbers_resourceSpoiled
  obtain ⟨r, hr⟩ := (gather_resilient.1 _ {} ["net"] { contextId := "a" }
    clusterBuilt_undisturbed).1 clusterBuilt_reportable
  rcases gather_resilient.2 _ _ {} ["net"] { contextId := "a" } "a" "net" "p+c" "n+Network"
      clusterBuilt_undisturbed resourceSpoiled_undisturbed rfl (by decide)
      resourceSpoiled_alikeBut with
    ⟨_, hsame, hsame'⟩ | ⟨r₁, r', _, own, own', _, rest, counts, hr₁, hr', -, -, -, -, -, -, hown, hown'⟩
  · -- the two reports differ
    rw [hsame] at hnumbers
    rw [hsame'] at hnumbers'
    rw [hnumbers] at hnumbers'
    exact absurd hnumbers' (by decide)
  · obtain rfl : r₁ = r := Except.ok.inj (Prod.mk.inj (hr₁.symm.trans hr)).1
    rw [hr] at hnumbers
    rw [hr'] at hnumbers'
    exact ⟨r₁, r', own, own', rest, counts, hr, hr', Except.ok.inj hnumbers,
      Except.ok.inj hnumbers', hown, hown'⟩

/-- Asked for twice, it is listed and counted twice, or not at all. -/
theorem gather_twice_resourceSpoiled :
    (clusterBuilt "p+c").contexts.AlikeBut builtResource resourceSpoiled.contexts ∧
    ((gather {} ["net", "net"] { contextId := "a" }).run (clusterBuilt "p+c")).1.map
      StatusReport.numbers = .ok (2, [("Applied", 2)]) ∧
    ((gather {} ["net", "net"] { contextId := "a" }).run resourceSpoiled).1.map
      StatusReport.numbers = .ok (0, []) :=
  ⟨resourceSpoiled_alikeBut, numbers_resourceSpoiled.2⟩

end NetIntent
