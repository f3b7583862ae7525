import NetIntent.Proofs.ContextReport
import NetIntent.Proofs.Findings

namespace NetIntent

/-!
# Contexts that can be reported on

While the stores answer, whatever is found on the clusters of a context can be told: what cannot be
read is passed over. So a report is made just if the context and its overall status can be read.

* `Op.Tells` — operations that always have a result;
* `AppContext.foundOfApps_tells` — what is found on the clusters of a context can always be told;
* `ContextStore.Reportable` — the contexts that can be reported on;
* `run_gather_iff` — a report is made just of these.
-/

open Op

/-! ### Operations that always have a result -/

namespace Op

variable {α β : Type} {op : Op α} {next : α → Op β}

/-- While the stores answer, the operation has a result and changes nothing. -/
def Tells (op : Op α) : Prop := ∀ w, w.Undisturbed → ∃ a, op.run w = (.ok a, w)

/-- A returned value is a result. -/
theorem tells_pure (a : α) : (pure a : Op α).Tells := fun _ _ => ⟨a, rfl⟩

/-- Two steps that always have a result have one together. -/
theorem Tells.bind (h : op.Tells) (hnext : ∀ a, (next a).Tells) : (op >>= next).Tells := by
  intro w hw
  obtain ⟨a, ha⟩ := h w hw
  rw [run_bind_ok ha]
  exact hnext a w hw

/-- An attempt has a result, whatever comes of it. -/
theorem Steady.attempt_tells (h : op.Steady) : op.attempt.Tells := by
  intro w hw
  exact ⟨(op.run w).1, by rw [run_attempt, h w hw]⟩

end Op

section Telling

variable (c : AppContext)

/-- What is seen of a resource can be told, be it nothing. -/
theorem AppContext.observe_tells (h : Handle) : (c.observe h).Tells := by
  have hc := c.nodes.seenAlike_eq
  refine (RunContext.rawValue_looks hc h).steady.attempt_tells.bind fun r => ?_
  split
  · refine (installStatus_looks hc h).steady.attempt_tells.bind fun status => ?_
    split
    · exact tells_pure _
    · exact tells_pure _
  · exact tells_pure _

/-- What is found on a cluster can be told, be it nothing. -/
theorem AppContext.found_tells (source : StatusSource) (app cluster : String) :
    (c.found source app cluster).Tells := by
  have hc := c.nodes.seenAlike_eq
  unfold found
  cases source with
  | rsync =>
    refine (getClusterHandle_looks hc app cluster).steady.attempt_tells.bind fun handle => ?_
    cases handle with
    | error e => exact tells_pure _
    | ok h =>
      refine (observeCluster_looks hc h).steady.attempt_tells.bind fun seen => ?_
      cases seen with
      | error e => exact tells_pure _
      | ok seen => exact tells_pure _
  | cluster =>
    -- Whatever fails on the way to a snapshot, there is none.
    have hsnapshot : (c.snapshot app cluster).Tells := by
      refine (getClusterStatusHandle_looks hc app cluster).steady.attempt_tells.bind fun r => ?_
      split
      · exact tells_pure _
      · refine (RunContext.rawValue_looks hc _).steady.attempt_tells.bind fun value => ?_
        split
        · exact tells_pure _
        · exact tells_pure _
    refine hsnapshot.bind fun snapshot => ?_
    cases snapshot with
    | none => exact tells_pure _
    | some s => exact tells_pure _

/-- What is found on the clusters of an app can be told. -/
theorem AppContext.foundOnClusters_tells (source : StatusSource) (app : String)
    (clusters : List String) : (c.foundOnClusters source app clusters).Tells := by
  induction clusters with
  | nil => exact tells_pure _
  | cons cluster clusters ih =>
    exact (found_tells c source app cluster).bind fun _ => ih.bind fun _ => tells_pure _

/-- What is found of the apps of a context can be told. -/
theorem AppContext.foundOfApps_tells (q : StatusQuery) (apps : List String) :
    (c.foundOfApps q apps).Tells := by
  induction apps with
  | nil => exact tells_pure _
  | cons app apps ih =>
    refine (getClusterNames_looks c.nodes.seenAlike_eq app).steady.attempt_tells.bind fun names => ?_
    cases names with
    | error e => exact ih
    | ok names =>
      exact (foundOnClusters_tells c q.source app _).bind fun _ => ih.bind fun _ => tells_pure _

end Telling

/-! ### Contexts that can be reported on -/

/-- The context can be reported on: its id can be one, its root is stored, and its overall status can
    be read. -/
structure ContextStore.Reportable (s : ContextStore) (id : String) : Prop where
  id_ne : id ≠ ""
  id_word : Handle.IsWord id
  rooted : s.Rooted id
  status : ∃ status, s.overallStatus? id = some status

/-- The context that a query is about. -/
def StatusQuery.contextOf (q : StatusQuery) (l : Ledger) : String :=
  if q.contextId = "" then l.lastId else q.contextId

section Reportable

variable {w : World} {l : Ledger} {apps : List String} {q : StatusQuery}

variable (apps) in
/-- What a report is made of can be told for a context that is there and has a status. -/
theorem run_findings (hw : w.Undisturbed) {status : ContextStatus}
    (hid : RunContext.isValidId (q.contextOf l) = true) (hroot : w.contexts.Rooted (q.contextOf l))
    (hstatus : w.contexts.overallStatus? (q.contextOf l) = some status) :
    ∃ found, ((AppContext.ofId (q.contextOf l)).foundOfApps q (apps.filter (keeps q.apps))).run w
        = (.ok found, w) ∧
      (findings l apps q).run w = (.ok (status, found), w) := by
  obtain ⟨found, hfound⟩ := (AppContext.ofId (q.contextOf l)).foundOfApps_tells q
    (apps.filter (keeps q.apps)) w hw
  refine ⟨found, hfound, ?_⟩
  unfold findings
  rw [← StatusQuery.contextOf, run_bind_ok (AppContext.run_fromId hw hid hroot),
    run_bind_ok (AppContext.run_overallStatus hw hroot hstatus), run_bind_ok hfound]
  rfl

/-- A report is made just if the context can be reported on. -/
theorem run_gather_iff (hw : w.Undisturbed) :
    (∃ r, (gather l apps q).run w = (.ok r, w)) ↔ w.contexts.Reportable (q.contextOf l) := by
  constructor
  · intro hrun
    obtain ⟨r, hrun⟩ := hrun
    unfold gather at hrun
    dsimp only at hrun
    rw [← StatusQuery.contextOf] at hrun
    -- A report begins with loading the context, which needs a valid id and a root.
    rcases hload : (AppContext.fromId (q.contextOf l)).run w with ⟨e | c, w₁⟩
    · rw [run_bind_error hload] at hrun
      cases hrun
    · obtain ⟨rfl, hroot⟩ := (AppContext.fromId_reads _).of_run hw hload
      have hid : RunContext.isValidId (q.contextOf l) = true := by
        by_contra hid
        obtain ⟨e, -, he⟩ := AppContext.fromId_of_invalid hid
        rw [he] at hload
        cases hload
      rw [AppContext.run_fromId hw hid hroot] at hload
      rw [run_bind_ok (AppContext.run_fromId hw hid hroot)] at hrun
      -- After that the overall status has to be read.
      rcases hstatus : (AppContext.ofId (q.contextOf l)).overallStatus.run w with ⟨e | status, w₂⟩
      · rw [run_bind_error hstatus] at hrun
        cases hrun
      · obtain ⟨hne, hword⟩ := Handle.isValidId_iff.1 hid
        exact ⟨hne, hword, hroot, status, (AppContext.overallStatus_reads _).of_run hw hstatus⟩
  · intro h
    obtain ⟨status, hstatus⟩ := h.status
    have hid : RunContext.isValidId (q.contextOf l) = true :=
      Handle.isValidId_iff.2 ⟨h.id_ne, h.id_word⟩
    obtain ⟨found, -, hfound⟩ := run_findings apps hw hid h.rooted hstatus
    exact ⟨.ofFindings l q status found, run_gather_of_findings hfound⟩

/-- Of any other context no report is made, and nothing is changed. -/
theorem run_gather_of_not_reportable (hw : w.Undisturbed)
    (hnot : ¬ w.contexts.Reportable (q.contextOf l)) :
    ∃ e, (gather l apps q).run w = (.error e, w) := by
  have hlooks : (gather l apps q).Looks Eq := gather_looks q l apps fun _ _ heq => heq ▸ .refl _ _
  have hsteady := hlooks.steady w hw
  rcases hrun : (gather l apps q).run w with ⟨e | r, w₁⟩
  · rw [hrun] at hsteady
    exact ⟨e, by rw [← hsteady]⟩
  · rw [hrun] at hsteady
    exact absurd ((run_gather_iff hw).1 ⟨r, by rw [hrun, ← hsteady]⟩) hnot

end Reportable

end NetIntent
