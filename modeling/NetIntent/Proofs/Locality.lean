import NetIntent.Proofs.Areas
import NetIntent.Proofs.Progress

namespace NetIntent

/-!
# Each operation works in the area of its cluster

An operation on a cluster does the same in any two worlds that hold the same in the area of the
cluster, and changes nothing outside of it: its searches find no documents but those of the cluster
and its provider, and it touches no contexts but those of the cluster's ledger.

* `World.Waited`, `World.AnswersAlike` — what a request changes; worlds with the same answers;
* `Stores.Keeps` — the stores keep the area of a cluster in order;
* `createCluster_matches`, `deleteCluster_matches`, `Intent.create_matches`, `Intent.delete_matches`,
  `Deployment.status_matches`, `Deployment.terminate_matches`, `Deployment.apply_matches` — each
  operation does the same in both worlds, and works in the area only.
-/

open Op Registry Deployment

/-! ### Requests -/

/-- A request that waits up to a deadline ends between its begin and the deadline. -/
theorem Cancellation.outcome_time {c : Cancellation} {start : Nat} (h : ¬ c.precedes start = true)
    (waitMs : Nat) :
    start ≤ (c.outcome (start + waitMs)).1 ∧ (c.outcome (start + waitMs)).1 ≤ start + waitMs := by
  cases c with
  | never => exact ⟨Nat.le_add_right _ _, Nat.le_refl _⟩
  | atOnce => exact ⟨Nat.le_add_right _ _, Nat.le_refl _⟩
  | atTime time =>
    have hstart : start ≤ time := by simpa [precedes] using h
    rw [outcome]
    split
    · rename_i hearly
      exact ⟨hstart, Nat.le_of_lt hearly⟩
    · exact ⟨Nat.le_add_right _ _, Nat.le_refl _⟩

/-- No request waits for longer than its limit. -/
theorem Answer.within_le (answer : Answer) (limitMs : Nat) :
    (answer.within limitMs).1 ≤ limitMs := by
  cases answer with
  | after delayMs reply =>
    rw [within]
    split
    · assumption
    · exact Nat.le_refl _
  | never => exact Nat.le_refl _

namespace Synchronizer

variable (request : Request) (id : String) (limitMs start : Nat) (cancellation : Cancellation)

/-- The answer to a request depends on how the synchronizer answers at present. -/
theorem ask_answer {s s' : Synchronizer} (h : s.answer = s'.answer) :
    (s.ask request id limitMs start cancellation).1
      = (s'.ask request id limitMs start cancellation).1 := by
  have hbegun : (s.begin request id).answer = (s'.begin request id).answer := h
  unfold ask
  split
  · rfl
  · dsimp only
    rw [hbegun]
    split <;> rfl

/-- A request takes at most its time limit. -/
theorem ask_time (s : Synchronizer) :
    start ≤ (s.ask request id limitMs start cancellation).2.1 ∧
      (s.ask request id limitMs start cancellation).2.1 ≤ start + limitMs := by
  unfold ask
  split
  · exact ⟨Nat.le_refl _, Nat.le_add_right _ _⟩
  · rename_i hlate
    have hwait := (s.begin request id).answer.within_le limitMs
    dsimp only
    generalize (s.begin request id).answer.within limitMs = wait at hwait ⊢
    obtain ⟨waitMs, reply⟩ := wait
    have htime := Cancellation.outcome_time hlate waitMs
    have hlimit : start + waitMs ≤ start + limitMs := Nat.add_le_add_left hwait start
    generalize cancellation.outcome (start + waitMs) = ended at htime ⊢
    -- the time does not depend on whether it ends by cancellation, or with which reply
    rcases ended with ⟨time, _ | _⟩ <;> cases reply <;> exact ⟨htime.1, htime.2.trans hlimit⟩

end Synchronizer

section

variable {A : Area} {w w' w₁ : World} {p c : String} {ids : List String} {l : Ledger}

/-- Only the synchronizer is another one, and time has passed, but not more than a request may
    take. -/
def World.Waited (w w' : World) : Prop :=
  ∃ s time, w' = { w with synchronizer := s, elapsedMs := time } ∧
    s.isSome = w.synchronizer.isSome ∧ w.elapsedMs ≤ time ∧ time ≤ w.elapsedMs + w.limitMs

/-- A request leaves a world that is the same but for the synchronizer and the time. -/
theorem ask_waited (request : Request) (id : String) (cancellation : Cancellation) (w : World) :
    (ask request id cancellation).Ensures w fun _ w' => w.Waited w' := by
  cases hs : w.synchronizer with
  | none =>
    rw [Ensures, run_ask_of_none hs]
    exact ⟨w.synchronizer, w.elapsedMs, rfl, rfl, Nat.le_refl _, Nat.le_add_right _ _⟩
  | some s =>
    rw [Ensures, run_ask hs]
    exact ⟨_, _, rfl, by rw [hs]; rfl, Synchronizer.ask_time request id _ _ cancellation s⟩

/-- Requests are answered the same in both worlds. -/
def World.AnswersAlike (cancellation : Cancellation) (w w' : World) : Prop :=
  ∀ request id, ((ask request id cancellation).run w).1 = ((ask request id cancellation).run w').1

/-- Requests in one and the same world are answered alike. -/
theorem World.AnswersAlike.refl (cancellation : Cancellation) (w : World) :
    w.AnswersAlike cancellation w := fun _ _ => rfl

/-- A request for a context that was recorded just now is answered as it would have been before. -/
theorem ask_recording (request : Request) (id : String) (cancellation : Cancellation) (w : World)
    (p c : String) (l : Ledger) (resources : List Rendered) :
    ((ask request id cancellation).run (w.recording p c l resources)).1
      = ((ask request id cancellation).run w).1 := by
  cases hs : w.synchronizer with
  | none => rw [run_ask_of_none hs, run_ask_of_none (w := w.recording p c l resources) hs]
  | some s =>
    rw [run_ask hs, run_ask (w := w.recording p c l resources) hs]
    rfl

/-- Waiting for an answer changes nothing in any area. -/
theorem World.Waited.within (h : w.Waited w₁) (A : Area) : w.Within A 0 w₁ := by
  obtain ⟨s, time, rfl, hsome, htime⟩ := h
  exact ⟨.refl A _, rfl, rfl, hsome, htime⟩

/-! ### Worlds that are alike in the area of a cluster -/

namespace World.Alike

/-- The provider is found in both worlds, or in none. -/
theorem found_providerKey (hw : World.Alike A w w') (hp : p ≠ "") (tag : String) :
    FoundAlike (fun v v' => v = w ∧ v' = w') (providerKey p) tag := by
  rintro _ _ ⟨rfl, rfl⟩
  exact hw.stores.find fun key hkey => .inr ⟨p, (providerKey_exact hp).covers_iff.1 hkey⟩

/-- The same documents of the cluster are found in both worlds. -/
theorem found (hw : World.Alike A w w') {pattern : DocumentKey} (hpattern : A.HasKey pattern)
    (hp : A.provider ≠ "") (hc : A.cluster ≠ "") (tag : String) :
    FoundAlike (fun v v' => v = w ∧ v' = w') pattern tag := by
  rintro _ _ ⟨rfl, rfl⟩
  exact hw.stores.find fun key hkey => .inl (hpattern.of_covers hp hc hkey)

/-- The check of a cluster depends on its area and on the providers only. -/
theorem checkCluster_looks (hw : World.Alike ⟨p, c, ids⟩ w w') (operation : ClusterOperation) :
    (checkCluster p c operation).Looks fun v v' => v = w ∧ v' = w' :=
  NetIntent.checkCluster_looks operation fun hp hc =>
    hw.found (Area.hasKey_clusterKey ⟨p, c, ids⟩) hp hc ledgerTag

end World.Alike

/-- The ids of the contexts in the ledger of a cluster. -/
def DocumentStore.recorded (d : DocumentStore) (p c : String) : List String :=
  (d.ledger? p c).elim [] Ledger.ids

/-- The recorded ids of a cluster are those of its ledger. -/
theorem DocumentStore.mem_recorded_iff {d : DocumentStore} {id : String} :
    id ∈ d.recorded p c ↔ ∃ l, d.ledger? p c = some l ∧ id ∈ l.ids := by
  rw [recorded]
  cases d.ledger? p c <;> simp

/-- The stores keep the area of a cluster in order. A cluster with a ledger has a proper name, the
    contexts of the ledger are those of the area, and they are gone unless one is running. -/
structure Stores.Keeps (s : Stores) (A : Area) : Prop where
  tidy : s.documents.Tidy
  named : ∀ l, s.documents.ledger? A.provider A.cluster = some l →
    Metadata.IsName A.provider ∧ Metadata.IsName A.cluster
  ids : ∀ l, s.documents.ledger? A.provider A.cluster = some l → ∀ id ∈ l.ids, id ∈ A.ids
  last : ∀ l, s.documents.ledger? A.provider A.cluster = some l →
    l.current = .ok .created ∧ l.lastId = "" ∨ l.lastId ∈ l.ids
  gone : ∀ l, s.documents.ledger? A.provider A.cluster = some l → l.current ≠ .ok .applied →
    ∀ id ∈ l.ids, RunContext.isValidId id = true ∧ s.contexts.Vacant id

/-- The last context of an applied cluster is one of the area. -/
theorem Stores.Keeps.lastId_mem {s : Stores} (h : s.Keeps A)
    (hl : s.documents.ledger? A.provider A.cluster = some l) (hcurrent : l.current = .ok .applied) :
    l.lastId ∈ A.ids := by
  rcases h.last l hl with ⟨hcreated, -⟩ | hlast
  · exact absurd (hcreated.symm.trans hcurrent) (by simp)
  · exact h.ids l hl _ hlast

/-- While it is reported what runs on the clusters, the area of each of them is in order. -/
theorem Stores.Reporting.keeps {s : Stores} {written : Written} (hs : s.Reporting written)
    (hids : ValidIds s.contextId)
    (hledger : ∀ l, s.documents.ledger? A.provider A.cluster = some l → ∀ id ∈ l.ids, id ∈ A.ids) :
    s.Keeps A where
  tidy := hs.tidy
  named := by
    intro l hl
    obtain ⟨cluster, hcluster⟩ := hs.chronicled.sound.cluster? hl
    obtain ⟨hp, hc, -⟩ := hs.registered _ _ cluster hcluster
    exact ⟨hp, hc⟩
  ids := hledger
  last := by
    intro l hl
    obtain ⟨finished, running, hlife⟩ := hs.chronicled.life _ _ l hl
    rcases hlife.current_cases with hcreated | ⟨-, hlast⟩
    · exact .inl hcreated
    · exact .inr ((hs.chronicled.mem_ids_iff hids.ne_empty hl).2 hlast)
  gone := fun _ hl hidle => hs.vacant_of_idle hids hl hidle

/-! ### The cluster itself -/

/-- Creating a cluster depends on its area and on its provider, and changes nothing else. -/
theorem createCluster_matches (cluster : Cluster) (content : ClusterContent)
    (hw : World.Alike ⟨p, cluster.metadata.name, ids⟩ w w') :
    (createCluster p cluster content).Matches ⟨p, cluster.metadata.name, ids⟩ 0 w w' := by
  have hkey := Area.hasKey_clusterKey ⟨p, cluster.metadata.name, ids⟩
  have hlooks : (vetCluster p cluster).Looks fun v v' => v = w ∧ v' = w' :=
    vetCluster_looks p cluster (fun hp => hw.found_providerKey hp _) fun hp hc => hw.found hkey hp hc _
  rw [createCluster_eq]
  refine hlooks.bind_matches hw fun _ _ => ?_
  refine matches_of_runs (run_fillCluster p cluster content hw.undisturbed)
    (hw.now ▸ run_fillCluster p cluster content hw.undisturbed') ?_ ?_ ?_
  · exact ((hw.stores.insert _ _ _).insert _ _ _).insert _ _ _
  · exact World.within_withDocuments
      ((((Stores.Within.refl _ _).insert hkey _ _).insert hkey _ _).insert hkey _ _)
  · exact World.within_withDocuments
      ((((Stores.Within.refl _ _).insert hkey _ _).insert hkey _ _).insert hkey _ _)

/-- A document of the area is removed from both worlds. -/
theorem remove_matches (hw : World.Alike A w w') {key : DocumentKey} (hkey : A.HasKey key) :
    (Registry.remove key).Matches A 0 w w' :=
  matches_of_runs (run_remove hw.undisturbed _) (run_remove hw.undisturbed' _) (hw.stores.remove _)
    (World.within_withDocuments ((Stores.Within.refl _ _).remove hkey))
    (World.within_withDocuments ((Stores.Within.refl _ _).remove hkey))

/-- Deleting a cluster depends on its area, and changes nothing else. -/
theorem deleteCluster_matches (hw : World.Alike ⟨p, c, ids⟩ w w')
    (hkeeps : w.stores.Keeps ⟨p, c, ids⟩) : (deleteCluster p c).Matches ⟨p, c, ids⟩ 0 w w' := by
  have hkey := Area.hasKey_clusterKey ⟨p, c, ids⟩
  have hlooks : (leftovers p c).Looks fun v v' => v = w ∧ v' = w' := by
    refine leftovers_looks (fun hp hc => hw.found hkey hp hc _) ?_
    rintro _ _ l ⟨rfl, rfl⟩ hl id hid
    exact hw.stores.agree (hkeeps.ids l (hl hw.stores.filed) id hid)
  rw [deleteCluster_eq]
  refine hlooks.matches hw fun found hrun _ => ?_
  rw [← deleteCluster_eq]
  -- The contexts of the ledger are gone in both worlds, and what is left to delete is the cluster.
  obtain ⟨l, live, -, hleftovers⟩ := (leftovers_reads p c).of_run hw.undisturbed hrun
  have hl := hleftovers.ledger hw.stores.filed
  have hl' : w'.documents.ledger? p c = some l := hw.stores.ledger?.symm.trans hl
  have hgone := hkeeps.gone l hl hleftovers.notApplied
  have hgone' : ∀ id ∈ l.ids, RunContext.isValidId id = true ∧ w'.contexts.Vacant id := by
    intro id hid
    exact ⟨(hgone id hid).1, (hw.stores.agree (hkeeps.ids l hl id hid)).vacant (hgone id hid).2⟩
  refine (remove_matches hw hkey).congr ?_ ?_
  · rw [run_remove hw.undisturbed]
    exact run_deleteCluster_of_vacant hw.undisturbed hw.stores.filed hleftovers.provider_ne
      hleftovers.cluster_ne hl hleftovers.idle hgone
  · rw [run_remove hw.undisturbed']
    exact run_deleteCluster_of_vacant hw.undisturbed' hw.stores.filed' hleftovers.provider_ne
      hleftovers.cluster_ne hl' hleftovers.idle hgone'

/-! ### Intents -/

namespace Intent

variable {α : Type} [Intent α] [LawfulIntent α]

/-- Creating an intent depends on the area of its cluster, and changes nothing else. -/
theorem create_matches (i : α) (mayExist : Bool) (hw : World.Alike ⟨p, c, ids⟩ w w') :
    (Intent.create i p c mayExist).Matches ⟨p, c, ids⟩ 0 w w' := by
  have hkey := Area.hasKey_key (α := α) ⟨p, c, ids⟩
  have hput : (do
      Registry.put (Intent.key α p c (Intent.name i)) (Intent.tag α) (Intent.toJson i)
      return i : Op α).Matches ⟨p, c, ids⟩ 0 w w' :=
    matches_of_runs (run_bind_ok (run_put hw.undisturbed _ _ _))
      (run_bind_ok (run_put hw.undisturbed' _ _ _)) (hw.stores.insert _ _ _)
      (World.within_withDocuments ((Stores.Within.refl _ _).insert (hkey _) _ _))
      (World.within_withDocuments ((Stores.Within.refl _ _).insert (hkey _) _ _))
  -- Both runs make the same checks, and then put the same value at a key of the area.
  unfold Intent.create
  refine (looks_of _).bind_matches hw fun _ _ => ?_
  refine (hw.checkCluster_looks .createIntent).bind_matches hw fun found hrun => ?_
  obtain ⟨hp, hc, -⟩ := (checkCluster_reads p c .createIntent).of_run hw.undisturbed hrun
  cases mayExist with
  | true => exact hput
  | false =>
    refine (Registry.findOne_looks _ (hw.found (hkey _) hp hc _)).bind_matches hw fun old _ => ?_
    cases old with
    | none => exact hput
    | some old => exact matches_of_looks hw rfl rfl

/-- Deleting an intent depends on the area of its cluster, and changes nothing else. -/
theorem delete_matches (n : String) (hw : World.Alike ⟨p, c, ids⟩ w w') :
    (Intent.delete α n p c).Matches ⟨p, c, ids⟩ 0 w w' := by
  have hkey := Area.hasKey_key (α := α) ⟨p, c, ids⟩ n
  unfold Intent.delete
  refine (hw.checkCluster_looks .deleteIntent).bind_matches hw fun found hrun => ?_
  obtain ⟨hp, hc, -⟩ := (checkCluster_reads p c .deleteIntent).of_run hw.undisturbed hrun
  exact (Intent.get_looks (hw.found hkey hp hc _)).bind_matches hw fun _ _ => remove_matches hw hkey

end Intent

namespace Deployment

/-! ### Reports -/

/-- The status of a cluster depends on its area. -/
theorem status_matches {q : StatusQuery} (hq : q.contextId = "")
    (hw : World.Alike ⟨p, c, ids⟩ w w') (hkeeps : w.stores.Keeps ⟨p, c, ids⟩) :
    (status p c q).Matches ⟨p, c, ids⟩ 0 w w' := by
  have hlooks : (status p c q).Looks fun v v' => v = w ∧ v' = w' := by
    refine status_looks q (fun hp hc => hw.found (Area.hasKey_clusterKey ⟨p, c, ids⟩) hp hc _) ?_
    rintro _ _ l ⟨rfl, rfl⟩ hl hnamed
    have hl := hl hw.stores.filed
    rw [if_pos hq]
    rcases hkeeps.last l hl with ⟨-, hlast⟩ | hlast
    · exact absurd ⟨hq, hlast⟩ hnamed
    · exact hw.stores.agree (hkeeps.ids l hl _ hlast)
  obtain ⟨r, hrun, hrun'⟩ := hlooks.same w w' hw.undisturbed hw.undisturbed' ⟨rfl, rfl⟩
  exact matches_of_looks hw hrun hrun'

/-! ### Terminating -/

/-- What is recorded and deleted at the end of terminating is within the area. -/
theorem within_concluding (hwaited : w.Waited w₁) (hid : l.lastId ∈ ids) :
    w.Within ⟨p, c, ids⟩ 0 (w₁.concluding p c l) := by
  obtain ⟨s, time, rfl, hsome, htime⟩ := hwaited
  refine ⟨?_, rfl, rfl, hsome, htime⟩
  refine ((Stores.Within.refl _ _).insert (Area.hasKey_clusterKey ⟨p, c, ids⟩) _ _).withContexts hid ?_
  intro key hkey
  exact (OrderedMap.get?_eraseScan _ _ _).trans (if_neg hkey)

/-- The same is recorded and deleted in worlds that are alike. -/
theorem alike_concluding (hw : World.Alike ⟨p, c, ids⟩ w w') {w₁' : World} (hwaited : w.Waited w₁)
    (hwaited' : w'.Waited w₁') (l : Ledger) :
    (w₁.concluding p c l).stores.Alike ⟨p, c, ids⟩ (w₁'.concluding p c l).stores := by
  obtain ⟨s, time, rfl, -⟩ := hwaited
  obtain ⟨s', time', rfl, -⟩ := hwaited'
  have hnow : w.now = w'.now := hw.now
  have herased : ∀ key, w.contexts.get? key = w'.contexts.get? key →
      OrderedMap.get? (w.contexts.eraseScan (Handle.root l.lastId).key) key
        = OrderedMap.get? (w'.contexts.eraseScan (Handle.root l.lastId).key) key := by
    intro key hkey
    rw [OrderedMap.get?_eraseScan, OrderedMap.get?_eraseScan, hkey]
  have hinserted := hw.stores.insert (clusterKey p c) ledgerTag
    (l.append .terminated l.lastId w.now).toJson
  simp only [World.concluding]
  rw [← hnow]
  exact hinserted.withContexts herased

/-- Terminating depends on the area of the cluster and on the answer to the request. -/
theorem terminate_matches (cancellation : Cancellation) (hw : World.Alike ⟨p, c, ids⟩ w w')
    (hkeeps : w.stores.Keeps ⟨p, c, ids⟩) (hanswers : w.AnswersAlike cancellation w') :
    (terminate p c cancellation).Matches ⟨p, c, ids⟩ 0 w w' := by
  -- Both runs find the same ledger and the same context.
  have hlooks : (retrieve p c).Looks fun v v' => v = w ∧ v' = w' := by
    refine retrieve_looks (fun hp hc => hw.found (Area.hasKey_clusterKey ⟨p, c, ids⟩) hp hc _) ?_ ?_
    · rintro _ _ ⟨rfl, rfl⟩
      exact hw.synchronizer
    · rintro _ _ l ⟨rfl, rfl⟩ hl hcurrent
      exact hw.stores.agree (hkeeps.lastId_mem (hl hw.stores.filed) hcurrent)
  rw [terminate_eq]
  refine hlooks.matches hw fun found hrun hrun' => ?_
  rw [← terminate_eq]
  obtain ⟨l, context⟩ := found
  obtain ⟨hl, hcurrent, hcontext, -⟩ := (retrieve_reads p c).of_run hw.undisturbed hrun
  obtain rfl : context = AppContext.ofId l.lastId := hcontext
  have hid : l.lastId ∈ ids := hkeeps.lastId_mem (hl hw.stores.filed) hcurrent
  have hterminated := run_terminate hw.undisturbed hw.stores.filed hrun cancellation
  have hterminated' := run_terminate hw.undisturbed' hw.stores.filed' hrun' cancellation
  -- The request has the same answer in both runs, however long it takes.
  have hwaited := ask_waited .uninstall l.lastId cancellation w
  have hwaited' := ask_waited .uninstall l.lastId cancellation w'
  have hanswer := hanswers .uninstall l.lastId
  rw [Ensures] at hwaited hwaited'
  rcases hask : (ask .uninstall l.lastId cancellation).run w with ⟨r, w₁⟩
  rcases hask' : (ask .uninstall l.lastId cancellation).run w' with ⟨r', w₁'⟩
  rw [hask] at hterminated hwaited hanswer
  rw [hask'] at hterminated' hwaited' hanswer
  obtain rfl : r = r' := hanswer
  cases r with
  | error e =>
    refine matches_of_runs hterminated hterminated' ?_ (hwaited.within _) (hwaited'.within _)
    obtain ⟨s, time, rfl, -⟩ := hwaited
    obtain ⟨s', time', rfl, -⟩ := hwaited'
    exact hw.stores
  | ok u =>
    exact matches_of_runs hterminated hterminated' (alike_concluding hw hwaited hwaited' l)
      (within_concluding hwaited hid) (within_concluding hwaited' hid)

/-! ### Applying -/

/-- How many ids applying takes from the supply: one, if it comes to building a context. -/
def taken (p c : String) (w : World) : Nat :=
  match ((survey p c).run w).1 with
  | .ok _ => 1
  | .error _ => 0

/-- An id is taken if the documents of the cluster can be read. -/
theorem exists_survey (hw : w.Undisturbed) (h : taken p c w ≠ 0) :
    ∃ l resources, (survey p c).run w = (.ok (l, resources), w) := by
  have hsteady : (survey p c).Steady := (survey_looks (fun _ _ => foundAlike_eq _ _)
    (fun _ _ h => h ▸ rfl) (fun _ _ => foundAlike_eq _ _) fun _ _ => foundAlike_eq _ _).steady
  have hstays := hsteady w hw
  rcases hrun : (survey p c).run w with ⟨r, w₁⟩
  rw [hrun] at hstays
  obtain rfl : w₁ = w := hstays
  cases r with
  | error e => exact absurd (by rw [taken, hrun]) h
  | ok found => exact ⟨found.1, found.2, rfl⟩

/-- The names of surveyed resources can stand in a key. -/
theorem Surveyed.sound_resources {d : DocumentStore} {resources : List Rendered}
    (h : Surveyed d p c l resources) (hfiled : d.Filed) (htidy : d.Tidy) :
    ∀ r ∈ resources, (Segment.level "resource" r.name).Sound := by
  obtain ⟨networks, providerNetworks, hnetworks, hproviderNetworks, rfl⟩ := h.intents
  have hdeclared := DocumentStore.declares_of_find hfiled htidy .network h.provider_ne h.cluster_ne
    hnetworks
  have hproviderDeclared := DocumentStore.declares_of_find hfiled htidy .providerNetwork
    h.provider_ne h.cluster_ne hproviderNetworks
  intro r hr
  rcases List.mem_append.1 hr with hr | hr
  · exact hdeclared.sound_resource htidy .network hr
  · exact hproviderDeclared.sound_resource htidy .providerNetwork hr

/-- What applying records is within the area, if the id that it takes is. -/
theorem within_recording {s : Stores} (hid : s.nextId ∈ ids) (l : Ledger) (resources : List Rendered)
    (time : Timestamp) : s.Within ⟨p, c, ids⟩ (s.recording p c l resources time) := by
  have hbuilt : ∀ key, ¬ Text.beginsWith (Handle.root s.nextId).key key = true →
      (s.contexts.built s.nextId (contextClusterName p c) resources).get? key
        = s.contexts.get? key := fun key hkey => ContextStore.get?_built_of_foreign _ hkey
  have hwithin := ((Stores.Within.refl _ s).insert (Area.hasKey_clusterKey ⟨p, c, ids⟩) ledgerTag
    (l.append .applied s.nextId time).toJson).withContexts hid hbuilt
  exact ⟨hwithin.documents, hwithin.contexts⟩

/-- Recording a context and asking for its install changes nothing outside of the area. -/
theorem within_asked {resources : List Rendered} (hid : w.stores.nextId ∈ ids)
    (hwaited : (w.recording p c l resources).Waited w₁) : w.Within ⟨p, c, ids⟩ 1 w₁ := by
  obtain ⟨s, time, rfl, hsome, htime⟩ := hwaited
  exact ⟨within_recording hid l resources w.now, rfl, rfl, hsome, htime⟩

/-- The same is recorded in stores that are alike, if both take the same id. -/
theorem alike_recording {s s' : Stores} (h : s.Alike ⟨p, c, ids⟩ s') (hnext : s.nextId = s'.nextId)
    (l : Ledger) (resources : List Rendered) (time : Timestamp) :
    (s.recording p c l resources time).Alike ⟨p, c, ids⟩ (s'.recording p c l resources time) := by
  have halike := (h.insert (clusterKey p c) ledgerTag
    (l.append .applied s.nextId time).toJson).withContexts fun key hkey =>
      ContextStore.get?_built_congr hkey s.nextId (contextClusterName p c) resources
  rw [Stores.recording, Stores.recording, ← hnext]
  exact ⟨halike.filed, halike.filed', halike.providers, halike.documents, halike.contexts⟩

/-- Applying to a cluster whose documents can be read is to build and record a context, and to ask
    for it. -/
theorem run_apply_of_surveyed {resources : List Rendered} (hw : w.Undisturbed)
    (hfiled : w.documents.Filed) (hnamed : Metadata.IsName p ∧ Metadata.IsName c)
    (hsurvey : (survey p c).run w = (.ok (l, resources), w))
    (hsound : ∀ r ∈ resources, (Segment.level "resource" r.name).Sound)
    (cancellation : Cancellation) :
    (apply p c cancellation).run w
      = ((((ask .install w.stores.nextId cancellation).run w).1.map fun _ => w.stores.nextId),
          ((ask .install w.stores.nextId cancellation).run (w.recording p c l resources)).2) := by
  have hsurveyed := (survey_reads p c).of_run hw hsurvey
  have hcluster : (Segment.level "cluster" (contextClusterName p c)).Sound :=
    Segment.sound_joined (by decide) hnamed.1.2.2 hnamed.2.2.2
  have hcommit := run_commit hw hfiled hnamed.1.1 hnamed.2.1 (hsurveyed.ledger hfiled) hsurvey
    (Handle.validateName_eq_ok_iff.2 hcluster.2)
    fun r hr => Handle.validateName_eq_ok_iff.2 (hsound r hr).2
  rw [run_apply hcommit, ask_recording]
  rfl

/-- The id that applying takes is recorded. -/
theorem nextId_mem_recorded (cancellation : Cancellation) (hw : w.Undisturbed)
    (hsound : w.documents.Sound) (hnow : w.now.IsValid) (hkeeps : w.stores.Keeps ⟨p, c, ids⟩)
    (hne : w.stores.nextId ≠ "") (htaken : taken p c w ≠ 0) :
    w.stores.nextId ∈ ((apply p c cancellation).run w).2.documents.recorded p c := by
  obtain ⟨l, resources, hsurvey⟩ := exists_survey hw htaken
  have hsurveyed := (survey_reads p c).of_run hw hsurvey
  have hl := hsurveyed.ledger hsound.filed
  have htimely := (hsound.timely hl).append .applied w.stores.nextId hnow
  have hresources := hsurveyed.sound_resources hsound.filed hkeeps.tidy
  have hledger : ((apply p c cancellation).run w).2.documents.ledger? p c
      = some (l.append .applied w.stores.nextId w.now) := by
    obtain ⟨hstores, -⟩ := ask_ensures .install w.stores.nextId cancellation
      (w := w.recording p c l resources)
    rw [run_apply_of_surveyed hw hsound.filed (hkeeps.named l hl) hsurvey hresources cancellation]
    rw [← World.stores_documents, hstores]
    exact (DocumentStore.ledger?_withLedger htimely).trans (if_pos ⟨rfl, rfl⟩)
  exact DocumentStore.mem_recorded_iff.2 ⟨_, hledger, Ledger.mem_ids_iff.2 ⟨hne, by simp⟩⟩

/-- Applying depends on the area of the cluster, on the answer to the request, and on the next id if
    it takes one. -/
theorem apply_matches (cancellation : Cancellation) (hw : World.Alike ⟨p, c, ids⟩ w w')
    (hkeeps : w.stores.Keeps ⟨p, c, ids⟩) (hanswers : w.AnswersAlike cancellation w')
    (hnext : taken p c w ≠ 0 → w.stores.nextId = w'.stores.nextId ∧ w.stores.nextId ∈ ids) :
    (apply p c cancellation).Matches ⟨p, c, ids⟩ (taken p c w) w w' := by
  have hkey := Area.hasKey_clusterKey ⟨p, c, ids⟩
  have hlooks : (survey p c).Looks fun v v' => v = w ∧ v' = w' := by
    refine survey_looks (fun hp hc => hw.found hkey hp hc _) ?_
      (fun hp hc => hw.found (Area.hasKey_key ⟨p, c, ids⟩ _) hp hc _)
      fun hp hc => hw.found (Area.hasKey_key ⟨p, c, ids⟩ _) hp hc _
    rintro _ _ ⟨rfl, rfl⟩
    exact hw.synchronizer
  obtain ⟨r, hrun, hrun'⟩ := hlooks.same w w' hw.undisturbed hw.undisturbed' ⟨rfl, rfl⟩
  cases r with
  | error e =>
    -- nothing is built, and no id is taken
    have hrefused : ∀ {v : World}, (survey p c).run v = (.error e, v) →
        (apply p c cancellation).run v = (.error e, v) := by
      intro v hv
      rw [apply, commit_eq, run_bind_error (run_bind_error hv)]
    rw [taken, hrun]
    exact matches_of_looks hw (hrefused hrun) (hrefused hrun')
  | ok found =>
    obtain ⟨l, resources⟩ := found
    have htaken : taken p c w = 1 := by rw [taken, hrun]
    obtain ⟨hsame, hid⟩ := hnext (htaken ▸ Nat.one_ne_zero)
    have hsurveyed := (survey_reads p c).of_run hw.undisturbed hrun
    have hnamed := hkeeps.named l (hsurveyed.ledger hw.stores.filed)
    have hsound := hsurveyed.sound_resources hw.stores.filed hkeeps.tidy
    have happlied := run_apply_of_surveyed hw.undisturbed hw.stores.filed hnamed hrun hsound
      cancellation
    have happlied' := run_apply_of_surveyed hw.undisturbed' hw.stores.filed' hnamed hrun' hsound
      cancellation
    rw [← hsame, ← hanswers] at happlied'
    rw [htaken]
    refine matches_of_runs happlied happlied' ?_ ?_ ?_
    · -- the request changes nothing in the stores
      obtain ⟨hstores, -⟩ := ask_ensures .install w.stores.nextId cancellation
        (w := w.recording p c l resources)
      obtain ⟨hstores', -⟩ := ask_ensures .install w.stores.nextId cancellation
        (w := w'.recording p c l resources)
      rw [hstores, hstores', World.stores_recording, World.stores_recording, ← hw.now]
      exact alike_recording hw.stores hsame l resources w.now
    · exact within_asked hid (ask_waited .install _ cancellation _)
    · exact within_asked (hsame ▸ hid) (ask_waited .install _ cancellation _)

end Deployment

end

end NetIntent
