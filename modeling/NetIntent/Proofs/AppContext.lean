import NetIntent.Deployment
import NetIntent.Proofs.HandleKey
import NetIntent.Proofs.Operation

namespace NetIntent

/-!
# How contexts come and go

A context is stored node by node, its root first, and deleted at one stroke, provided that its root
is there.

* `ContextStore.Rooted` — the root of a context is stored and holds its id;
* `RootFault`, `RunContext.root_outcome` — it is found, or there is one of these reasons;
* `RunContext.load_of_valid`, `AppContext.load_of_invalid`, `fromId_answers` — what loading an id comes
  to, and the instance after it;
* `AppContext.delete_ensures` — a deletion takes all nodes of a context, or none;
* `ContextStore.sweep`, `deleteContexts_ensures` — several deletions, up to the first that fails;
* `ContextStore.Finished`, `AppContext.statusOf_reads` — the overall status, as the root has it;
* `finishedContexts_reads` — the contexts of a list of ids that still have a root, all of which have
  finished terminating.
-/

open Op

namespace ContextStore

/-- The root of the context is stored, and it holds the id. -/
def Rooted (s : ContextStore) (id : String) : Prop :=
  s.get? (Handle.root id).key = some (.value (.string id))

/-- The store without the contexts with these ids. -/
def sweep (s : ContextStore) (ids : List String) : ContextStore :=
  ids.foldl (fun s id => s.eraseScan (Handle.root id).key) s

/-- To sweep several contexts is to sweep the first of them, and then the others. -/
theorem sweep_cons (s : ContextStore) (id : String) (ids : List String) :
    s.sweep (id :: ids) = ContextStore.sweep (s.eraseScan (Handle.root id).key) ids := rfl

/-- What is swept away is what belongs to one of the contexts. -/
theorem get?_sweep (s : ContextStore) (ids : List String) (key : String) :
    (s.sweep ids).get? key
      = if ∃ id ∈ ids, Text.beginsWith (Handle.root id).key key = true then none
        else s.get? key := by
  induction ids generalizing s with
  | nil => simp [sweep]
  | cons id ids ih =>
    rw [sweep_cons, ih, OrderedMap.get?_eraseScan]
    by_cases hrest : ∃ id ∈ ids, Text.beginsWith (Handle.root id).key key = true
    · simp [hrest]
    · by_cases hid : Text.beginsWith (Handle.root id).key key = true <;> simp [hrest, hid]

/-- The overall status of a context, if there is one at its root that can be read. -/
def overallStatus? (s : ContextStore) (id : String) : Option ContextStatus :=
  match s.get? ((Handle.root id).leaf "status").key with
  | some (.value v) => ContextStatus.ofDocument? v
  | _ => none

/-- The termination of the context has come to its end, successfully or not. -/
def Finished (s : ContextStore) (id : String) : Prop :=
  ∃ status, s.overallStatus? id = some status ∧ status.isTerminal = true

end ContextStore

/-! ### Deleting -/

/-- Why the root of a context is not found. -/
inductive RootFault (s : ContextStore) (id : String) : Failure → Prop
  /-- The store fails. -/
  | store {e : Failure} (hstore : e.OfStore) : RootFault s id e
  /-- What is stored there is no value. -/
  | unreadable (hcell : s.get? (Handle.root id).key = some .unreadable) :
      RootFault s id (malformed (Handle.root id).key)
  /-- Nothing is stored there. -/
  | missing (hcell : s.get? (Handle.root id).key = none) :
      RootFault s id (.notFound "AppContext" id)
  /-- What is stored there is something else than the id. -/
  | foreign {v : Json} (hcell : s.get? (Handle.root id).key = some (.value v))
      (hother : v ≠ .string id) :
      RootFault s id (.invalidHandle (Handle.root id).key "root value does not match context id")

/-- A root that is not found is reported only if nothing is stored there. -/
theorem RootFault.of_notFound {s : ContextStore} {id entity name : String}
    (h : RootFault s id (.notFound entity name)) : s.get? (Handle.root id).key = none := by
  generalize he : Failure.notFound entity name = e at h
  cases h with
  | store hstore =>
    obtain ⟨method, details, rfl⟩ := hstore
    cases he
  | unreadable => cases he
  | missing hcell => exact hcell
  | foreign => cases he

namespace RunContext

/-- The root of a context is found as it is stored, or there is a reason. -/
theorem root_outcome (id : String) :
    (RunContext.root ⟨some id⟩).Answers fun w r =>
      (∀ h, r = .ok h → h = Handle.root id ∧ w.contexts.Rooted id) ∧
        ∀ e, r = .error e → RootFault w.contexts id e := by
  intro w hw
  show ((getNode (Handle.root id).key >>= _ : Op Handle)).Ensures w _
  refine (getNode_outcome (Handle.root id).key w hw).bind ?_ ?_
  · intro found w₁ hout
    obtain ⟨hquiet, hfound, -⟩ := hout
    have hstored := hfound found rfl
    cases found with
    | none =>
      refine ensures_throw ⟨hquiet, nofun, fun e he => ?_⟩
      exact Except.error.inj he ▸ .missing hstored
    | some v =>
      -- A root with another value is no root of this context, but it is there.
      show (if v = .string (Handle.root id).contextId then (pure (Handle.root id) : Op Handle)
        else throw _).Ensures w₁ _
      split
      · rename_i hv
        refine ensures_pure ⟨hquiet, fun h hh => ⟨(Except.ok.inj hh).symm, ?_⟩, nofun⟩
        rw [ContextStore.Rooted, hstored, hv]
        rfl
      · rename_i hv
        refine ensures_throw ⟨hquiet, nofun, fun e he => ?_⟩
        exact Except.error.inj he ▸ .foreign hstored hv
  · intro e w₁ hout
    obtain ⟨hquiet, -, hfails⟩ := hout
    refine ⟨hquiet, nofun, fun e' he => ?_⟩
    rw [← Except.error.inj he]
    rcases hfails e rfl with hstore | ⟨rfl, hcell⟩
    · exact .store hstore
    · exact .unreadable hcell

/-- That the root of a context is not there is said only if it is so. -/
theorem root_answers (id : String) :
    (RunContext.root ⟨some id⟩).Answers fun w r =>
      (∀ h, r = .ok h → h = Handle.root id ∧ w.contexts.Rooted id) ∧
        ∀ entity name, r = .error (.notFound entity name) →
          w.contexts.get? (Handle.root id).key = none := by
  intro w hw
  refine (root_outcome id w hw).mono fun r w' hout => ?_
  obtain ⟨hquiet, hroot, hfault⟩ := hout
  exact ⟨hquiet, hroot, fun entity name hr => (hfault _ hr).of_notFound⟩

section Load

variable {id : String} (c : RunContext)

/-- A valid id is taken on, and its root is looked for. -/
theorem load_of_valid (hvalid : isValidId id = true) :
    c.load id = (do
      let r ← (root ⟨some id⟩).attempt
      return (r, ⟨some id⟩) : Op (Except Failure Handle × RunContext)) :=
  if_pos hvalid

/-- An id that cannot stand in a key is refused, and the run context stays as it is. -/
theorem load_of_invalid (hinvalid : ¬ isValidId id = true) :
    c.load id = pure (.error (.invalidHandle id "not a valid context id"), c) :=
  if_neg hinvalid

end Load

/-- A root that is found is that of the id, and it holds the id. -/
theorem root_reads (id : String) :
    (RunContext.root ⟨some id⟩).Reads fun w h => h = Handle.root id ∧ w.contexts.Rooted id :=
  fun w hw => (root_answers id w hw).mono fun _ _ h => ⟨h.1, h.2.1⟩

end RunContext

namespace AppContext

/-- A context is deleted at one stroke. That it is not there is said only if it has no root. -/
theorem delete_ensures (id : String) {w : World} (hw : w.Faithful) :
    (AppContext.ofId id).delete.Ensures w fun r w' =>
      (∃ e, r = .error e ∧ w.Quiet w' ∧ ∀ entity name, e = .notFound entity name →
          w.contexts.get? (Handle.root id).key = none) ∨
        r = .ok () ∧ w.contexts.Rooted id ∧
          (w.withContexts (w.contexts.eraseScan (Handle.root id).key)).Quiet w' := by
  show ((RunContext.root ⟨some id⟩ >>= fun root =>
    RunContext.deletePrefix ⟨some id⟩ root >>= fun _ => pure () : Op Unit)).Ensures w _
  refine (RunContext.root_answers id w hw).bind ?_ ?_
  · intro root w₁ hout
    obtain ⟨hquiet, hroot, -⟩ := hout
    obtain ⟨rfl, hrooted⟩ := hroot root rfl
    have hw₁ := hquiet.faithful
    obtain ⟨faults₁, -, rfl⟩ := hquiet
    -- The root belongs to the context, so that the deletion is not refused.
    have hcheck : RunContext.check ⟨some id⟩ (Handle.root id) = .ok () := if_pos rfl
    unfold RunContext.deletePrefix
    rw [hcheck, of_ok_bind]
    refine (deleteNodes_ensures _ hw₁).bind ?_ ?_
    · intro n w₂ hout
      rcases hout with ⟨e, he, -⟩ | ⟨-, hquiet⟩
      · cases he
      · exact ensures_pure (.inr ⟨rfl, hrooted, hquiet⟩)
    · intro e w₂ hout
      rcases hout with ⟨e', he, ⟨method, details, rfl⟩, hquiet⟩ | ⟨he, -⟩
      · cases he
        exact .inl ⟨_, rfl, hquiet, nofun⟩
      · cases he
  · intro e w₁ hout
    obtain ⟨hquiet, -, hnone⟩ := hout
    exact .inl ⟨e, rfl, hquiet, fun entity name he => hnone entity name (he ▸ rfl)⟩

section Load

variable {id : String} (c : AppContext)

/-- A valid id is taken on, and its root is looked for. -/
theorem load_of_valid (hvalid : RunContext.isValidId id = true) :
    c.load id = (do
      let r ← (RunContext.root ⟨some id⟩).attempt
      return (r, ofId id) : Op (Except Failure Handle × AppContext)) := by
  have hne : id ≠ "" := (Handle.isValidId_iff.1 hvalid).1
  rw [load, if_neg hne, RunContext.load_of_valid c.nodes hvalid]
  rfl

/-- No id at all is refused, and the app context stays as it is. -/
theorem load_of_empty (hempty : id = "") :
    c.load id = pure (.error (.validation "context id" "must not be empty"), c) := by
  rw [load, if_pos hempty]

/-- An id that cannot be one is refused before the store is asked, and the app context stays as it
    is. -/
theorem load_of_invalid (hinvalid : ¬ RunContext.isValidId id = true) :
    ∃ e, (∀ entity name, e ≠ .notFound entity name) ∧ c.load id = pure (.error e, c) := by
  by_cases hempty : id = ""
  · refine ⟨_, ?_, load_of_empty c hempty⟩
    exact nofun
  · rw [load, if_neg hempty, RunContext.load_of_invalid c.nodes hinvalid]
    refine ⟨_, ?_, rfl⟩
    exact nofun

end Load

/-- Loading a context with a valid id is looking for its root. -/
theorem fromId_eq {id : String} (hid : RunContext.isValidId id = true) :
    AppContext.fromId id = (do
      let _ ← RunContext.root ⟨some id⟩
      return AppContext.ofId id : Op AppContext) := by
  rw [fromId, load_of_valid unbound hid]
  funext w
  show Op.run _ w = Op.run _ w
  rw [bind_assoc, run_bind, run_attempt, run_bind (RunContext.root ⟨some id⟩)]
  rcases (RunContext.root ⟨some id⟩).run w with ⟨_ | _, _⟩ <;> rfl

/-- A context with an id that cannot be one is not looked for. -/
theorem fromId_of_invalid {id : String} (hid : ¬ RunContext.isValidId id = true) :
    ∃ e, (∀ entity name, e ≠ .notFound entity name) ∧ AppContext.fromId id = throw e := by
  obtain ⟨e, he, hload⟩ := load_of_invalid unbound hid
  refine ⟨e, he, ?_⟩
  rw [fromId, hload]
  rfl

/-- A context is loaded just as its root is stored. -/
theorem fromId_answers (id : String) :
    (AppContext.fromId id).Answers fun w r =>
      (∀ c, r = .ok c → c = AppContext.ofId id ∧ w.contexts.Rooted id) ∧
        ∀ entity name, r = .error (.notFound entity name) →
          w.contexts.get? (Handle.root id).key = none := by
  intro w hw
  -- The id is checked first, and then the root is looked for.
  by_cases hvalid : RunContext.isValidId id = true
  · rw [fromId_eq hvalid]
    refine (RunContext.root_answers id w hw).bind ?_ ?_
    · intro h w₁ hout
      obtain ⟨hquiet, hroot, -⟩ := hout
      refine ensures_pure ⟨hquiet, fun c hc => ⟨(Except.ok.inj hc).symm, ?_⟩, nofun⟩
      exact (hroot h rfl).2
    · intro e w₁ hout
      obtain ⟨hquiet, -, hnone⟩ := hout
      exact ⟨hquiet, nofun, fun entity name he =>
        hnone entity name (congrArg Except.error (Except.error.inj he))⟩
  · obtain ⟨e, he, hfails⟩ := fromId_of_invalid hvalid
    rw [hfails]
    exact ensures_throw ⟨hw.quiet, nofun, fun entity name hmissing =>
      absurd (Except.error.inj hmissing) (he entity name)⟩

/-- A context that is loaded has a root, and the instance is at its id. -/
theorem fromId_reads (id : String) :
    (AppContext.fromId id).Reads fun w c => c = AppContext.ofId id ∧ w.contexts.Rooted id :=
  fun w hw => (fromId_answers id w hw).mono fun _ _ h => ⟨h.1, h.2.1⟩

end AppContext

/-! ### Reading the status -/

namespace RunContext

variable (c : RunContext) (h : Handle)

/-- To look whether a node is there changes nothing. -/
theorem nodeExists_readOnly : (c.nodeExists h).ReadOnly :=
  (readOnly_of _).bind fun _ => (getNode_reads _).readOnly.bind fun _ => readOnly_pure _

/-- The value of a node is what is stored there. -/
theorem rawValue_reads :
    (c.rawValue h).Reads fun w v => w.contexts.get? h.key = some (.value v) := by
  refine (readOnly_of _).step fun _ => (getNode_reads _).step fun found => ?_
  cases found with
  | none => exact reads_throw _
  | some v => exact reads_pure fun w hv _ => hv

/-- A value that is read is stored at the handle, and can be decoded. -/
theorem value_reads {α : Type} (read : Json → Option α) :
    (c.value read h).Reads fun w a =>
      ∃ v, w.contexts.get? h.key = some (.value v) ∧ read v = some a := by
  refine (c.rawValue_reads h).step fun raw => ?_
  cases hread : read raw with
  | none => exact reads_throw _
  | some a => exact reads_pure fun w hraw => ⟨raw, hraw, hread⟩

end RunContext

namespace AppContext

variable (c : AppContext)

/-- A handle that is found is the one that was looked for. -/
theorem existing_reads (h : Handle) (level : String) :
    (c.existing h level).Reads fun _ found => found = h := by
  refine (c.nodes.nodeExists_readOnly h).step fun found => ?_
  cases found with
  | false => exact reads_throw _
  | true => exact reads_pure fun _ _ => rfl

/-- The overall status that is read is the one that the context has. -/
theorem overallStatus_reads (id : String) : (ofId id).overallStatus.Reads fun w status =>
    w.contexts.overallStatus? id = some status := by
  have hleaf : ∀ h, ((ofId id).getLevelHandle h "status").Reads fun _ leaf =>
      leaf = h.leaf "status" := fun h =>
    (readOnly_of _).step fun _ => (existing_reads _ _ _).mono fun _ _ hleaf _ => hleaf
  refine (RunContext.root_reads id).step fun root => (hleaf root).step fun leaf =>
    (RunContext.value_reads _ leaf _).mono ?_
  intro w status hvalue hleaf hroot
  obtain ⟨v, hv, hread⟩ := hvalue
  rw [hleaf, hroot.1] at hv
  rw [ContextStore.overallStatus?, hv]
  exact hread

/-- The status of a context is the one that is stored at its root. -/
theorem statusOf_reads (id : String) :
    (statusOf id).Reads fun w status => w.contexts.overallStatus? id = some status := by
  intro w hw
  refine (fromId_reads id w hw).bind ?_ fun e w₁ hout => ⟨hout.1, nofun⟩
  intro c w₁ hout
  obtain ⟨hquiet, hc⟩ := hout
  obtain ⟨rfl, -⟩ := hc c rfl
  refine (overallStatus_reads id w₁ hquiet.faithful).mono fun r w₂ hout => ?_
  rw [← hquiet.calm]
  exact ⟨hquiet.trans hout.1, hout.2⟩

end AppContext

/-! ### Deleting several contexts -/

/-- Several contexts are deleted one after the other, up to the first that fails. -/
theorem deleteContexts_ensures (ids : List String) {w : World} (hw : w.Faithful) :
    (deleteContexts (ids.map AppContext.ofId)).Ensures w fun r w' => ∃ done rest,
      ids = done ++ rest ∧ (w.withContexts (w.contexts.sweep done)).Quiet w' ∧
        ((∃ e, r = .error e) ∨ r = .ok () ∧ rest = []) := by
  induction ids generalizing w with
  | nil => exact ensures_pure ⟨[], [], rfl, hw.quiet, .inr ⟨rfl, rfl⟩⟩
  | cons id ids ih =>
    show ((AppContext.ofId id).delete >>= fun _ =>
      deleteContexts (ids.map AppContext.ofId) : Op Unit).Ensures w _
    refine (AppContext.delete_ensures id hw).bind ?_ ?_
    · -- the first one is gone, and the induction takes care of the others
      intro u w₁ hout
      rcases hout with ⟨e, he, -⟩ | ⟨-, -, hquiet⟩
      · cases he
      have hw₁ := hquiet.faithful
      obtain ⟨faults₁, -, rfl⟩ := hquiet
      refine (ih hw₁).mono ?_
      intro r w' hout
      obtain ⟨done, rest, rfl, hquiet, hr⟩ := hout
      exact ⟨id :: done, rest, rfl, hquiet, hr⟩
    · intro e w₁ hout
      rcases hout with ⟨e', -, hquiet, -⟩ | ⟨he, -⟩
      · exact ⟨[], id :: ids, rfl, hquiet, .inl ⟨e, rfl⟩⟩
      · cases he

/-- The contexts of these ids that still have a root are found, or the operation fails. All of them
    have finished terminating. -/
theorem finishedContexts_reads (cluster : String) (ids : List String) :
    (finishedContexts cluster ids).Reads fun w found => ∃ live : List String,
      found = live.map AppContext.ofId ∧ live ⊆ ids ∧ (∀ id ∈ live, w.contexts.Finished id) ∧
        ∀ id ∈ ids, id ∉ live → w.contexts.get? (Handle.root id).key = none := by
  induction ids with
  | nil =>
    refine reads_pure fun w => ⟨[], rfl, List.Subset.refl _, nofun, ?_⟩
    intro id hid
    exact absurd hid List.not_mem_nil
  | cons id ids ih =>
    unfold finishedContexts
    refine (AppContext.fromId_answers id).attempt.step fun r => ?_
    split
    · -- the context is gone already
      rename_i entity name
      refine ih.mono ?_
      rintro w found ⟨live, rfl, hsub, hfinished, hgone⟩ ⟨-, hnone⟩
      refine ⟨live, rfl, fun x hx => List.mem_cons_of_mem _ (hsub hx), hfinished, ?_⟩
      intro x hx hnot
      rcases List.mem_cons.1 hx with rfl | hx
      · exact hnone entity name rfl
      · exact hgone x hx hnot
    · exact reads_throw _
    · -- the context is there, and its status has to be terminal
      rename_i c
      refine Reads.step (Answers.attempt (AppContext.statusOf_reads id)) fun r => ?_
      split
      · rename_i status
        split
        · rename_i hterminal
          refine ih.step fun more => reads_pure fun w => ?_
          rintro ⟨live, rfl, hsub, hfinished, hgone⟩ hstatus ⟨hfound, -⟩
          obtain ⟨rfl, -⟩ := hfound c rfl
          refine ⟨id :: live, rfl, List.cons_subset_cons _ hsub,
            List.forall_mem_cons.2 ⟨⟨status, hstatus status rfl, hterminal⟩, hfinished⟩, ?_⟩
          intro x hx hnot
          obtain ⟨hne, hnot⟩ := not_or.1 (mt List.mem_cons.2 hnot)
          exact hgone x ((List.mem_cons.1 hx).resolve_left hne) hnot
        · exact reads_throw _
      · split
        · exact reads_throw _
        · exact reads_throw _

end NetIntent
