import NetIntent.Proofs.Additions

namespace NetIntent

/-!
# How an instance comes to its context

An instance takes a fresh id, or loads the id of a context that is there. A load binds the instance
first and looks for the root then. So if it fails for another reason than the id, the instance is
left at a context that is perhaps not there, and whatever it does next is about that one.

* `LoadFault` — why a load fails;
* `RunContext.KeptIff` — when an attempt to load leaves an instance as it was;
* `RunContext.Loaded`, `load_loads`, `AppContext.load_loads` — the outcome of a load: what it
  answers, and the instance after it;
* `Attempt`, `RunContext.bound_earned_iff` — an instance that comes to ids time and again, and
  whether it is always at one that it was given or has found;
* `RunContext.failed_load_keeps_iff` — when a failed load changes nothing;
* `RunContext.failed_load_moves` — a load that fails and does change something.
-/

open Op

/-- Why an id cannot be loaded. -/
inductive LoadFault (s : ContextStore) (id : String) : Failure → Prop
  /-- There is no id at all. -/
  | empty (hempty : id = "") : LoadFault s id (.validation "context id" "must not be empty")
  /-- The id cannot stand in a key. -/
  | invalid (hinvalid : ¬ RunContext.isValidId id = true) :
      LoadFault s id (.invalidHandle id "not a valid context id")
  /-- The root is not found. -/
  | root {e : Failure} (hvalid : RunContext.isValidId id = true) (hfault : RootFault s id e) :
      LoadFault s id e

namespace RunContext

variable {c : RunContext} {id : String}

/-! ### What an instance shows of its id -/

/-- The instance takes a fresh id. -/
def CanInit (c : RunContext) (w : World) : Prop := ∃ c', (c.init.run w).1 = .ok c'

/-- Just an instance that is not bound takes a fresh id. -/
theorem canInit_iff {w : World} : c.CanInit w ↔ c.id? = none := by
  unfold CanInit init
  cases c.id? with
  | none => exact iff_of_true ⟨_, rfl⟩ rfl
  | some id => exact iff_of_false (by rintro ⟨c', hc'⟩; cases hc') nofun

/-- When an instance is as it was before it tried to load an id: by its own id, by the handles that it
    accepts and refuses, and by whether it takes a fresh id. -/
structure KeptIff (c c' : RunContext) (id : String) : Prop where
  id_iff : c'.id? = c.id? ↔ ¬ isValidId id = true ∨ c.id? = some id
  accepted_iff : (∀ h, c.check h = .ok () → c'.check h = .ok ()) ↔
    ¬ isValidId id = true ∨ c.id? = some id ∨ c.id? = none
  refused_iff : (∀ h, c.check h ≠ .ok () → c'.check h ≠ .ok ()) ↔
    ¬ isValidId id = true ∨ c.id? = some id
  inits_iff : (∀ w, c'.CanInit w ↔ c.CanInit w) ↔ ¬ isValidId id = true ∨ c.id? ≠ none

/-- An instance that is bound to a valid id keeps no more than this, whatever it was bound to. -/
theorem keptIff_of_valid (c : RunContext) (hvalid : isValidId id = true) :
    c.KeptIff ⟨some id⟩ id where
  id_iff := by rw [eq_comm, or_iff_right (not_not.2 hvalid)]
  accepted_iff := by
    simp only [check_eq_ok_iff, Option.some.injEq, hvalid, not_true, false_or]
    constructor
    · -- the root of the id that the instance had is accepted as long as it is the same id
      intro hall
      cases hid : c.id? with
      | none => exact .inr rfl
      | some old => exact .inl (congrArg some (hall (Handle.root old) hid).symm)
    · rintro (hid | hid) h hh
      · exact Option.some.inj (hid.symm.trans hh)
      · cases hid.symm.trans hh
  refused_iff := by
    simp only [ne_eq, check_eq_ok_iff, Option.some.injEq, hvalid, not_true, false_or]
    constructor
    · -- the root of the new id is accepted now
      intro hall
      by_contra hid
      exact hall (Handle.root id) hid rfl
    · rintro hid h hh rfl
      exact hh hid
  inits_iff := by
    simp only [canInit_iff, hvalid, not_true, false_or]
    constructor
    · intro hall hnone
      exact nomatch (hall { contextId := fun _ => "" }).2 hnone
    · intro hsome w
      exact iff_of_false nofun hsome

/-- An instance that stays as it is keeps everything; so it is where the id is not valid. -/
theorem keptIff_of_invalid (c : RunContext) (hinvalid : ¬ isValidId id = true) :
    c.KeptIff c id where
  id_iff := iff_of_true rfl (.inl hinvalid)
  accepted_iff := iff_of_true (fun _ hh => hh) (.inl hinvalid)
  refused_iff := iff_of_true (fun _ hh => hh) (.inl hinvalid)
  inits_iff := iff_of_true (fun _ => Iff.rfl) (.inl hinvalid)

/-! ### Loading -/

/-- What a load of the id comes to where the store holds what it holds: the first instance loads it,
    the second one is left, and the answer is a root or a failure. -/
structure Loaded (c c' : RunContext) (s : ContextStore) (id : String)
    (r : Except Failure Handle) : Prop where
  /-- A load that succeeds binds the instance, and answers a root that holds the id. -/
  bound : ∀ h, r = .ok h → isValidId id = true ∧ c'.id? = some id ∧ h = Handle.root id ∧
    s.get? h.key = some (.value (.string id))
  /-- A load that fails has its reason. -/
  fault : ∀ e, r = .error e → LoadFault s id e
  /-- A load that fails leaves the instance as it was in some cases, and in some it does not. -/
  kept_iff : ∀ e, r = .error e → c.KeptIff c' id

/-- A load changes nothing in the store, and answers together with the instance that is left. -/
theorem load_loads {w : World} (hw : w.Faithful) (c : RunContext) (id : String) :
    (c.load id).Ensures w fun out w' =>
      w.Quiet w' ∧ ∃ r c', out = .ok (r, c') ∧ c.Loaded c' w.contexts id r := by
  by_cases hvalid : isValidId id = true
  · rw [load_of_valid c hvalid]
    refine (root_outcome id w hw).attempt_bind fun r w' hout => ?_
    obtain ⟨hquiet, hroot, hfault⟩ := hout
    refine ensures_pure ⟨hquiet, r, ⟨some id⟩, rfl, fun h hh => ?_,
      fun e he => .root hvalid (hfault e he), fun _ _ => c.keptIff_of_valid hvalid⟩
    obtain ⟨rfl, hrooted⟩ := hroot h hh
    exact ⟨hvalid, rfl, rfl, hrooted⟩
  · rw [load_of_invalid c hvalid]
    refine ensures_pure ⟨hw.quiet, _, c, rfl, nofun, fun e he => ?_,
      fun _ _ => c.keptIff_of_invalid hvalid⟩
    exact Except.error.inj he ▸ .invalid hvalid

end RunContext

namespace AppContext

/-- The typed face is loaded as the instance beneath it. -/
theorem load_loads {w : World} (hw : w.Faithful) (c : AppContext) (id : String) :
    (c.load id).Ensures w fun out w' =>
      w.Quiet w' ∧ ∃ r c', out = .ok (r, c') ∧ c.nodes.Loaded c'.nodes w.contexts id r := by
  by_cases hempty : id = ""
  · have hinvalid : ¬ RunContext.isValidId id = true := fun h => (Handle.isValidId_iff.1 h).1 hempty
    rw [load_of_empty c hempty]
    refine ensures_pure ⟨hw.quiet, _, c, rfl, nofun, fun e he => ?_,
      fun _ _ => c.nodes.keptIff_of_invalid hinvalid⟩
    exact Except.error.inj he ▸ .empty hempty
  · rw [AppContext.load, if_neg hempty]
    refine (c.nodes.load_loads hw id).bind ?_ ?_
    · rintro out w' ⟨hquiet, r, nodes, hout, hloaded⟩
      obtain rfl := Except.ok.inj hout
      exact ensures_pure ⟨hquiet, r, ⟨nodes⟩, rfl, hloaded⟩
    · rintro e w' ⟨-, r, nodes, hout, -⟩
      cases hout

/-- While the store answers, just the contexts that have a root are loaded. -/
theorem run_load_iff {w : World} (hw : w.Undisturbed) (c : AppContext) (id : String) :
    (c.load id).run w = (.ok (.ok (Handle.root id), ofId id), w) ↔
      RunContext.isValidId id = true ∧ w.contexts.Rooted id := by
  constructor
  · intro hrun
    obtain ⟨-, r, c', hout, hloaded⟩ := load_loads hw.faithful c id
    rw [hrun] at hout
    obtain ⟨rfl, rfl⟩ := Prod.mk.inj (Except.ok.inj hout)
    obtain ⟨hvalid, -, -, hrooted⟩ := hloaded.bound _ rfl
    exact ⟨hvalid, hrooted⟩
  · rintro ⟨hvalid, hrooted⟩
    rw [load_of_valid c hvalid, run_attempt_bind (RunContext.run_root_of_rooted hw hrooted)]
    rfl

end AppContext

/-! ### Attempts -/

/-- An attempt of an instance to come to an id, in the world as it is at the time. -/
structure Attempt where
  /-- The id to load, or none for a fresh one. -/
  loads? : Option String
  world : World

namespace Attempt

/-- What an attempt of the instance comes to: the id to which it succeeds in coming, if any, and the
    instance after it. -/
def outcome (a : Attempt) (c : RunContext) : Option String × RunContext :=
  match a.loads? with
  | none =>
    match (c.init.run a.world).1 with
    | .ok c' => (c'.id?, c')
    | .error _ => (none, c)
  | some id =>
    match ((c.load id).run a.world).1 with
    | .ok (r, c') => (r.toOption.map (·.contextId), c')
    | .error _ => (none, c)

/-- The id to which the attempt succeeds in coming. -/
def gained? (a : Attempt) (c : RunContext) : Option String := (a.outcome c).1

/-- The instance after the attempt. -/
def next (a : Attempt) (c : RunContext) : RunContext := (a.outcome c).2

end Attempt

namespace RunContext

/-- An instance after attempts. -/
def attempted (attempts : List Attempt) : RunContext := attempts.foldl (fun c a => a.next c) unbound

/-- One of the attempts succeeded in coming to the id. -/
def Earned (attempts : List Attempt) (id : String) : Prop :=
  ∃ before a, before ++ [a] <+: attempts ∧ a.gained? (attempted before) = some id

/-- The next attempt fails to load an id that could be one, and that none of the attempts before has
    come to. -/
def Strays (before : List Attempt) (a : Attempt) : Prop :=
  ∃ id, a.loads? = some id ∧ isValidId id = true ∧ a.gained? (attempted before) = none ∧
    ¬ Earned before id

/-- One attempt more is made by the instance that the others left. -/
theorem attempted_concat (attempts : List Attempt) (a : Attempt) :
    attempted (attempts ++ [a]) = a.next (attempted attempts) := by
  simp [attempted, List.foldl_append]

/-- An id is earned by an earlier attempt, or by the last one. -/
theorem earned_concat {before : List Attempt} {a : Attempt} {id : String} :
    Earned (before ++ [a]) id ↔ Earned before id ∨ a.gained? (attempted before) = some id := by
  constructor
  · rintro ⟨earlier, b, hinit, hgained⟩
    rcases List.prefix_concat_iff.1 hinit with heq | hinit
    · obtain ⟨rfl, hlast⟩ := List.append_inj' heq rfl
      obtain rfl := List.head_eq_of_cons_eq hlast
      exact .inr hgained
    · exact .inl ⟨earlier, b, hinit, hgained⟩
  · rintro (⟨earlier, b, hinit, hgained⟩ | hgained)
    · exact ⟨earlier, b, hinit.trans (List.prefix_append _ _), hgained⟩
    · exact ⟨before, a, List.prefix_rfl, hgained⟩

/-- An attempt to load a valid id comes to it or to none, and leaves the instance at it. -/
theorem outcome_of_valid {a : Attempt} {c : RunContext} {id : String} (ha : a.world.Faithful)
    (hloads : a.loads? = some id) (hvalid : isValidId id = true) :
    (a.gained? c = none ∨ a.gained? c = some id) ∧ a.next c = ⟨some id⟩ := by
  -- Whatever comes of the look for the root, the instance is at the id.
  have hout : a.outcome c =
      (((root ⟨some id⟩).run a.world).1.toOption.map (·.contextId), ⟨some id⟩) := by
    have hrun : ((c.load id).run a.world).1
        = .ok (((root ⟨some id⟩).run a.world).1, ⟨some id⟩) := by
      rw [load_of_valid c hvalid, run_bind, run_attempt]
      rfl
    rw [Attempt.outcome, hloads]
    dsimp only
    rw [hrun]
  obtain ⟨-, hroot, -⟩ := root_outcome id a.world ha
  rw [Attempt.gained?, Attempt.next, hout]
  refine ⟨?_, rfl⟩
  cases hresult : ((root ⟨some id⟩).run a.world).1 with
  | error e => exact .inl rfl
  | ok h =>
    obtain ⟨rfl, -⟩ := hroot h hresult
    exact .inr rfl

/-- An attempt to load an id that cannot be one comes to none, and leaves the instance as it is. -/
theorem outcome_of_invalid {a : Attempt} {c : RunContext} {id : String}
    (hloads : a.loads? = some id) (hinvalid : ¬ isValidId id = true) :
    a.gained? c = none ∧ a.next c = c := by
  have hout : a.outcome c = (none, c) := by
    rw [Attempt.outcome, hloads]
    dsimp only
    rw [load_of_invalid c hinvalid]
    rfl
  rw [Attempt.gained?, Attempt.next, hout]
  exact ⟨rfl, rfl⟩

/-- A fresh id is gained, or the instance stays at its own. -/
theorem next_init {a : Attempt} {c : RunContext} (hloads : a.loads? = none) :
    (a.next c).id? = a.gained? c ∨ a.next c = c := by
  rw [Attempt.next, Attempt.gained?, Attempt.outcome, hloads]
  dsimp only
  cases (c.init.run a.world).1 with
  | error e => exact .inr rfl
  | ok c' => exact .inl rfl

/-- At all times of its attempts an instance is bound only to ids that one of them succeeded in coming
    to, just if none of them fails to load an id that could be one and is not among those. -/
theorem bound_earned_iff {attempts : List Attempt} (hworlds : ∀ a ∈ attempts, a.world.Faithful) :
    (∀ before, before <+: attempts → ∀ id, (attempted before).id? = some id → Earned before id) ↔
      ∀ before a, before ++ [a] <+: attempts → ¬ Strays before a := by
  refine forall_prefix_iff nofun fun before a hinit hbefore => ?_
  have ha : a.world.Faithful := hworlds a (hinit.subset (by simp))
  simp only [attempted_concat, earned_concat]
  cases hloads : a.loads? with
  | none =>
    -- a fresh id is gained; and an instance that has an id keeps it
    refine iff_of_true (fun id hid => ?_) fun hstrays => ?_
    · rcases next_init (c := attempted before) hloads with hnext | hnext
      · exact .inr (hnext ▸ hid)
      · exact .inl (hbefore id (hnext ▸ hid))
    · obtain ⟨id, hid, -⟩ := hstrays
      cases hloads.symm.trans hid
  | some new =>
    by_cases hvalid : isValidId new = true
    · -- the instance is at the new id, which is gained now or was gained before
      obtain ⟨hgained, hnext⟩ := outcome_of_valid (c := attempted before) ha hloads hvalid
      have hstrays : Strays before a ↔
          a.gained? (attempted before) = none ∧ ¬ Earned before new := by
        simp [Strays, hloads, hvalid]
      simp only [hnext, Option.some.injEq, forall_eq', hstrays]
      rcases hgained with hgained | hgained <;> simp [hgained]
    · obtain ⟨-, hnext⟩ := outcome_of_invalid (c := attempted before) hloads hvalid
      rw [hnext]
      refine iff_of_true (fun id hid => .inl (hbefore id hid)) fun hstrays => ?_
      obtain ⟨id, hid, hvalid', -⟩ := hstrays
      obtain rfl := Option.some.inj (hloads.symm.trans hid)
      exact hvalid hvalid'

/-! ### Failed loads -/

/-- **A failed load moves the instance.** For all instances and ids, and whatever the store holds: a
    load changes nothing in the store. If it succeeds, the instance is bound to the id, and the root
    that is answered holds it. If it fails, it has its reason, and the instance keeps its id just if
    the new one cannot be one or is its own; just then it refuses all handles that it refused; it
    accepts all handles that it accepted just then or if it had no id; and it takes a fresh id as it
    did just if the new one cannot be one or it had one already. It is the same with the typed face,
    which loads just the contexts that have a root, while the store answers. So an instance is bound
    only to ids that it was given or has found, whenever it is looked at, just if it never fails to
    load an id that could be one and that it has not come to before. -/
theorem failed_load_keeps_iff {w : World} (hw : w.Faithful) (id : String) :
    (∀ c : RunContext, (c.load id).Ensures w fun out w' =>
      w.Quiet w' ∧ ∃ r c', out = .ok (r, c') ∧ c.Loaded c' w.contexts id r) ∧
    (∀ c : AppContext, (c.load id).Ensures w fun out w' =>
      w.Quiet w' ∧ ∃ r c', out = .ok (r, c') ∧ c.nodes.Loaded c'.nodes w.contexts id r) ∧
    (∀ c : AppContext, w.Undisturbed →
      ((c.load id).run w = (.ok (.ok (Handle.root id), AppContext.ofId id), w) ↔
        isValidId id = true ∧ w.contexts.Rooted id)) ∧
    ∀ attempts : List Attempt, (∀ a ∈ attempts, a.world.Faithful) →
      ((∀ before, before <+: attempts → ∀ id, (attempted before).id? = some id → Earned before id) ↔
        ∀ before a, before ++ [a] <+: attempts → ¬ Strays before a) :=
  ⟨fun c => c.load_loads hw id, fun c => c.load_loads hw id,
    fun c hw => AppContext.run_load_iff hw c id, fun _ hworlds => bound_earned_iff hworlds⟩

/-- An instance loads the first of two contexts, and then an id without a root. -/
def strayAttempts : List Attempt := [⟨some "1", World.siblings⟩] ++ [⟨some "7", World.siblings⟩]

/-- It loads the second context all right, but the id without a root leads it astray. -/
theorem failed_load_keeps_iff_strayAttempts :
    World.siblings.Faithful ∧
    Loaded ⟨some "1"⟩ ⟨some "12"⟩ World.siblings.contexts "12" (.ok (Handle.root "12")) ∧
    Loaded ⟨some "1"⟩ ⟨some "7"⟩ World.siblings.contexts "7" (.error (.notFound "AppContext" "7")) ∧
    ¬ ∀ before, before <+: strayAttempts →
      ∀ id, (attempted before).id? = some id → Earned before id := by
  have hw : World.siblings.Faithful := World.siblings_undisturbed.faithful
  have hfound : ((load ⟨some "1"⟩ "12").run World.siblings).1
      = .ok (.ok (Handle.root "12"), ⟨some "12"⟩) := by decide
  have hmissing : ((load ⟨some "1"⟩ "7").run World.siblings).1
      = .ok (.error (.notFound "AppContext" "7"), ⟨some "7"⟩) := by decide
  obtain ⟨-, r, c', hout, hloaded⟩ := (failed_load_keeps_iff hw "12").1 ⟨some "1"⟩
  obtain ⟨rfl, rfl⟩ := Prod.mk.inj (Except.ok.inj (hfound.symm.trans hout))
  obtain ⟨hloads, -, -, hattempts⟩ := failed_load_keeps_iff hw "7"
  obtain ⟨-, r, c', hout, hfailed⟩ := hloads ⟨some "1"⟩
  obtain ⟨rfl, rfl⟩ := Prod.mk.inj (Except.ok.inj (hmissing.symm.trans hout))
  refine ⟨hw, hloaded, hfailed, fun hall => ?_⟩
  -- the first attempt comes to another id, and the second one fails
  have hearned : ¬ Earned ([] ++ [⟨some "1", World.siblings⟩]) "7" := by
    rw [earned_concat]
    rintro (⟨before, a, hinit, -⟩ | hgained)
    · exact absurd hinit.length_le (by simp)
    · revert hgained
      decide
  have hstrays : Strays [⟨some "1", World.siblings⟩] ⟨some "7", World.siblings⟩ :=
    ⟨"7", rfl, by decide, by decide, hearned⟩
  have hworlds : ∀ a ∈ strayAttempts, a.world.Faithful := by
    simp [strayAttempts, hw]
  exact (hattempts strayAttempts hworlds).1 hall _ _ List.prefix_rfl hstrays

/-- A load of an id without a root fails, and leaves an instance that takes no fresh id any more, that
    refuses its own handles and accepts those of a context that is not there, and that stores the
    root of that context. -/
theorem failed_load_moves :
    let w := World.siblings
    let moved : RunContext := ⟨some "7"⟩
    ((unbound.load "7").run w).1 = .ok (.error (.notFound "AppContext" "7"), moved) ∧
    ((load ⟨some "1"⟩ "7").run w).1 = .ok (.error (.notFound "AppContext" "7"), moved) ∧
    (unbound.init.run w).1 = .ok ⟨some "0"⟩ ∧
    (moved.init.run w).1
      = .error (.invalidHandle "/context/7/" "context already initialized") ∧
    check ⟨some "1"⟩ (Handle.root "1") = .ok () ∧
    moved.check (Handle.root "1")
      = .error (.invalidHandle "/context/1/" "not a handle of this run time context") ∧
    check ⟨some "1"⟩ (Handle.root "7")
      = .error (.invalidHandle "/context/7/" "not a handle of this run time context") ∧
    moved.check (Handle.root "7") = .ok () ∧
    (moved.create.run w).1 = .ok (Handle.root "7") ∧
    ((unbound.load "7").run (moved.create.run w).2).1 = .ok (.ok (Handle.root "7"), moved) := by
  decide

end RunContext

end NetIntent
