import NetIntent.Proofs.Additions
import NetIntent.Proofs.Deletion

namespace NetIntent

/-!
# A context that was deleted

A deletion leaves no key of the context. Some operations look for a node before they store a value,
and find none; but those that store a value wherever their handle points bring keys back, of which
neither loading nor a further deletion knows.

* `AppContext.Query`, `Upsert`, `Call` — all operations on a context, other than to create it;
* `Op.KeepsVacant` — the operation brings no key back, with one rule for each way to look first;
* `Upsert.perform_upserts` — what stores a value wherever the handle points, and when;
* `Visit`, `AppContext.visited` — later calls, each under its own circumstances;
* `AppContext.deletion_final_iff` — the context stays empty just as long as no such value is stored.
-/

open Op

/-- It does not matter here whether the result is kept. -/
theorem Op.Upserts.void {α : Type} {op : Op α} {accepted : Prop} {key : String} {value : Json}
    {a : α} (h : op.Upserts accepted key value a) : op.void.Upserts accepted key value () := by
  constructor
  · intro haccepted
    rw [Op.void, h.stores haccepted, bind_assoc]
    rfl
  · intro hnot
    obtain ⟨e, he⟩ := h.fails hnot
    exact ⟨e, by rw [he]; rfl⟩

/-- Updating a value stores it, if the handle is one of the context. -/
theorem RunContext.updateValue_upserts (id : String) (h : Handle) (v : Json) :
    (RunContext.updateValue ⟨some id⟩ h v).Upserts (h.contextId = id) h.key v () := by
  refine (upserts_put h.key v).of_bind.congr ?_
  rw [check_eq_ok_iff, and_iff_left trivial, Option.some.injEq, eq_comm]

namespace AppContext

/-- An operation that looks something up in a context. -/
inductive Query where
  | load (id : String)
  | root
  | metadata
  | appHandle (app : String)
  | appNames
  | clusterHandle (app cluster : String)
  | clusterNames (app : String)
  | group (h : Handle)
  | groupMap (app : String)
  | clusterStatusHandle (app cluster : String)
  | resourceHandle (app cluster resource : String)
  | resourceNames (app cluster : String)
  | appInstruction (kind : InstructionKind)
  | resourceInstruction (app cluster : String) (kind : InstructionKind)
  | levelHandle (h : Handle) (word : String)
  | handles (h : Handle)
  | value (h : Handle)
  | decoded (read : Json → Option Json) (h : Handle)
  | overallStatus

/-- An operation that stores a value without a look at what is there. -/
inductive Upsert where
  | metadata (m : CompositeMeta)
  | app (h : Handle) (name : String)
  | cluster (h : Handle) (name : String)
  | resource (h : Handle) (name text : String)
  | group (h : Handle) (name : String)
  | instruction (h : Handle) (level : InstructionLevel) (kind : InstructionKind) (text : String)
  | leaf (h : Handle) (word : String) (v : Json)
  | value (h : Handle) (v : Json)
  | status (h : Handle) (v : Json)

/-- An operation on a context, other than to create it. -/
inductive Call where
  | init
  | look (query : Query)
  | upsert (upsert : Upsert)
  | setStatus (status : ContextStatus)
  | updateResource (h : Handle) (value : String)
  | updateInstruction (h : Handle) (value : String)
  | delete
  | deleteApp (h : Handle)
  | deleteCluster (h : Handle)
  | deleteResource (h : Handle)
  | deleteInstruction (h : Handle)

/-- What a lookup does. -/
def Query.perform (c : AppContext) : Query → Op Unit
  | load id => do
    let (r, _) ← c.load id
    (Op.of r).void
  | root => c.root.void
  | metadata => c.getMeta.void
  | appHandle app => (c.getAppHandle app).void
  | appNames => c.getAppNames.void
  | clusterHandle app cluster => (c.getClusterHandle app cluster).void
  | clusterNames app => (c.getClusterNames app).void
  | group h => (c.getGroup h).void
  | groupMap app => (c.groupMap app).void
  | clusterStatusHandle app cluster => (c.getClusterStatusHandle app cluster).void
  | resourceHandle app cluster resource => (c.getResourceHandle app cluster resource).void
  | resourceNames app cluster => (c.getResourceNames app cluster).void
  | appInstruction kind => (c.getAppInstruction kind).void
  | resourceInstruction app cluster kind => (c.getResourceInstruction app cluster kind).void
  | levelHandle h word => (c.getLevelHandle h word).void
  | handles h => (c.nodes.handles h).void
  | value h => (c.nodes.rawValue h).void
  | decoded read h => (c.nodes.value read h).void
  | overallStatus => c.overallStatus.void

/-- What such an operation does. -/
def Upsert.perform (c : AppContext) : Upsert → Op Unit
  | metadata m => c.addMeta m
  | app h name => (c.addApp h name).void
  | cluster h name => (c.addCluster h name).void
  | resource h name text => (c.addResource h name text).void
  | group h name => (c.addGroup h name).void
  | instruction h level kind text => (c.addInstruction h level kind text).void
  | leaf h word v => (c.nodes.addOneLevel h word v).void
  | value h v => c.nodes.updateValue h v
  | status h v => c.updateStatus h v

/-- What a call does. -/
def Call.perform (c : AppContext) : Call → Op Unit
  | init => c.init.void
  | look query => query.perform c
  | upsert u => u.perform c
  | setStatus status => (c.setStatus status).void
  | updateResource h value => c.updateResource h value
  | updateInstruction h value => c.updateInstruction h value
  | delete => c.delete
  | deleteApp h => c.deleteApp h
  | deleteCluster h => c.deleteCluster h
  | deleteResource h => c.deleteResource h
  | deleteInstruction h => c.deleteInstruction h

/-! ### Lookups -/

section Lookups

variable (c : AppContext)

/-- Loading changes nothing. -/
theorem load_readOnly (id : String) : (c.load id).ReadOnly := by
  by_cases hvalid : RunContext.isValidId id = true
  · rw [load_of_valid c hvalid]
    have hroot := (RunContext.root_looks (RunContext.seenAlike_eq ⟨some id⟩)).readOnly
    exact hroot.attempt.bind fun _ => readOnly_pure _
  · obtain ⟨e, -, hload⟩ := load_of_invalid c hvalid
    rw [hload]
    exact readOnly_pure _

/-- To read the metadata changes nothing. -/
theorem getMeta_readOnly : c.getMeta.ReadOnly := by
  have hvalue : c.nodes.getMeta.ReadOnly := by
    refine (readOnly_of _).bind fun root => (getNode_reads _).readOnly.bind fun found => ?_
    split
    · exact readOnly_pure _
    · exact readOnly_throw _
  refine hvalue.bind fun value => ?_
  split
  · split
    · exact readOnly_pure _
    · exact readOnly_throw _
  · exact readOnly_throw _

/-- To read the group of a cluster changes nothing. -/
theorem getGroup_readOnly (h : Handle) : (c.getGroup h).ReadOnly :=
  (readOnly_of _).bind fun _ => (c.nodes.value_reads _ _).readOnly

/-- To collect clusters by their groups changes nothing. -/
theorem groupClusters_readOnly (app : Handle) (clusters : List String)
    (groups : OrderedMap (List String)) : (c.groupClusters app clusters groups).ReadOnly := by
  induction clusters generalizing groups with
  | nil => exact readOnly_pure _
  | cons cluster rest ih =>
    refine (c.getGroup_readOnly _).attempt.bind fun r => ?_
    split
    · exact ih _
    · exact ih _
    · exact readOnly_throw _

/-- A lookup changes nothing. -/
theorem Query.perform_readOnly (query : Query) : (query.perform c).ReadOnly := by
  have hc := c.nodes.seenAlike_eq
  -- Every query is put together from these lookups.
  have hroot : c.nodes.root.ReadOnly := (RunContext.root_looks hc).readOnly
  have hvalue : ∀ {α : Type} (read : Json → Option α) (h : Handle),
      (c.nodes.value read h).ReadOnly := fun read h => (c.nodes.value_reads h read).readOnly
  have hnames : ∀ (h : Handle) (level : String), (c.childNames h level).ReadOnly :=
    fun h level => (childNames_looks hc h level).readOnly
  have happ : ∀ app, (c.getAppHandle app).ReadOnly := fun app =>
    (getAppHandle_looks hc app).readOnly
  have hcluster : ∀ app cluster, (c.getClusterHandle app cluster).ReadOnly :=
    fun app cluster => (getClusterHandle_looks hc app cluster).readOnly
  cases query with
  | load id => exact (c.load_readOnly id).bind fun (r, _) => (readOnly_of r).void
  | root => exact hroot.void
  | metadata => exact c.getMeta_readOnly.void
  | appHandle app => exact (happ app).void
  | appNames => exact (hroot.bind fun root => hnames root "app").void
  | clusterHandle app cluster => exact (hcluster app cluster).void
  | clusterNames app => exact ((happ app).bind fun h => hnames h "cluster").void
  | group h => exact (c.getGroup_readOnly h).void
  | groupMap app =>
    refine ((happ app).bind fun h => (hnames h "cluster").bind fun clusters => ?_).void
    exact c.groupClusters_readOnly h clusters _
  | clusterStatusHandle app cluster =>
    exact (getClusterStatusHandle_looks hc app cluster).readOnly.void
  | resourceHandle app cluster resource =>
    refine ((readOnly_of _).bind fun _ => (hcluster app cluster).bind fun h => ?_).void
    exact (c.existing_reads _ _).readOnly
  | resourceNames app cluster =>
    exact ((hcluster app cluster).bind fun h => hnames h "resource").void
  | appInstruction kind => exact (hroot.bind fun root => hvalue _ _).void
  | resourceInstruction app cluster kind =>
    exact ((hcluster app cluster).bind fun h => hvalue _ _).void
  | levelHandle h word => exact (getLevelHandle_looks hc h word).readOnly.void
  | handles h => exact (RunContext.handles_looks hc h).readOnly.void
  | value h => exact (c.nodes.rawValue_reads h).readOnly.void
  | decoded read h => exact (hvalue read h).void
  | overallStatus => exact (overallStatus_looks hc).readOnly.void

end Lookups

/-! ### Values that are stored without a look -/

/-- The handle is the root just if it passes as one. -/
theorem expectRoot_eq_ok_iff {h : Handle} : expectRoot h = .ok () ↔ h.isRoot = true := by
  unfold expectRoot
  split <;> simp [*]

/-- The handle is a node of the level just if it passes as one. -/
theorem expectLevel_eq_ok_iff {h : Handle} {level : String} :
    expectLevel h level = .ok () ↔ (h.nameAt? level).isSome = true := by
  unfold expectLevel
  split <;> simp [*]

/-- The text is JSON just if it passes as such. -/
theorem expectJsonText_eq_ok_iff {text : String} :
    expectJsonText text = .ok () ↔ (Json.ofText? text).isSome = true := by
  unfold expectJsonText
  split <;> simp [*]

namespace Upsert

/-- The node that is stored. -/
def node (id : String) : Upsert → Handle × Json
  | metadata m => ((Handle.root id).leaf "meta", m.toJson)
  | app h name => (h.child "app" name, .string name)
  | cluster h name => (h.child "cluster" name, .string name)
  | resource h name text => (h.child "resource" name, .string text)
  | group h name => (h.leaf "meta", groupDocument name)
  | instruction h level kind text => (h.instruction level.name kind.name, .string text)
  | leaf h word v => (h.leaf word, v)
  | value h v => (h, v)
  | status h v => (h, v)

/-- The arguments are accepted: the handle is of the right place and of the context, and names and
    values are as they have to be. -/
def Accepted (id : String) : Upsert → Prop
  | metadata _ => True
  | app h name => h.isRoot = true ∧ h.contextId = id ∧ Handle.IsName name
  | cluster h name => (h.nameAt? "app").isSome = true ∧ h.contextId = id ∧ Handle.IsName name
  | resource h name _ =>
    (h.nameAt? "cluster").isSome = true ∧ h.contextId = id ∧ Handle.IsName name
  | group h name => (h.nameAt? "cluster").isSome = true ∧ name ≠ "" ∧ h.contextId = id
  | instruction h level _ text =>
    expectPlace h level = .ok () ∧ (Json.ofText? text).isSome = true ∧ h.contextId = id
  | leaf h word v => h.contextId = id ∧ Handle.IsName word ∧ word ∉ namedLevels ∧ v ≠ .null
  | value h _ => h.contextId = id
  | status h _ => h.last? = some (.leaf "status") ∧ h.contextId = id

/-- What is accepted is stored in the context. -/
theorem Accepted.contextId {id : String} {u : Upsert} (h : u.Accepted id) :
    (u.node id).1.contextId = id := by
  cases u with
  | metadata m => rfl
  | app h' name => exact h.2.1
  | cluster h' name => exact h.2.1
  | resource h' name text => exact h.2.1
  | group h' name => exact h.2.2
  | instruction h' level kind text => exact h.2.2
  | leaf h' word v => exact h.1
  | value h' v => exact h
  | status h' v => exact h.2

/-- What is accepted is stored, whatever there is. -/
theorem perform_upserts (id : String) (u : Upsert) :
    (u.perform (ofId id)).Upserts (u.Accepted id) (u.node id).1.key (u.node id).2 () := by
  have hadd := RunContext.Addition.perform_upserts ⟨some id⟩
  have hbound : ∀ h : Handle, (⟨some id⟩ : RunContext).id? = some h.contextId ↔ h.contextId = id :=
    fun h => by rw [Option.some.injEq, eq_comm]
  cases u with
  | metadata m => exact upserts_put _ _
  | app h name =>
    refine (hadd h (.level "app" name)).of_bind.void.congr ?_
    rw [expectRoot_eq_ok_iff, hbound]
    simp [Accepted, RunContext.Addition.Proper, namedLevels]
  | cluster h name =>
    refine (hadd h (.level "cluster" name)).of_bind.void.congr ?_
    rw [expectLevel_eq_ok_iff, hbound]
    simp [Accepted, RunContext.Addition.Proper, namedLevels]
  | resource h name text =>
    refine (hadd h (.resource name (.string text))).of_bind.void.congr ?_
    rw [expectLevel_eq_ok_iff, hbound]
    simp [Accepted, RunContext.Addition.Proper]
  | group h name =>
    -- the word is a fixed one, and the document is never null
    have hproper : (RunContext.Addition.word "meta" (groupDocument name)).Proper :=
      ⟨by decide, by decide, by simp [groupDocument, Json.ofMembers]⟩
    refine ((hadd h (.word "meta" (groupDocument name))).guard (name = "") _).of_bind.void.congr ?_
    rw [expectLevel_eq_ok_iff, hbound, and_iff_left hproper]
    rfl
  | instruction h level kind text =>
    -- all levels and kinds that there are have names that are accepted
    have hproper : (RunContext.Addition.instruction level.name kind.name (.string text)).Proper :=
      ⟨by cases level <;> decide, by cases kind <;> decide, by simp⟩
    refine (hadd h (.instruction level.name kind.name (.string text))).of_bind.of_bind.void.congr ?_
    rw [expectJsonText_eq_ok_iff, hbound, and_iff_left hproper]
    rfl
  | leaf h word v =>
    refine (hadd h (.word word v)).void.congr ?_
    rw [hbound]
    rfl
  | value h v => exact RunContext.updateValue_upserts id h v
  | status h v =>
    have hvalue := RunContext.updateValue_upserts id h v
    simp only [perform, AppContext.updateStatus]
    rw [← ite_not]
    refine (hvalue.guard _ _).congr ?_
    rw [not_not]
    rfl

end Upsert

/-! ### What brings no key back -/

end AppContext

namespace Op

variable {α β : Type} {op : Op α} {next : α → Op β} {id : String}

/-- Where nothing is stored of the context, the operation stores nothing. -/
def KeepsVacant (op : Op α) (id : String) : Prop :=
  ∀ w, w.Faithful → w.contexts.Vacant id → op.Ensures w fun _ w' => w'.contexts.Vacant id

/-- An operation that changes nothing stores nothing. -/
theorem ReadOnly.keepsVacant (h : op.ReadOnly) (id : String) : op.KeepsVacant id := by
  intro w hw hvacant
  refine (h w hw).mono fun r w' hout => ?_
  rw [hout.1.contexts]
  exact hvacant

/-- A check may come before. -/
theorem KeepsVacant.of_bind {r : Except Failure α} (h : ∀ a, r = .ok a → (next a).KeepsVacant id) :
    (Op.of r >>= next).KeepsVacant id := by
  cases r with
  | error e => exact fun w _ hvacant => ensures_throw hvacant
  | ok a => exact h a rfl

/-- What comes after a look at something that an empty context does not have does not come about. -/
theorem Reads.bind_keepsVacant {P : World → α → Prop} (h : op.Reads P)
    (hnot : ∀ w a, w.contexts.Vacant id → ¬ P w a) : (op >>= next).KeepsVacant id := by
  intro w hw hvacant
  refine (h w hw).bind ?_ ?_
  · intro a w' hout
    exact absurd (hout.2 a rfl) (hnot _ a (by simpa using hvacant))
  · intro e w' hout
    rw [hout.1.contexts]
    exact hvacant

/-- It does not matter here whether the result is kept. -/
theorem KeepsVacant.void (h : op.KeepsVacant id) : op.void.KeepsVacant id := by
  intro w hw hvacant
  exact (h w hw hvacant).bind (fun a w' hout => hout) fun e w' hout => hout

/-- A deletion of several nodes stores nothing. -/
theorem deleteNodes_keepsVacant (piece id : String) : (deleteNodes piece).KeepsVacant id := by
  intro w hw hvacant
  refine (deleteNodes_ensures piece hw).mono fun r w' hout => ?_
  rcases hout with ⟨e, -, -, hquiet⟩ | ⟨-, hquiet⟩
  · rw [hquiet.contexts]
    exact hvacant
  · rw [hquiet.contexts]
    exact hvacant.eraseScan piece

/-- A deletion of a node stores nothing. -/
theorem deleteNode_keepsVacant (key id : String) : (deleteNode key).KeepsVacant id := by
  intro w hw hvacant
  refine (onContexts_ensures rfl _ hw).mono fun r w' hout => ?_
  rcases hout with ⟨e, -, -, hquiet⟩ | ⟨-, hquiet⟩
  · rw [hquiet.contexts]
    exact hvacant
  · rw [hquiet.contexts]
    intro key' hkey'
    simp [OrderedMap.get?_erase, hvacant key' hkey']

end Op

namespace AppContext

/-- A node that is found belongs to the context and is stored there. -/
theorem existing_finds (id : String) (h : Handle) (level : String) :
    ((ofId id).existing h level).Reads fun w _ =>
      h.contextId = id ∧ ∃ v, w.contexts.get? h.key = some (.value v) := by
  have hexists : (RunContext.nodeExists ⟨some id⟩ h).Reads fun w found =>
      found = true → h.contextId = id ∧ ∃ v, w.contexts.get? h.key = some (.value v) := by
    refine (reads_of _).step fun _ => (getNode_reads _).step fun value =>
      reads_pure fun w hvalue hcheck hfound => ?_
    obtain ⟨v, rfl⟩ := Option.isSome_iff_exists.1 hfound
    exact ⟨(Option.some.inj (RunContext.check_eq_ok_iff.1 hcheck)).symm, v, hvalue⟩
  refine hexists.step fun found => ?_
  cases found with
  | false => exact reads_throw _
  | true => exact reads_pure fun w hfound => hfound rfl

/-- No node of an empty context is found, -/
theorem existing_bind_keepsVacant {α : Type} {next : Handle → Op α} (id : String) (h : Handle)
    (level : String) : ((ofId id).existing h level >>= next).KeepsVacant id := by
  refine (existing_finds id h level).bind_keepsVacant fun w _ hvacant hfound => ?_
  obtain ⟨rfl, v, hv⟩ := hfound
  rw [hvacant h.key (Handle.beginsWith_root_self h)] at hv
  cases hv

/-- nor its root. -/
theorem root_bind_keepsVacant {α : Type} {next : Handle → Op α} (id : String) :
    (RunContext.root ⟨some id⟩ >>= next).KeepsVacant id :=
  (RunContext.root_reads id).bind_keepsVacant fun _ _ hvacant hroot => hvacant.not_rooted hroot.2

/-- A deletion of a named node with everything beneath it stores nothing. -/
theorem deleteLevel_keepsVacant (c : AppContext) (h : Handle) (level id : String) :
    (c.deleteLevel h level).KeepsVacant id := by
  have hprefix : (c.nodes.deletePrefix h).KeepsVacant id :=
    KeepsVacant.of_bind fun _ _ => deleteNodes_keepsVacant h.key id
  exact KeepsVacant.of_bind fun _ _ => hprefix.void

/-- All calls but those that store a value without a look bring no key back. -/
theorem Call.keepsVacant (id : String) {call : Call} (hcall : ∀ u, call ≠ .upsert u) :
    (call.perform (ofId id)).KeepsVacant id := by
  cases call with
  | init => exact (readOnly_throw _).keepsVacant id
  | look query => exact (query.perform_readOnly (ofId id)).keepsVacant id
  | upsert u => exact absurd rfl (hcall u)
  | setStatus status => exact (root_bind_keepsVacant id).void
  | updateResource h text =>
    exact KeepsVacant.of_bind fun _ _ => existing_bind_keepsVacant id h "resource"
  | updateInstruction h text =>
    refine KeepsVacant.of_bind fun _ _ => KeepsVacant.of_bind fun _ _ => ?_
    exact existing_bind_keepsVacant id h "instruction"
  | delete => exact root_bind_keepsVacant id
  | deleteApp h => exact deleteLevel_keepsVacant (ofId id) h "app" id
  | deleteCluster h => exact deleteLevel_keepsVacant (ofId id) h "cluster" id
  | deleteResource h => exact deleteLevel_keepsVacant (ofId id) h "resource" id
  | deleteInstruction h =>
    refine KeepsVacant.of_bind fun _ _ => KeepsVacant.of_bind fun _ _ => ?_
    exact deleteNode_keepsVacant h.key id

/-! ### Later calls -/

section Later

variable {id : String} {w : World}

/-- What such an operation stores brings the context back, and only a failure of it does not. -/
theorem Upsert.vacant_after_iff (hvacant : w.contexts.Vacant id) (u : Upsert) :
    ((u.perform (ofId id)).run w).2.contexts.Vacant id ↔
      ((u.perform (ofId id)).run w).1 ≠ .ok () := by
  rcases (u.perform_upserts id).ensures w with ⟨e, hresult, hcontexts⟩ | ⟨ha, hresult, hcontexts⟩
  · refine iff_of_true (hcontexts ▸ hvacant) ?_
    rw [hresult]
    nofun
  · refine iff_of_false (fun hempty => ?_) (not_not.2 hresult)
    -- what was stored belongs to the context
    have hkey := ha.contextId ▸ Handle.beginsWith_root_self (u.node id).1
    have hnone := hempty _ hkey
    rw [hcontexts] at hnone
    simp at hnone

/-- The call succeeds in storing a value without a look at what is there. -/
def Call.Revives (id : String) (w : World) (call : Call) : Prop :=
  (∃ u, call = .upsert u) ∧ ((call.perform (ofId id)).run w).1 = .ok ()

/-- A call on an empty context leaves it so, unless it brings it back. -/
theorem Call.vacant_after_iff (hw : w.Faithful) (hvacant : w.contexts.Vacant id) (call : Call) :
    ((call.perform (ofId id)).run w).2.contexts.Vacant id ↔ ¬ call.Revives id w := by
  by_cases hcall : ∃ u, call = .upsert u
  · obtain ⟨u, rfl⟩ := hcall
    exact (u.vacant_after_iff hvacant).trans (not_congr (and_iff_right ⟨u, rfl⟩).symm)
  · have hother : ∀ u, call ≠ .upsert u := fun u hu => hcall ⟨u, hu⟩
    exact iff_of_true (call.keepsVacant id hother w hw hvacant) fun hrevives => hcall hrevives.1

/-- An instance has a root only where the store has it. -/
theorem root_fails (hw : w.Faithful) (hroot : ¬ w.contexts.Rooted id) :
    ∃ e, ((RunContext.root ⟨some id⟩).run w).1 = .error e := by
  cases hresult : ((RunContext.root ⟨some id⟩).run w).1 with
  | error e => exact ⟨e, rfl⟩
  | ok h => exact absurd ((RunContext.root_reads id w hw).2 h hresult).2 hroot

/-- A context without its root cannot be loaded, by whatever instance, nor deleted. -/
theorem load_delete_fail (hw : w.Faithful) (hroot : ¬ w.contexts.Rooted id) (c : AppContext) :
    (∃ e c', ((c.load id).run w).1 = .ok (.error e, c')) ∧
      ∃ e, ((ofId id).delete.run w).1 = .error e := by
  obtain ⟨e, he⟩ := root_fails hw hroot
  constructor
  · by_cases hvalid : RunContext.isValidId id = true
    · rw [load_of_valid c hvalid, run_bind, run_attempt, he]
      exact ⟨e, ofId id, rfl⟩
    · obtain ⟨refusal, -, hload⟩ := load_of_invalid c hvalid
      rw [hload]
      exact ⟨refusal, c, rfl⟩
  · exact ⟨e, congrArg Prod.fst (run_bind_error (Prod.ext he rfl))⟩

end Later

/-- A call under its circumstances. -/
structure Visit where
  call : Call
  circumstances : Circumstances := {}

/-- The call is made, with what comes of it. -/
def Visit.run (id : String) (w : World) (v : Visit) : Except Failure Unit × World :=
  (v.call.perform (ofId id)).run (w.under v.circumstances)

/-- The world after calls on a context. -/
def visited (id : String) (w : World) (visits : List Visit) : World :=
  visits.foldl (fun w v => (v.run id w).2) w

/-- The call brings the context back. -/
def Visit.Revives (id : String) (w : World) (v : Visit) : Prop :=
  v.call.Revives id (w.under v.circumstances)

/-- **A context that was deleted stays so, until a value is stored without a look.** After a
    deletion no key of the context is left. It stays so at all times of later calls, of whatever
    instances, just if none of them succeeds in storing a value without a look at what is there; all
    others find nothing, or only delete. Without its root, the context can neither be loaded nor
    deleted again. And while the stores answer, what is stored without a look succeeds in an empty
    context as soon as its arguments are accepted; the context has a root again only if it was just
    the root that was stored, so that all other nodes are out of reach. -/
theorem deletion_final_iff {w w' : World} {id : String} (hw : w.Faithful)
    (hdelete : (ofId id).delete.run w = (.ok (), w')) (visits : List Visit) :
    w'.contexts.Vacant id ∧
    ((∀ before, before <+: visits → (visited id w' before).contexts.Vacant id) ↔
      ∀ before v, before ++ [v] <+: visits → ¬ v.Revives id (visited id w' before)) ∧
    (∀ (v : World) (c : AppContext), v.Faithful → ¬ v.contexts.Rooted id →
      (∃ e c', ((c.load id).run v).1 = .ok (.error e, c')) ∧
        ∃ e, ((ofId id).delete.run v).1 = .error e) ∧
    ∀ (v : World) (u : Upsert), v.Undisturbed → v.contexts.Vacant id → u.Accepted id →
      ∃ v', (u.perform (ofId id)).run v = (.ok (), v') ∧
        v'.contexts.get? (u.node id).1.key = some (.value (u.node id).2) ∧
        (v'.contexts.Rooted id ↔
          (u.node id).1.key = (Handle.root id).key ∧ (u.node id).2 = .string id) := by
  have hvacant : w'.contexts.Vacant id := by
    rcases delete_ensures id hw with ⟨e, he, -⟩ | ⟨-, -, hquiet⟩
    · rw [hdelete] at he
      cases he
    · rw [hdelete] at hquiet
      rw [hquiet.contexts]
      exact ContextStore.vacant_eraseScan w.contexts id
  refine ⟨hvacant, forall_prefix_iff hvacant fun before v _ hbefore => ?_, ?_, ?_⟩
  · have hafter : visited id w' (before ++ [v]) = (v.run id (visited id w' before)).2 := by
      simp [visited, List.foldl_append]
    rw [hafter]
    exact v.call.vacant_after_iff (World.faithful_under _ _) hbefore
  · intro v c hv hroot
    exact load_delete_fail hv hroot c
  · intro v u hv hempty ha
    refine ⟨_, (u.perform_upserts id).run_eq ha hv, by simp, ?_⟩
    -- the root was not there, so it is rooted just if this very node is the root
    have hroot := hempty _ (Handle.beginsWith_root_self (Handle.root id))
    show OrderedMap.get? (OrderedMap.insert _ _ _) _ = _ ↔ _
    rw [OrderedMap.get?_insert]
    split
    · rename_i hkey
      simp [hkey]
    · rename_i hkey
      rw [show OrderedMap.get? _ _ = none from hroot]
      simp [Ne.symm hkey]

/-- Later calls on a deleted context: the overall status is not set, but an app is added. -/
def lateCalls : List Visit :=
  [⟨.look .appNames, {}⟩, ⟨.setStatus .terminated, {}⟩,
    ⟨.upsert (.app (Handle.root "1") "net"), {}⟩]

/-- Of these calls only the last one can bring the context back. -/
theorem deletion_final_iff_lateCalls :
    let w := ((ofId "1").delete.run World.siblings).2
    w.contexts.Vacant "1" ∧
    ((∀ before, before <+: lateCalls → (visited "1" w before).contexts.Vacant "1") ↔
      ∀ before v, before ++ [v] <+: lateCalls → ¬ v.Revives "1" (visited "1" w before)) := by
  intro w
  have hdelete : (ofId "1").delete.run World.siblings = (.ok (), w) :=
    Prod.ext (by decide) rfl
  obtain ⟨hvacant, hiff, -⟩ :=
    deletion_final_iff World.siblings_undisturbed.faithful hdelete lateCalls
  exact ⟨hvacant, hiff⟩

/-- A status that is written after the deletion is stored, where neither loading nor deleting finds
    it; and a value that is stored at the root brings the context back. -/
theorem status_outlives_deletion :
    let status := (Handle.root "1").leaf "status"
    let w := ((ofId "1").delete.run World.siblings).2
    let late := ((ofId "1").updateStatus status ContextStatus.terminated.document).run w
    let again := ((ofId "1").nodes.updateValue (Handle.root "1") (.string "1")).run w
    ((ofId "1").delete.run World.siblings).1 = .ok () ∧
    w.contexts.keys = ["/context/12/", "/context/12/app/net1/"] ∧
    late.1 = .ok () ∧
    late.2.contexts.keys = ["/context/1/status/", "/context/12/", "/context/12/app/net1/"] ∧
    ((fromId "1").run late.2).1 = .error (.notFound "AppContext" "1") ∧
    ((ofId "1").delete.run late.2).1 = .error (.notFound "AppContext" "1") ∧
    again.1 = .ok () ∧ ((fromId "1").run again.2).1 = .ok (ofId "1") := by
  decide

end AppContext

end NetIntent
