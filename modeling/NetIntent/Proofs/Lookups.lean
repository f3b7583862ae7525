import NetIntent.Proofs.ContextFrame
import NetIntent.Proofs.Undisturbed

namespace NetIntent

/-!
# Looking up changes nothing and sees no other context

* `RunContext.SeenAlike` — worlds that hold the same of the context that is looked at;
* `RunContext.NodeAlike` — worlds that hold the same at one node;
* `RunContext.rawValue_looks`, `AppContext.observe_looks`, … — walks through a context;
* `gather_looks` — a report walks through one context, changes nothing in it, and sees nothing else;
* `Deployment.status_readOnly` — a report on the intents of a cluster changes nothing;
* `getProviders_readOnly`, `getClusters_readOnly` — the same for lists of providers and clusters.
-/

open Op

variable {alike : World → World → Prop}

/-- Worlds that are alike hold the same of the context that this one is bound to. -/
def RunContext.SeenAlike (c : RunContext) (alike : World → World → Prop) : Prop :=
  ∀ id, c.id? = some id → ∀ w w', alike w w' → w.contexts.Agree w'.contexts id

/-- Worlds that are alike hold the same at this node of the context. -/
def RunContext.NodeAlike (c : RunContext) (alike : World → World → Prop) (h : Handle) : Prop :=
  c.id? = some h.contextId → ∀ w w', alike w w' → w.contexts.get? h.key = w'.contexts.get? h.key

/-- Whatever a context holds, a world is like itself. -/
theorem RunContext.seenAlike_eq (c : RunContext) : c.SeenAlike Eq :=
  fun _ _ _ _ heq => heq ▸ .refl _ _

/-! ### Nodes -/

namespace RunContext

variable {c : RunContext} {α : Type} {h : Handle}

/-- If the whole context is seen alike, then so is each of its nodes. -/
theorem SeenAlike.node (hc : c.SeenAlike alike) (h : Handle) : c.NodeAlike alike h :=
  fun hid w w' halike => (hc _ hid w w' halike h.key (Handle.beginsWith_root_self h)).symm

/-- A handle of another context is refused. -/
theorem check_looks {next : Op α} (h : Handle) (hnext : c.id? = some h.contextId → next.Looks alike) :
    (Op.of (c.check h) >>= fun _ => next).Looks alike := by
  unfold check
  split
  · rename_i hid
    exact hnext hid
  · exact looks_throw _

section Node

variable (hnode : c.NodeAlike alike h)
include hnode

/-- Whether a node is there depends on it alone. -/
theorem nodeExists_looks_of : (c.nodeExists h).Looks alike :=
  check_looks h fun hid => (Op.getNode_looks (hnode hid)).bind fun _ => looks_pure _

/-- The value of a node depends on it alone. -/
theorem rawValue_looks_of : (c.rawValue h).Looks alike := by
  refine check_looks h fun hid => (Op.getNode_looks (hnode hid)).bind fun found => ?_
  cases found with
  | none => exact looks_throw _
  | some v => exact looks_pure v

/-- The decoded value of a node depends on it alone. -/
theorem value_looks_of (read : Json → Option α) : (c.value read h).Looks alike := by
  refine (rawValue_looks_of hnode).bind fun raw => ?_
  cases read raw with
  | none => exact looks_throw _
  | some a => exact looks_pure a

end Node

/-- The root of a context is found as it is stored. -/
theorem root_looks_of (hroot : ∀ id, c.id? = some id → c.NodeAlike alike (Handle.root id)) :
    c.root.Looks alike := by
  unfold root boundRoot
  cases hid : c.id? with
  | none => exact looks_throw _
  | some id =>
    refine (Op.getNode_looks (hroot id hid hid)).bind fun found => ?_
    cases found with
    | none => exact looks_throw _
    | some v =>
      dsimp only
      split
      · exact looks_pure _
      · exact looks_throw _

variable (hc : c.SeenAlike alike) (h : Handle)
include hc

/-- The value of a node depends on its context only. -/
theorem rawValue_looks : (c.rawValue h).Looks alike := rawValue_looks_of (hc.node h)

/-- The decoded value of a node depends on its context only. -/
theorem value_looks (read : Json → Option α) : (c.value read h).Looks alike :=
  value_looks_of (hc.node h) read

/-- The handles beneath a node depend on its context only. -/
theorem handles_looks : (c.handles h).Looks alike := by
  refine check_looks h fun hid => (nodeKeys_looks ?_).bind fun _ => looks_of _
  intro w w' halike
  exact OrderedMap.scan_congr fun key hkey =>
    (hc _ hid w w' halike key (Handle.beginsWith_root_of_beginsWith hkey)).symm

omit h in
/-- The root depends on its context only. -/
theorem root_looks : c.root.Looks alike := root_looks_of fun id _ => hc.node (Handle.root id)

end RunContext

/-! ### Handles and names -/

namespace AppContext

/-- A context is loaded as it is stored. -/
theorem fromId_looks {id : String}
    (hid : ∀ w w', alike w w' → w.contexts.Agree w'.contexts id) :
    (AppContext.fromId id).Looks alike := by
  by_cases hvalid : RunContext.isValidId id = true
  · rw [fromId_eq hvalid]
    refine (RunContext.root_looks fun id' hid' => ?_).bind fun _ => looks_pure _
    rw [← Option.some.inj hid']
    exact hid
  · obtain ⟨e, -, hfails⟩ := fromId_of_invalid hvalid
    rw [hfails]
    exact looks_throw e

/-- What comes after a context was loaded looks at that context. -/
theorem fromId_step {α : Type} {next : AppContext → Op α} {id : String}
    (hid : ∀ w w', alike w w' → w.contexts.Agree w'.contexts id)
    (hnext : ∀ c : AppContext, c.nodes.SeenAlike (fun w w' => alike w w' ∧ c = ofId id) →
      (next c).Looks fun w w' => alike w w' ∧ c = ofId id) :
    (AppContext.fromId id >>= next).Looks alike := by
  refine (fromId_looks hid).step ((fromId_reads id).mono fun _ _ h => h.1) fun c => hnext c ?_
  intro id' hid' w w' halike
  obtain ⟨halike, rfl⟩ := halike
  rw [← Option.some.inj hid']
  exact hid w w' halike

variable {c : AppContext}

/-- Whether a handle is found depends on its node alone. -/
theorem existing_looks_of {h : Handle} (hnode : c.nodes.NodeAlike alike h) (level : String) :
    (c.existing h level).Looks alike := by
  refine (RunContext.nodeExists_looks_of hnode).bind fun found => ?_
  cases found with
  | false => exact looks_throw _
  | true => exact looks_pure h

/-- The status of a resource is looked for at one leaf. -/
theorem installStatus_looks_of {h : Handle} (hleaf : c.nodes.NodeAlike alike (h.leaf "status")) :
    (c.installStatus h).Looks alike := by
  have hfound : (c.getLevelHandle h "status").Looks alike :=
    (looks_of _).bind fun _ => existing_looks_of hleaf "status"
  have hreads : (c.getLevelHandle h "status").Reads fun _ found => found = h.leaf "status" :=
    (readOnly_of _).step fun _ => (existing_reads _ _ _).mono fun _ _ hfound _ => hfound
  refine hfound.attempt.step (Answers.attempt hreads) fun r => ?_
  split
  · -- the handle that is found is that of the leaf
    rename_i status
    refine (RunContext.value_looks_of (h := status) ?_ _).bind fun _ => looks_pure _
    intro hid w w' h
    obtain rfl := h.2 status rfl
    exact hleaf hid w w' h.1
  · exact looks_pure _
  · exact looks_throw _

/-- A resource is observed at its node and at the leaf of its status. -/
theorem observe_looks_of {h : Handle} (hnode : c.nodes.NodeAlike alike h)
    (hleaf : c.nodes.NodeAlike alike (h.leaf "status")) : (c.observe h).Looks alike := by
  refine (RunContext.rawValue_looks_of hnode).attempt.bind fun r => ?_
  split
  · refine (installStatus_looks_of hleaf).attempt.bind fun status => ?_
    split
    · exact looks_pure _
    · exact looks_pure _
  · exact looks_pure _

variable (hc : c.nodes.SeenAlike alike)
include hc

/-- Whether a handle is found depends on its context only. -/
theorem existing_looks (h : Handle) (level : String) : (c.existing h level).Looks alike :=
  existing_looks_of (hc.node h) level

/-- A leaf is found as its context says. -/
theorem getLevelHandle_looks (h : Handle) (word : String) :
    (c.getLevelHandle h word).Looks alike :=
  (looks_of _).bind fun _ => existing_looks hc _ _

/-- The overall status is read as the context says. -/
theorem overallStatus_looks : c.overallStatus.Looks alike :=
  (RunContext.root_looks hc).bind fun root => (getLevelHandle_looks hc root _).bind fun _ =>
    RunContext.value_looks hc _ _

/-- The names beneath a node depend on its context only. -/
theorem childNames_looks (parent : Handle) (level : String) :
    (c.childNames parent level).Looks alike :=
  (RunContext.handles_looks hc parent).bind fun _ => looks_pure _

/-- An app is found as its context says. -/
theorem getAppHandle_looks (app : String) : (c.getAppHandle app).Looks alike :=
  (looks_of _).bind fun _ => (RunContext.root_looks hc).bind fun _ => existing_looks hc _ _

/-- A cluster is found as its context says. -/
theorem getClusterHandle_looks (app cluster : String) :
    (c.getClusterHandle app cluster).Looks alike :=
  (looks_of _).bind fun _ => (getAppHandle_looks hc app).bind fun _ => existing_looks hc _ _

/-- The clusters of an app are listed as its context says. -/
theorem getClusterNames_looks (app : String) : (c.getClusterNames app).Looks alike :=
  (getAppHandle_looks hc app).bind fun _ => childNames_looks hc _ _

/-- The snapshot of a cluster is found as its context says. -/
theorem getClusterStatusHandle_looks (app cluster : String) :
    (c.getClusterStatusHandle app cluster).Looks alike :=
  (getClusterHandle_looks hc app cluster).bind fun _ => getLevelHandle_looks hc _ _

/-! ### Resources -/

/-- The status of a resource is read as its context says. -/
theorem installStatus_looks (h : Handle) : (c.installStatus h).Looks alike :=
  installStatus_looks_of (hc.node _)

/-- A resource is observed as its context says. -/
theorem observe_looks (h : Handle) : (c.observe h).Looks alike :=
  observe_looks_of (hc.node h) (hc.node _)

/-- Several resources are observed as their context says. -/
theorem observeAll_looks (handles : List Handle) : (c.observeAll handles).Looks alike := by
  induction handles with
  | nil => exact looks_pure _
  | cons h handles ih =>
    exact (observe_looks hc h).bind fun _ => ih.bind fun _ => looks_pure _

/-- The resources of a cluster are observed as their context says. -/
theorem observeCluster_looks (cluster : Handle) : (c.observeCluster cluster).Looks alike :=
  (RunContext.handles_looks hc cluster).bind fun _ => observeAll_looks hc _

/-- The snapshot of a cluster is read as its context says. -/
theorem snapshot_looks (app cluster : String) : (c.snapshot app cluster).Looks alike := by
  refine (getClusterStatusHandle_looks hc app cluster).attempt.bind fun r => ?_
  split
  · exact looks_pure _
  · refine (RunContext.rawValue_looks hc _).attempt.bind fun value => ?_
    split
    · exact looks_pure _
    · exact looks_pure _

end AppContext

/-- The status of a context is that of its root. -/
theorem AppContext.statusOf_looks {id : String}
    (hid : ∀ w w', alike w w' → w.contexts.Agree w'.contexts id) :
    (AppContext.statusOf id).Looks alike :=
  fromId_step hid fun _ hc => overallStatus_looks hc

/-! ### Reports -/

section Reports

variable {c : AppContext} (hc : c.nodes.SeenAlike alike) (q : StatusQuery)
include hc

/-- What is reported of the observed resources of a cluster depends on their context only. -/
theorem contextResources_looks (cluster : Handle) (output : StatusOutput)
    (filter : List String) (counts : Counts) :
    (contextResources c cluster output filter counts).Looks alike :=
  (AppContext.observeCluster_looks hc cluster).bind fun _ => looks_pure _

/-- What is reported of a cluster depends on its context only. -/
theorem clusterResources_looks (app cluster : String) (counts : Counts) :
    (clusterResources c q app cluster counts).Looks alike := by
  unfold clusterResources
  split
  · refine (AppContext.getClusterHandle_looks hc app cluster).attempt.bind fun r => ?_
    split
    · exact looks_pure _
    · refine (contextResources_looks hc _ _ _ _).attempt.bind fun found => ?_
      split
      · exact looks_pure _
      · exact looks_pure _
  · refine (AppContext.snapshot_looks hc app cluster).bind fun found => ?_
    split
    · exact looks_pure _
    · exact looks_pure _

/-- What is reported of the clusters of an app depends on their context only. -/
theorem clusterReports_looks (app : String) (clusters : List String) (counts : Counts) :
    (clusterReports c q app clusters counts).Looks alike := by
  induction clusters generalizing counts with
  | nil => exact looks_pure _
  | cons cluster clusters ih =>
    exact (clusterResources_looks hc q app cluster counts).bind fun _ => (ih _).bind fun _ =>
      looks_pure _

/-- What is reported of apps depends on their context only. -/
theorem appReports_looks (apps : List String) (counts : Counts) :
    (appReports c q apps counts).Looks alike := by
  induction apps generalizing counts with
  | nil => exact looks_pure _
  | cons app apps ih =>
    refine (AppContext.getClusterNames_looks hc app).attempt.bind fun r => ?_
    split
    · exact ih counts
    · exact (clusterReports_looks hc q app _ counts).bind fun _ => (ih _).bind fun _ =>
        looks_pure _

end Reports

section Gather

variable (q : StatusQuery)

/-- A report looks at the context that the query names, or at the last one of the ledger. -/
theorem gather_looks (l : Ledger) (apps : List String)
    (hid : ∀ w w', alike w w' →
      w.contexts.Agree w'.contexts (if q.contextId = "" then l.lastId else q.contextId)) :
    (gather l apps q).Looks alike := by
  refine AppContext.fromId_step hid fun c hc => (AppContext.overallStatus_looks hc).bind fun _ =>
    (appReports_looks hc q _ _).bind fun found => ?_
  cases q.source with
  | rsync => exact looks_pure _
  | cluster => exact looks_pure _

/-- A report on the intents of a cluster looks at its ledger and at one context. -/
theorem Deployment.status_looks {p c : String}
    (hledger : p ≠ "" → c ≠ "" → FoundAlike alike (Registry.clusterKey p c) Registry.ledgerTag)
    (hid : ∀ w w' l, alike w w' → (w.documents.Filed → w.documents.ledger? p c = some l) →
      ¬ (q.contextId = "" ∧ l.lastId = "") →
      w.contexts.Agree w'.contexts (if q.contextId = "" then l.lastId else q.contextId)) :
    (Deployment.status p c q).Looks alike := by
  refine (getLedger_looks hledger).step (getLedger_reads p c) fun l => ?_
  split
  · exact looks_throw _
  · rename_i hnamed
    exact (gather_looks q l _ fun w w' h => hid w w' l h.1 h.2.2.2 hnamed).bind fun _ =>
      looks_pure _

/-- To ask for the status of a cluster changes nothing. -/
theorem Deployment.status_readOnly (p c : String) : (Deployment.status p c q).ReadOnly :=
  (Deployment.status_looks q (fun _ _ => foundAlike_eq _ _) fun _ _ _ h _ _ => h ▸ .refl _ _).readOnly

end Gather

/-! ### Providers and clusters -/

/-- To list the providers changes nothing. -/
theorem getProviders_readOnly : getProviders.ReadOnly :=
  (Registry.findAll_reads _ _ _).readOnly

/-- To list the clusters changes nothing. -/
theorem getClusters_readOnly (p : String) : (getClusters p).ReadOnly :=
  (Registry.findAll_reads _ _ _).readOnly

end NetIntent
