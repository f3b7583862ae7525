import NetIntent.Proofs.Deletion
import NetIntent.Proofs.Installed
import NetIntent.Proofs.Requests
import NetIntent.Proofs.Statuses

namespace NetIntent

/-!
# Applying, terminating and deleting while the stores answer

The three operations on a whole cluster, with their results and the world afterwards, where nothing
on the way can fail.

* `Op.Fills` — the operation stores nodes one after the other;
* `buildContext_fills` — a context is built whose names can be words of keys: its instructions are
  always JSON texts;
* `run_getAll` — the intents that are declared are found;
* `Deployment.run_commit`, `run_apply` — a context is built, recorded, and asked for;
* `Deployment.run_terminate` — a context is given back, and its termination recorded;
* `run_deleteCluster_of_vacant` — a cluster is deleted of which no context is left.
-/

open Op Registry

/-! ### Storing nodes -/

namespace Op

variable {α β : Type} {op : Op α} {next : α → Op β} {nodes more : List (Handle × Json)} {a : α}
  {b : β}

/-- While the stores answer, the operation stores nodes one after the other, and has the result. -/
def Fills (op : Op α) (nodes : List (Handle × Json)) (a : α) : Prop :=
  ∀ w : World, w.Undisturbed →
    op.run w = (.ok a, w.withContexts (w.contexts.withNodes nodes))

/-- A result fills no node. -/
theorem fills_pure (a : α) : (pure a : Op α).Fills [] a := fun _ _ => rfl

/-- Two operations fill the nodes of both, one after the other. -/
theorem Fills.bind (h : op.Fills nodes a) (hnext : (next a).Fills more b) :
    (op >>= next).Fills (nodes ++ more) b := by
  intro w hw
  rw [run_bind_ok (h w hw), hnext _ (hw.withContexts _), ContextStore.withNodes_append]
  rfl

/-- The same for a list of nodes that is put together from both. -/
theorem Fills.step {all : List (Handle × Json)} (h : op.Fills nodes a) (hall : all = nodes ++ more)
    (hnext : (next a).Fills more b) : (op >>= next).Fills all b :=
  hall ▸ h.bind hnext

/-- Storing a node fills it. -/
theorem putNode_fills (h : Handle) (value : Json) : (putNode h.key value).Fills [(h, value)] () :=
  fun _ hw => run_onContexts hw _ _ _

/-- A node is stored and is the result. -/
theorem storeNode_fills (h : Handle) (value : Json) :
    (putNode h.key value >>= fun _ => pure h : Op Handle).Fills [(h, value)] h :=
  (putNode_fills h value).step rfl (fills_pure h)

end Op

namespace RunContext

variable {id : String} {h : Handle} (hid : h.contextId = id)
include hid

/-- A handle of the context is accepted. -/
theorem check_of_eq : RunContext.check ⟨some id⟩ h = .ok () := if_pos (congrArg some hid.symm)

/-- A named level with a proper name is filled. -/
theorem addLevel_fills {level name : String} (hlevel : level ∈ namedLevels)
    (hname : validateName level name = .ok ()) :
    (RunContext.addLevel ⟨some id⟩ h level name).Fills [(h.child level name, .string name)]
      (h.child level name) := by
  unfold RunContext.addLevel
  rw [check_of_eq hid, of_ok_bind, if_neg (not_not.2 hlevel), hname]
  exact storeNode_fills _ _

/-- A leaf with a proper word and a value is filled. -/
theorem addOneLevel_fills {word : String} {value : Json} (hword : validateName "level" word = .ok ())
    (hnamed : word ∉ namedLevels) (hvalue : value ≠ .null) :
    (RunContext.addOneLevel ⟨some id⟩ h word value).Fills [(h.leaf word, value)] (h.leaf word) := by
  unfold RunContext.addOneLevel
  rw [check_of_eq hid, of_ok_bind, hword, of_ok_bind, if_neg hnamed, if_neg hvalue]
  exact storeNode_fills _ _

/-- A resource with a proper name is filled. -/
theorem addResource_fills {name value : String} (hname : validateName "resource" name = .ok ()) :
    (RunContext.addResource ⟨some id⟩ h name (.string value)).Fills
      [(h.child "resource" name, .string value)] (h.child "resource" name) := by
  have hvalue : Json.string value ≠ .null := by simp
  unfold RunContext.addResource
  rw [check_of_eq hid, of_ok_bind, hname, of_ok_bind, if_neg hvalue]
  exact storeNode_fills _ _

/-- An instruction of a level is filled. -/
theorem addInstruction_fills (level : InstructionLevel) (kind : InstructionKind) (value : String) :
    (RunContext.addInstruction ⟨some id⟩ h level.name kind.name (.string value)).Fills
      [(h.instruction level.name kind.name, .string value)]
      (h.instruction level.name kind.name) := by
  have hlevel : validateName "level" level.name = .ok () := by cases level <;> decide
  have hkind : validateName "instruction type" kind.name = .ok () := by cases kind <;> decide
  have hvalue : Json.string value ≠ .null := by simp
  unfold RunContext.addInstruction
  rw [check_of_eq hid, of_ok_bind, hlevel, of_ok_bind, hkind, of_ok_bind, if_neg hvalue]
  exact storeNode_fills _ _

end RunContext

namespace AppContext

variable {id : String} {h : Handle}

/-- A context is begun with its root and the status there. -/
theorem begin_fills {β : Type} {next : Handle → Op β} {more : List (Handle × Json)} {b : β}
    (status : ContextStatus) (hnext : (next (Handle.root id)).Fills more b) :
    (do
      let root ← (AppContext.ofId id).create
      let _ ← (AppContext.ofId id).setStatus status
      next root : Op β).Fills
        ((Handle.root id, .string id) :: ((Handle.root id).leaf "status", status.document) :: more)
        b := by
  have hcreate : (AppContext.ofId id).create.Fills [(Handle.root id, .string id)]
      (Handle.root id) := storeNode_fills _ _
  have hleaf : (RunContext.addOneLevel ⟨some id⟩ (Handle.root id) "status" status.document).Fills
      [((Handle.root id).leaf "status", status.document)] ((Handle.root id).leaf "status") :=
    RunContext.addOneLevel_fills rfl (by decide) (by decide) (by cases status <;> decide)
  intro w hw
  have hw₁ := hw.withContexts (w.contexts.withNodes [(Handle.root id, .string id)])
  -- The status is set below the root that was stored just now.
  have hroot : ContextStore.Rooted (w.contexts.withNodes [(Handle.root id, .string id)]) id :=
    (OrderedMap.get?_insert _ _ _ _).trans (if_pos rfl)
  have hstatus : ((AppContext.ofId id).setStatus status).run
      (w.withContexts (w.contexts.withNodes [(Handle.root id, .string id)]))
      = (RunContext.addOneLevel ⟨some id⟩ (Handle.root id) "status" status.document).run
        (w.withContexts (w.contexts.withNodes [(Handle.root id, .string id)])) :=
    run_bind_ok (RunContext.run_root_of_rooted hw₁ hroot)
  rw [run_bind_ok (hcreate w hw), run_bind_ok (hstatus.trans (hleaf _ hw₁)),
    hnext _ (hw₁.withContexts _)]
  rfl

variable (hid : h.contextId = id)
include hid

/-- An app with a proper name is filled under the root. -/
theorem addApp_fills {name : String} (hroot : h.isRoot = true)
    (hname : validateName "app" name = .ok ()) :
    ((AppContext.ofId id).addApp h name).Fills [(h.child "app" name, .string name)]
      (h.child "app" name) := by
  unfold AppContext.addApp
  rw [expectRoot, if_pos hroot, of_ok_bind]
  exact RunContext.addLevel_fills hid (by decide) hname

/-- A cluster with a proper name is filled under an app. -/
theorem addCluster_fills {name : String} (hlevel : (h.nameAt? "app").isSome = true)
    (hname : validateName "cluster" name = .ok ()) :
    ((AppContext.ofId id).addCluster h name).Fills [(h.child "cluster" name, .string name)]
      (h.child "cluster" name) := by
  unfold AppContext.addCluster
  rw [expectLevel, if_pos hlevel, of_ok_bind]
  exact RunContext.addLevel_fills hid (by decide) hname

/-- A resource with a proper name is filled under a cluster. -/
theorem addResource_fills {name value : String} (hlevel : (h.nameAt? "cluster").isSome = true)
    (hname : validateName "resource" name = .ok ()) :
    ((AppContext.ofId id).addResource h name value).Fills
      [(h.child "resource" name, .string value)] (h.child "resource" name) := by
  unfold AppContext.addResource
  rw [expectLevel, if_pos hlevel, of_ok_bind]
  exact RunContext.addResource_fills hid hname

/-- An instruction that is a JSON text is filled at its place. -/
theorem addInstruction_fills {level : InstructionLevel} {kind : InstructionKind} {value : String}
    (hplace : expectPlace h level = .ok ()) (htext : (Json.ofText? value).isSome = true) :
    ((AppContext.ofId id).addInstruction h level kind value).Fills
      [(h.instruction level.name kind.name, .string value)]
      (h.instruction level.name kind.name) := by
  unfold AppContext.addInstruction
  rw [hplace, of_ok_bind, expectJsonText, if_pos htext, of_ok_bind]
  exact RunContext.addInstruction_fills hid level kind value

end AppContext

/-! ### Building a context -/

namespace Deployment

variable {resources : List Rendered}

/-- The order of resources is written as a JSON text. -/
theorem resourceOrder_legible (resources : List Rendered) :
    (Json.ofText? (resourceOrder resources)).isSome = true := by
  have hlegible : (Json.ofMembers
      [("resorder", Json.ofStrings (resources.map (·.name)))]).Legible 2 := by
    refine Json.legible_ofMembers fun e he => ?_
    obtain rfl := List.mem_singleton.1 he
    refine Json.legible_array fun v hv => ?_
    obtain ⟨name, -, rfl⟩ := List.mem_map.1 hv
    exact Json.legible_string name 0
  rw [resourceOrder, hlegible.ofText?_text (by decide)]
  rfl

/-- The dependencies of resources are written as a JSON text. -/
theorem resourceDependency_legible (resources : List Rendered) :
    (Json.ofText? (resourceDependency resources)).isSome = true := by
  have hlegible : (Json.ofMembers
      [("resdependency", Json.ofMembers (resources.map fun r => (r.name, independent)))]).Legible
        2 := by
    refine Json.legible_ofMembers fun e he => ?_
    obtain rfl := List.mem_singleton.1 he
    refine Json.legible_ofMembers fun e he => ?_
    obtain ⟨r, -, rfl⟩ := List.mem_map.1 he
    exact Json.legible_string "go" 0
  rw [resourceDependency, hlegible.ofText?_text (by decide)]
  rfl

/-- Resources with proper names are filled under their cluster. -/
theorem addResources_fills {id : String} {h : Handle} (hid : h.contextId = id)
    (hlevel : (h.nameAt? "cluster").isSome = true)
    (hnames : ∀ r ∈ resources, validateName "resource" r.name = .ok ()) :
    (addResources (.ofId id) h resources).Fills
      (resources.map fun r => (h.child "resource" r.name, .string r.text)) () := by
  induction resources with
  | nil => exact fills_pure ()
  | cons r resources ih =>
    obtain ⟨hr, hnames⟩ := List.forall_mem_cons.1 hnames
    exact (AppContext.addResource_fills hid hlevel hr).step rfl (ih hnames)

/-- A context is built if its names can be words of keys. Its instructions are always JSON texts. -/
theorem buildContext_fills (id : String) {cluster : String}
    (hcluster : validateName "cluster" cluster = .ok ())
    (hnames : ∀ r ∈ resources, validateName "resource" r.name = .ok ()) :
    (buildContext (.ofId id) cluster resources).Fills (contextNodes id cluster resources) () := by
  have happ : (((Handle.root id).child "app" networkApp).nameAt? "app").isSome = true := rfl
  have hlevel : ((clusterHandle id cluster).nameAt? "cluster").isSome = true := rfl
  have hplace : AppContext.expectPlace (clusterHandle id cluster) .resource = .ok () := rfl
  -- The instructions for the resources come last.
  have hinstructions : (do
      let _ ← (AppContext.ofId id).addInstruction (clusterHandle id cluster) .resource .order
        (resourceOrder resources)
      let _ ← (AppContext.ofId id).addInstruction (clusterHandle id cluster) .resource .dependency
        (resourceDependency resources)
      return () : Op Unit).Fills (resourceInstructions id cluster resources) () := by
    refine (AppContext.addInstruction_fills rfl hplace (resourceOrder_legible _)).step rfl ?_
    refine (AppContext.addInstruction_fills rfl hplace (resourceDependency_legible _)).step rfl ?_
    exact fills_pure ()
  unfold buildContext
  rw [contextNodes, List.append_assoc]
  refine AppContext.begin_fills .instantiating ?_
  refine (AppContext.addApp_fills rfl rfl (by decide)).step rfl ?_
  refine (AppContext.addInstruction_fills rfl rfl (by decide +kernel)).step rfl ?_
  refine (AppContext.addInstruction_fills rfl rfl (by decide +kernel)).step rfl ?_
  refine (AppContext.addCluster_fills rfl happ hcluster).step rfl ?_
  exact (addResources_fills rfl hlevel hnames).step rfl hinstructions

end Deployment

/-! ### What the operations come to -/

/-- The world after a context was built for a cluster and recorded. -/
def World.recording (w : World) (p c : String) (l : Ledger) (resources : List Rendered) : World :=
  (w.minting.withContexts (w.contexts.built (w.contextId w.minted) (contextClusterName p c)
    resources)).withDocuments
      (w.documents.withLedger p c (l.append .applied (w.contextId w.minted) w.now))

/-- The stores of a world in which a context was recorded are its stores with that context. -/
@[simp] theorem World.stores_recording (w : World) (p c : String) (l : Ledger)
    (resources : List Rendered) :
    (w.recording p c l resources).stores = w.stores.recording p c l resources w.now := rfl

/-- The world after the termination of a cluster was recorded and its last context was deleted. -/
def World.concluding (w : World) (p c : String) (l : Ledger) : World :=
  (w.withDocuments (w.documents.withLedger p c (l.append .terminated l.lastId w.now))).withContexts
    (w.contexts.eraseScan (Handle.root l.lastId).key)

section Runs

variable {α : Type} [Intent α] {w : World} {p c : String} {l : Ledger}

/-- What is declared for a cluster is found. -/
theorem run_getAll (kind : IntentKind α) (hw : w.Undisturbed) (hfiled : w.documents.Filed)
    (htidy : w.documents.Tidy) (hp : p ≠ "") (hc : c ≠ "") :
    ∃ intents : List α, (Intent.getAll α p c).run w = (.ok intents, w) ∧
      w.documents.Declares p c intents := by
  obtain ⟨intents, hfound, hdeclared⟩ := DocumentStore.exists_declared hfiled htidy kind hp hc
  refine ⟨intents, ?_, hdeclared⟩
  unfold Intent.getAll findAll
  rw [if_neg (not_or.2 ⟨hp, hc⟩), run_bind_ok (run_findDocuments hw _ _ _), hfound]
  rfl

namespace Deployment

/-- Before a context is built, the ledger is read and what is declared. -/
theorem run_survey (hw : w.Undisturbed) (hfiled : w.documents.Filed) (htidy : w.documents.Tidy)
    (hp : p ≠ "") (hc : c ≠ "") (hl : w.documents.ledger? p c = some l)
    (hidle : l.current = .ok .created ∨ l.current = .ok .terminated)
    (hsync : w.synchronizer.isSome = true) :
    ∃ (networks : List Network) (providerNetworks : List ProviderNetwork),
      (survey p c).run w = (.ok (l, render networks ++ render providerNetworks), w) ∧
        w.documents.Declares p c networks ∧ w.documents.Declares p c providerNetworks := by
  obtain ⟨state, hcheck⟩ := Lifecycle.check_of_idle (contextClusterName p c) hidle
    (show ClusterOperation.apply ≠ .terminate by decide)
  obtain ⟨networks, hnetworks, hdeclared⟩ := run_getAll .network hw hfiled htidy hp hc
  obtain ⟨providerNetworks, hproviderNetworks, hproviderDeclared⟩ :=
    run_getAll .providerNetwork hw hfiled htidy hp hc
  refine ⟨networks, providerNetworks, ?_, hdeclared, hproviderDeclared⟩
  unfold survey
  rw [run_bind_ok (run_checkCluster hw hfiled hp hc hl hcheck)]
  exact (run_bind_ok (run_requireSynchronizer hsync)).trans
    ((run_bind_ok hnetworks).trans (run_bind_ok hproviderNetworks))

/-- What is read before a context is built are the documents of the cluster. -/
theorem survey_looks {alike : World → World → Prop}
    (hledger : p ≠ "" → c ≠ "" → FoundAlike alike (clusterKey p c) ledgerTag)
    (hsync : ∀ w w', alike w w' → w.synchronizer.isSome = w'.synchronizer.isSome)
    (hnetworks : p ≠ "" → c ≠ "" →
      FoundAlike alike (Intent.key Network p c "") (Intent.tag Network))
    (hproviderNetworks : p ≠ "" → c ≠ "" →
      FoundAlike alike (Intent.key ProviderNetwork p c "") (Intent.tag ProviderNetwork)) :
    (survey p c).Looks alike :=
  (checkCluster_looks .apply hledger).bind fun _ => (requireSynchronizer_looks hsync).bind fun _ =>
    (Intent.getAll_looks hnetworks).bind fun _ => (Intent.getAll_looks hproviderNetworks).bind fun _ =>
      looks_pure _

/-- A context is built and recorded. -/
theorem run_commit {resources : List Rendered} (hw : w.Undisturbed) (hfiled : w.documents.Filed)
    (hp : p ≠ "") (hc : c ≠ "") (hl : w.documents.ledger? p c = some l)
    (hsurvey : (survey p c).run w = (.ok (l, resources), w))
    (hcluster : validateName "cluster" (contextClusterName p c) = .ok ())
    (hnames : ∀ r ∈ resources, validateName "resource" r.name = .ok ()) :
    (commit p c).run w = (.ok (w.contextId w.minted), w.recording p c l resources) := by
  have hw₁ : w.minting.Undisturbed := ⟨hw.faults, hw.contexts_open, hw.documents_open⟩
  have hbuilt : (build p c l resources (w.contextId w.minted)).run w.minting
      = (.ok (), w.recording p c l resources) := by
    unfold build
    rw [run_bind_ok (buildContext_fills _ hcluster hnames w.minting hw₁),
      run_record (hw₁.withContexts _) hfiled hp hc hl, World.recording, ContextStore.built]
    rfl
  rw [commit_eq, run_bind_ok hsurvey]
  exact (run_bind_ok run_mintId).trans (run_attempt_bind hbuilt)

/-- Applying is to build and record a context, and then to ask for it. -/
theorem run_apply {id : String} {w₁ : World} (hcommit : (commit p c).run w = (.ok id, w₁))
    (cancellation : Cancellation) :
    (apply p c cancellation).run w
      = (((ask .install id cancellation).run w₁).1.map fun _ => id,
          ((ask .install id cancellation).run w₁).2) := by
  unfold apply
  rw [run_bind_ok hcommit, run_bind]
  rcases (ask .install id cancellation).run w₁ with ⟨r, w₂⟩
  cases r <;> rfl

/-- What is read before a context is given back are the ledger and that context. -/
theorem retrieve_looks {alike : World → World → Prop}
    (hledger : p ≠ "" → c ≠ "" → FoundAlike alike (clusterKey p c) ledgerTag)
    (hsync : ∀ w w', alike w w' → w.synchronizer.isSome = w'.synchronizer.isSome)
    (hcontext : ∀ w w' l, alike w w' → (w.documents.Filed → w.documents.ledger? p c = some l) →
      l.current = .ok .applied → w.contexts.Agree w'.contexts l.lastId) :
    (retrieve p c).Looks alike := by
  refine (checkCluster_looks .terminate hledger).step (checkCluster_reads p c .terminate)
    fun (l, state) => ?_
  refine (requireSynchronizer_looks fun w w' h => hsync w w' h.1).bind fun _ =>
    (AppContext.fromId_looks ?_).bind fun _ => looks_pure _
  intro w w' h
  obtain ⟨halike, -, -, hl, hcurrent, hstate⟩ := h
  -- Only an applied cluster passes the check.
  rw [hstate.2 rfl] at hcurrent
  exact hcontext w w' l halike hl hcurrent

/-- The last context of an applied cluster is loaded. -/
theorem run_retrieve (hw : w.Undisturbed) (hfiled : w.documents.Filed) (hp : p ≠ "") (hc : c ≠ "")
    (hl : w.documents.ledger? p c = some l) (hcurrent : l.current = .ok .applied)
    (hsync : w.synchronizer.isSome = true) (hid : RunContext.isValidId l.lastId = true)
    (hroot : w.contexts.Rooted l.lastId) :
    (retrieve p c).run w = (.ok (l, .ofId l.lastId), w) := by
  have hcheck : Lifecycle.check (contextClusterName p c) l .terminate = .ok .applied := by
    simp [Lifecycle.check, ClusterState.ofLedger, hcurrent, ClusterState.ofLedgerState?,
      Lifecycle.allowed]
  unfold retrieve
  rw [run_bind_ok (run_checkCluster hw hfiled hp hc hl hcheck)]
  exact (run_bind_ok (run_requireSynchronizer hsync)).trans
    (run_bind_ok (AppContext.run_fromId hw hid hroot))

/-- The termination is recorded, and the context is deleted. -/
theorem run_conclude (hw : w.Undisturbed) (hfiled : w.documents.Filed) (hp : p ≠ "") (hc : c ≠ "")
    (hl : w.documents.ledger? p c = some l) (hroot : w.contexts.Rooted l.lastId) :
    (conclude p c l (.ofId l.lastId)).run w = (.ok (), w.concluding p c l) := by
  unfold conclude
  rw [run_bind_ok (run_record hw hfiled hp hc hl .terminated l.lastId)]
  exact run_attempt_bind (AppContext.run_delete (hw.withDocuments _) hroot)

/-- Terminating is to ask for it, and to record it if that is accepted. -/
theorem run_terminate (hw : w.Undisturbed) (hfiled : w.documents.Filed)
    (hretrieved : (retrieve p c).run w = (.ok (l, .ofId l.lastId), w)) (cancellation : Cancellation) :
    (terminate p c cancellation).run w =
      match (ask .uninstall l.lastId cancellation).run w with
      | (.ok _, w₁) => (.ok (), w₁.concluding p c l)
      | (.error e, w₁) => (.error e, w₁) := by
  obtain ⟨hl, -, -, hroot, hp, hc⟩ := (retrieve_reads p c).of_run hw hretrieved
  have hw₁ := ask_undisturbed .uninstall l.lastId cancellation hw
  obtain ⟨hstores, -⟩ := ask_ensures .uninstall l.lastId cancellation (w := w)
  rw [Ensures] at hw₁
  rw [terminate_eq, run_bind_ok hretrieved]
  show (ask .uninstall l.lastId cancellation >>= fun _ => conclude p c l (.ofId l.lastId) : Op Unit).run
    w = _
  rw [run_bind]
  rcases hask : (ask .uninstall l.lastId cancellation).run w with ⟨r, w₁⟩
  rw [hask] at hw₁ hstores
  cases r with
  | error e => rfl
  | ok u =>
    -- The request has changed nothing in the stores.
    have hdocuments : w₁.documents = w.documents := congrArg Stores.documents hstores
    have hcontexts : w₁.contexts = w.contexts := congrArg Stores.contexts hstores
    exact run_conclude hw₁ (hdocuments ▸ hfiled) hp hc (hdocuments ▸ hl hfiled)
      (hcontexts ▸ hroot)

end Deployment

end Runs

end NetIntent
