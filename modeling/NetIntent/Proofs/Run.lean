import Mathlib.Data.List.Induction
import NetIntent.Proofs.Deployment
import NetIntent.Proofs.Lookups

namespace NetIntent

/-!
# Runs of operations

A run is a list of operations on one world, each under its own circumstances: which calls of the
stores fail, how the synchronizer answers, and what time it is. Nothing else changes the stores.

* `Action`, `Circumstances`, `Step` — an operation, and what surrounds it;
* `History.after` — the world and the answers after a run;
* `Edit`, `Change` — all that one operation can do to the stores;
* `Lookup.readOnly` — a lookup does nothing to them;
* `History.change` — each step is one of these changes;
* `forall_prefix_iff` — what holds at first holds at all times, just if no step breaks it;
* `History.after_induction`, `stores_after` — what holds at first and is kept by each step, or by
  each change, holds after every run.
-/

open Registry Op

/-! ### Steps -/

/-- An operation that looks something up. -/
inductive Lookup where
  | provider (p : String)
  | providers
  | cluster (p c : String)
  | clusterContent (p c : String)
  | clusters (p : String)
  | ledger (p c : String)
  | network (n p c : String)
  | networks (p c : String)
  | providerNetwork (n p c : String)
  | providerNetworks (p c : String)
  | status (p c : String) (q : StatusQuery)

/-- An operation on providers, clusters and intents. -/
inductive Action where
  | createProvider (p : Provider)
  | deleteProvider (p : String)
  | createCluster (p : String) (c : Cluster) (content : ClusterContent)
  | deleteCluster (p c : String)
  | createNetwork (n : Network) (p c : String) (mayExist : Bool)
  | deleteNetwork (n p c : String)
  | createProviderNetwork (n : ProviderNetwork) (p c : String) (mayExist : Bool)
  | deleteProviderNetwork (n p c : String)
  | apply (p c : String) (cancellation : Cancellation)
  | terminate (p c : String) (cancellation : Cancellation)
  | look (lookup : Lookup)

/-- An operation whose result does not matter. -/
def Op.void {α : Type} (op : Op α) : Op Unit := do
  let _ ← op
  return ()

/-- What a lookup does. -/
def Lookup.perform : Lookup → Op Unit
  | provider p => (getProvider p).void
  | providers => getProviders.void
  | cluster p c => (getCluster p c).void
  | clusterContent p c => (getClusterContent p c).void
  | clusters p => (getClusters p).void
  | ledger p c => (getLedger p c).void
  | network n p c => (Intent.get Network n p c).void
  | networks p c => (Intent.getAll Network p c).void
  | providerNetwork n p c => (Intent.get ProviderNetwork n p c).void
  | providerNetworks p c => (Intent.getAll ProviderNetwork p c).void
  | status p c q => (Deployment.status p c q).void

/-- What an action does. -/
def Action.perform : Action → Op Unit
  | createProvider p => (NetIntent.createProvider p).void
  | deleteProvider p => (NetIntent.deleteProvider p).void
  | createCluster p c content => (NetIntent.createCluster p c content).void
  | deleteCluster p c => (NetIntent.deleteCluster p c).void
  | createNetwork n p c mayExist => (Intent.create n p c mayExist).void
  | deleteNetwork n p c => (Intent.delete Network n p c).void
  | createProviderNetwork n p c mayExist => (Intent.create n p c mayExist).void
  | deleteProviderNetwork n p c => (Intent.delete ProviderNetwork n p c).void
  | apply p c cancellation => (Deployment.apply p c cancellation).void
  | terminate p c cancellation => (Deployment.terminate p c cancellation).void
  | look lookup => lookup.perform

/-- Calls of one method that fail without effect: those that hold a piece of text, once some of
    them have passed, until a number of them has failed. -/
structure Outage where
  method : StoreMethod
  holds : String := ""
  skip : Nat := 0
  times : Nat := 1

/-- The fault that an outage is. -/
def Outage.fault (o : Outage) : Fault := ⟨o.method, o.holds, o.skip, o.times, .fail⟩

/-- A time that a clock shows. -/
def Moment : Type := { t : Timestamp // t.IsValid }

/-- The time from which seconds are counted. -/
def Moment.epoch : Moment := ⟨⟨0, 0⟩, by decide⟩

/-- What surrounds an operation: calls that fail without effect, the answer of the synchronizer, and
    the time of a clock. -/
structure Circumstances where
  outages : List Outage := []
  contextsClosed : Bool := false
  documentsClosed : Bool := false
  answer : Answer := .accept
  limitMs : Nat := 10000
  now : Moment := .epoch

/-- The world under new circumstances. -/
def World.under (w : World) (c : Circumstances) : World :=
  { w with
    faults := c.outages.map Outage.fault, contextsClosed := c.contextsClosed,
    documentsClosed := c.documentsClosed,
    synchronizer := w.synchronizer.map fun s => { s with answer := c.answer },
    limitMs := c.limitMs, now := c.now.1 }

/-- Outages are calls that fail without effect. -/
theorem World.faithful_under (w : World) (c : Circumstances) : (w.under c).Faithful := by
  intro f hf
  obtain ⟨o, -, rfl⟩ := List.mem_map.1 hf
  rfl

/-- An operation under its circumstances. -/
structure Step where
  action : Action
  circumstances : Circumstances := {}

/-- What a run has come to: the world, and the answers of its operations so far. -/
structure History where
  world : World
  answers : List (Except Failure Unit) := []

namespace History

/-- The stores after a run. -/
def stores (h : History) : Stores := h.world.stores

/-- One more operation. -/
def step (h : History) (s : Step) : History :=
  let out := s.action.perform.run (h.world.under s.circumstances)
  ⟨out.2, h.answers ++ [out.1]⟩

/-- The history without operations: empty stores, a supply of context ids, and perhaps a
    synchronizer. -/
def start (ids : Nat → String) (synchronizer : Option Synchronizer) : History :=
  ⟨{ contextId := ids, synchronizer := synchronizer }, []⟩

/-- The history of a run. -/
def after (ids : Nat → String) (synchronizer : Option Synchronizer) (steps : List Step) : History :=
  steps.foldl step (start ids synchronizer)

variable {ids : Nat → String} {synchronizer : Option Synchronizer}

/-- What holds at first and is kept by each step holds after every run. -/
theorem after_induction {P : History → Prop} (hstart : P (start ids synchronizer))
    (hstep : ∀ h s, P h → P (h.step s)) (steps : List Step) :
    P (after ids synchronizer steps) := by
  -- By induction on the steps, for every history that they may continue.
  have hfold : ∀ (steps : List Step) (h : History), P h → P (steps.foldl step h) := by
    intro steps
    induction steps with
    | nil => exact fun h hh => hh
    | cons s steps ih => exact fun h hh => ih _ (hstep h s hh)
  exact hfold steps _ hstart

end History

/-- At all times of a run a property holds that holds at first, just if no step breaks it. -/
theorem forall_prefix_iff {α : Type} {P : List α → Prop} {Breaks : List α → α → Prop}
    {steps : List α} (hnil : P [])
    (hstep : ∀ before s, before ++ [s] <+: steps → P before →
      (P (before ++ [s]) ↔ ¬ Breaks before s)) :
    (∀ before, before <+: steps → P before) ↔
      ∀ before s, before ++ [s] <+: steps → ¬ Breaks before s := by
  constructor
  · intro hall before s hbefore
    exact (hstep before s hbefore (hall before ((List.prefix_append _ _).trans hbefore))).1
      (hall _ hbefore)
  · -- by induction on the run so far, from its end
    intro hnone before
    induction before using List.reverseRecOn with
    | nil => exact fun _ => hnil
    | append_singleton before s ih =>
      intro hbefore
      exact (hstep before s hbefore (ih ((List.prefix_append _ _).trans hbefore))).2
        (hnone before s hbefore)

/-- A supply of context ids: one more letter each time. -/
def unaryId (n : Nat) : String := String.ofList (List.replicate (n + 1) 'a')

/-- Different numbers give different ids. -/
theorem unaryId_injective : Function.Injective unaryId := by
  intro m n h
  have hlength := congrArg (fun id => id.toList.length) h
  simpa [unaryId] using hlength

/-- No such id is empty. -/
theorem unaryId_ne_empty (n : Nat) : unaryId n ≠ "" := by
  intro h
  have hlength := congrArg (fun id => id.toList.length) h
  simp [unaryId] at hlength

/-! ### Changes -/

/-- The two kinds of intents. -/
inductive IntentKind : (α : Type) → [Intent α] → Prop
  | network : IntentKind Network
  | providerNetwork : IntentKind ProviderNetwork

/-- Both kinds of intents are kept apart by their keys and read back. -/
theorem IntentKind.lawful {α : Type} [Intent α] (h : IntentKind α) : LawfulIntent α := by
  cases h with
  | network => infer_instance
  | providerNetwork => infer_instance

/-- One change of the documents that begins, changes or ends no ledger. -/
inductive Edit (d : DocumentStore) : DocumentStore → Prop
  /-- A provider is registered. -/
  | provider (p : Provider) (hvalid : p.metadata.validate = .ok ()) :
      Edit d (d.insert Registry.store (providerKey p.metadata.name) metadataTag p.toJson)
  /-- A provider is deleted. -/
  | providerRemoved (p : String) (hp : p ≠ "") :
      Edit d (d.remove Registry.store (providerKey p))
  /-- The metadata of a cluster are stored. -/
  | described (p : String) (c : Cluster) : Edit d (d.described p c)
  /-- The metadata and the content of a cluster are stored. -/
  | filled (p : String) (c : Cluster) (content : ClusterContent) : Edit d (d.filled p c content)
  /-- An intent is stored. -/
  | declared {α : Type} [Intent α] (kind : IntentKind α) (i : α) (p c : String)
      (hopen : d.Open p c) (hvalid : Intent.validate i = .ok ()) :
      Edit d (d.insert Registry.store (Intent.key α p c (Intent.name i)) (Intent.tag α)
        (Intent.toJson i))
  /-- An intent is removed. -/
  | withdrawn {α : Type} [Intent α] (kind : IntentKind α) (n p c : String) (hopen : d.Open p c) :
      Edit d (d.remove Registry.store (Intent.key α p c n))

/-- The stores after a context was built for a cluster and recorded in its ledger. -/
def Stores.recording (s : Stores) (p c : String) (l : Ledger) (resources : List Rendered)
    (time : Timestamp) : Stores :=
  { s with
    documents := s.documents.withLedger p c (l.append .applied s.nextId time),
    contexts := s.contexts.built s.nextId (contextClusterName p c) resources,
    minted := s.minted + 1 }

/-- What is recorded of a context in the documents is its ledger alone. -/
@[simp] theorem Stores.recording_documents (s : Stores) (p c : String) (l : Ledger)
    (resources : List Rendered) (time : Timestamp) :
    (s.recording p c l resources time).documents
      = s.documents.withLedger p c (l.append .applied s.nextId time) := rfl

/-- What is recorded of a context in the contexts is the context as it was built. -/
@[simp] theorem Stores.recording_contexts (s : Stores) (p c : String) (l : Ledger)
    (resources : List Rendered) (time : Timestamp) :
    (s.recording p c l resources time).contexts
      = s.contexts.built s.nextId (contextClusterName p c) resources := rfl

/-- All that one operation can do to the stores. -/
inductive Change (a : Action) (s : Stores) : Except Failure Unit → Stores → Prop
  /-- Nothing is changed. -/
  | quiet (r : Except Failure Unit) : Change a s r s
  /-- The documents are edited. -/
  | edited (r : Except Failure Unit) {d : DocumentStore} (hedit : Edit s.documents d) :
      Change a s r { s with documents := d }
  /-- A cluster with a new ledger is registered. -/
  | begun {p : String} {c : Cluster} {content : ClusterContent} {time : Timestamp}
      (ha : a = .createCluster p c content) (hp : p ≠ "") (hvalid : c.metadata.validate = .ok ())
      (hfree : (s.documents.value? Registry.store (clusterKey p c.metadata.name)
        metadataTag).bind Cluster.ofJson? = none) (htime : time.IsValid) :
      Change a s (.ok ()) { s with documents := s.documents.begun p c content time }
  /-- Applying fails, and what was built of a context is taken away again. -/
  | undone {p c : String} {e : Failure} {contexts : ContextStore}
      (hcontexts : contexts = s.contexts ∨ ∃ resources n,
        contexts = (s.contexts.builtUpTo s.nextId (contextClusterName p c) resources
          n).eraseScan (Handle.root s.nextId).key) :
      Change a s (.error e) { s with contexts := contexts, minted := s.minted + 1 }
  /-- Applying fails, and what was built of a context stays. -/
  | left {p c : String} {e : Failure} {resources : List Rendered} {n : Nat} {message : String} :
      Change a s (.error (.cleanupRequired s.nextId e message))
        { s with
          contexts := s.contexts.builtUpTo s.nextId (contextClusterName p c) resources n,
          minted := s.minted + 1 }
  /-- The intents of a cluster are applied. -/
  | recorded (r : Except Failure Unit) {p c : String} {cancellation : Cancellation} {l : Ledger}
      {resources : List Rendered} {time : Timestamp} (ha : a = .apply p c cancellation)
      (hsurvey : Deployment.Surveyed s.documents p c l resources)
      (hwordy : Deployment.Wordy p c resources) (htime : time.IsValid) :
      Change a s r (s.recording p c l resources time)
  /-- The intents of a cluster are terminated, and their context is deleted if possible. -/
  | terminated {p c : String} {cancellation : Cancellation} {l : Ledger} {contexts : ContextStore}
      {time : Timestamp} (ha : a = .terminate p c cancellation)
      (hledger : s.documents.ledger? p c = some l) (hcurrent : l.current = .ok .applied)
      (hcontexts : contexts = s.contexts ∨
        contexts = s.contexts.eraseScan (Handle.root l.lastId).key) (htime : time.IsValid) :
      Change a s (.ok ())
        { s with
          documents := s.documents.withLedger p c (l.append .terminated l.lastId time),
          contexts := contexts }
  /-- Deleting a cluster fails after some contexts of its ledger were deleted. -/
  | swept {p c : String} {e : Failure} {l : Ledger} {done : List String}
      (hledger : s.documents.ledger? p c = some l) (hcurrent : l.current ≠ .ok .applied)
      (hdone : done ⊆ l.ids) :
      Change a s (.error e) { s with contexts := s.contexts.sweep done }
  /-- A cluster is deleted, with all contexts of its ledger that have a root. -/
  | removed {p c : String} {l : Ledger} {live : List String} (ha : a = .deleteCluster p c)
      (hledger : s.documents.ledger? p c = some l) (hcurrent : l.current ≠ .ok .applied)
      (hlive : live ⊆ l.ids)
      (hgone : ∀ id ∈ l.ids, id ∉ live → s.contexts.get? (Handle.root id).key = none) :
      Change a s (.ok ())
        { s with
          documents := s.documents.remove Registry.store (clusterKey p c),
          contexts := s.contexts.sweep live }

/-- Context ids are only ever taken from the supply. -/
theorem Change.minted {a : Action} {s s' : Stores} {r : Except Failure Unit}
    (h : Change a s r s') : s'.contextId = s.contextId ∧ s.minted ≤ s'.minted := by
  cases h <;> simp [Stores.recording]

/-! ### Lookups -/

/-- An operation that changes nothing does so when its result is not needed. -/
theorem Op.ReadOnly.void {α : Type} {op : Op α} (h : op.ReadOnly) : op.void.ReadOnly :=
  h.bind fun _ => readOnly_pure ()

/-- A lookup changes nothing. -/
theorem Lookup.readOnly (lookup : Lookup) : lookup.perform.ReadOnly := by
  cases lookup with
  | provider p => exact (getProvider_reads p).readOnly.void
  | providers => exact getProviders_readOnly.void
  | cluster p c => exact (getClusterTag_reads _ _ _ p c).readOnly.void
  | clusterContent p c => exact (getClusterTag_reads _ _ _ p c).readOnly.void
  | clusters p => exact (getClusters_readOnly p).void
  | ledger p c => exact (getLedger_reads p c).readOnly.void
  | network n p c => exact (Intent.get_reads n p c).readOnly.void
  | networks p c => exact (Intent.getAll_reads p c).readOnly.void
  | providerNetwork n p c => exact (Intent.get_reads n p c).readOnly.void
  | providerNetworks p c => exact (Intent.getAll_reads p c).readOnly.void
  | status p c q => exact (Deployment.status_readOnly q p c).void

/-! ### Each step is a change -/

section Steps

variable {α : Type} {op : Op α} {w : World} (a : Action)

/-- What holds of the outcome of an operation holds when its result is not needed. -/
theorem void_ensures {post : Except Failure Unit → World → Prop}
    (h : op.Ensures w fun r w' => post (r.map fun _ => ()) w') : op.void.Ensures w post := by
  refine h.bind ?_ ?_
  · exact fun _ _ hr => ensures_pure hr
  · exact fun _ _ hr => hr

/-- An atomic operation whose change is an edit is a change of the stores. -/
theorem change_of_atomic {edits : World → DocumentStore → Prop} (h : op.Atomic edits)
    (hw : w.Faithful) (hedit : ∀ d, edits w.calm d → Edit w.documents d) :
    op.void.Ensures w fun r w' => Change a w.stores r w'.stores := by
  refine void_ensures ((h w hw).mono fun r w' hr => ?_)
  rcases hr with ⟨e, -, hquiet⟩ | ⟨b, d, -, hd, hquiet⟩
  · rw [hquiet.stores]
    exact .quiet _
  · rw [hquiet.stores]
    exact .edited _ (hedit d hd)

/-- A lookup is no change of the stores. -/
theorem Lookup.change (lookup : Lookup) (hw : w.Faithful) :
    lookup.perform.Ensures w fun r w' => Change a w.stores r w'.stores := by
  refine (lookup.readOnly w hw).mono fun r w' hr => ?_
  rw [hr.1.stores]
  exact .quiet r

section Intents

variable [Intent α]

/-- Storing an intent is a change of the stores. -/
theorem Intent.create_change (kind : IntentKind α) (i : α) (p c : String) (mayExist : Bool)
    (hw : w.Faithful) (hfiled : w.documents.Filed) :
    (Intent.create i p c mayExist).void.Ensures w fun r w' => Change a w.stores r w'.stores := by
  refine change_of_atomic a (Intent.create_atomic i p c mayExist) hw ?_
  intro d hedit
  obtain ⟨-, -, hopen, hvalid, rfl⟩ := hedit
  exact .declared kind i p c (hopen hfiled) hvalid

/-- Deleting an intent is a change of the stores. -/
theorem Intent.delete_change (kind : IntentKind α) (n p c : String) (hw : w.Faithful)
    (hfiled : w.documents.Filed) :
    (Intent.delete α n p c).void.Ensures w fun r w' => Change a w.stores r w'.stores := by
  refine change_of_atomic a (Intent.delete_atomic n p c) hw ?_
  intro d hedit
  obtain ⟨-, -, -, hopen, rfl⟩ := hedit
  exact .withdrawn kind n p c (hopen hfiled)

end Intents

variable {a}

/-- Registering a cluster is a change of the stores, also where it stops half-way. -/
theorem createCluster_change {p : String} {c : Cluster} {content : ClusterContent}
    (ha : a = .createCluster p c content) (hw : w.Faithful) (hfiled : w.documents.Filed)
    (hnow : w.now.IsValid) :
    (createCluster p c content).void.Ensures w fun r w' => Change a w.stores r w'.stores := by
  refine void_ensures ((createCluster_ensures p c content hw).mono fun r w' h => ?_)
  rcases h with ⟨-, hquiet⟩ | ⟨hp, hvalid, hfree, ⟨-, d, hquiet, hd⟩ | ⟨rfl, hquiet⟩⟩
  · -- the name is taken, or a lookup failed
    rw [hquiet.stores]
    exact .quiet _
  · -- one of the three calls failed
    rw [hquiet.stores]
    rcases hd with rfl | rfl | rfl
    · exact .quiet _
    · exact .edited _ (.described p c)
    · exact .edited _ (.filled p c content)
  · -- all of them succeeded
    rw [hquiet.stores]
    exact .begun ha hp hvalid (hfree hfiled) hnow

/-- Applying is a change of the stores, also where it stops half-way. -/
theorem apply_change {p c : String} {cancellation : Cancellation}
    (ha : a = .apply p c cancellation) (hw : w.Faithful) (hnow : w.now.IsValid) :
    (Deployment.apply p c cancellation).void.Ensures w fun r w' =>
      Change a w.stores r w'.stores := by
  refine void_ensures ((Deployment.commit_ensures p c hw).bind ?_ ?_)
  · -- the context is recorded, and the request comes next
    intro id w₁ hout
    rcases hout with _ | _ | _ | @⟨l, resources, _, hsurvey, hwordy, hquiet⟩
    have hstores : w₁.stores = w.stores.recording p c l resources w.now := by
      rw [hquiet.stores, World.stores_withDocuments, World.stores_withContexts,
        World.stores_minting, Stores.recording, World.stores_nextId, World.stores_documents,
        World.stores_contexts, World.stores_minted]
    -- The request changes nothing in the stores, whatever its answer.
    have hchange : ∀ r, Change a w.stores r w₁.stores := by
      intro r
      rw [hstores]
      exact .recorded r ha hsurvey hwordy hnow
    refine (ask_ensures .install _ cancellation).bind ?_ ?_
    · intro u w₂ hout
      obtain ⟨hstores, -⟩ := hout
      refine ensures_pure ?_
      rw [hstores]
      exact hchange _
    · intro e w₂ hout
      obtain ⟨hstores, -⟩ := hout
      rw [hstores]
      exact hchange _
  · -- applying failed before the request
    intro e w₁ hout
    rcases hout with ⟨-, hquiet⟩ | ⟨-, hs, hquiet⟩ | ⟨-, hquiet⟩ | _
    · rw [hquiet.stores]
      exact .quiet _
    · rw [hquiet.stores]
      exact .undone hs
    · rw [hquiet.stores]
      exact .left

/-- Terminating is a change of the stores, also where the context cannot be removed. -/
theorem terminate_change {p c : String} {cancellation : Cancellation}
    (ha : a = .terminate p c cancellation) (hw : w.Faithful) (hfiled : w.documents.Filed)
    (hnow : w.now.IsValid) :
    (Deployment.terminate p c cancellation).void.Ensures w fun r w' =>
      Change a w.stores r w'.stores := by
  refine void_ensures ((Deployment.terminate_ensures p c cancellation hw).mono fun r w' h => ?_)
  rcases h with ⟨-, hstores⟩ | ⟨l, s, -, -, hledger, hcurrent, rfl, hs, hstores⟩
  · rw [hstores]
    exact .quiet _
  · rw [hstores]
    exact .terminated ha (hledger hfiled) hcurrent hs hnow

/-- Deleting a cluster is a change of the stores, also where it stops half-way. -/
theorem deleteCluster_change {p c : String} (ha : a = .deleteCluster p c) (hw : w.Faithful)
    (hfiled : w.documents.Filed) :
    (deleteCluster p c).void.Ensures w fun r w' => Change a w.stores r w'.stores := by
  refine void_ensures ((deleteCluster_ensures p c hw).mono fun r w' h => ?_)
  rcases h with ⟨-, hquiet⟩ | ⟨l, live, hleftovers, h⟩
  · rw [hquiet.stores]
    exact .quiet _
  · rcases h with ⟨⟨e, rfl⟩, done, hdone, hquiet⟩ | ⟨rfl, hquiet⟩
    · -- a context could not be deleted, or the cluster could not
      rw [hquiet.stores]
      exact .swept (hleftovers.ledger hfiled) hleftovers.notApplied fun id hid =>
        hleftovers.live_subset (hdone hid)
    · rw [hquiet.stores]
      exact .removed ha (hleftovers.ledger hfiled) hleftovers.notApplied hleftovers.live_subset hleftovers.gone

/-- Whatever an action does to the stores is one of the changes. -/
theorem Action.change (a : Action) (hw : w.Faithful) (hfiled : w.documents.Filed)
    (hnow : w.now.IsValid) :
    a.perform.Ensures w fun r w' => Change a w.stores r w'.stores := by
  -- What an action can do was told above, action by action.
  cases h : a with
  | createProvider p =>
    refine change_of_atomic _ (createProvider_atomic p) hw ?_
    intro d hedit
    obtain ⟨hvalid, rfl⟩ := hedit
    exact .provider p hvalid
  | deleteProvider p =>
    refine change_of_atomic _ (deleteProvider_atomic p) hw ?_
    intro d hedit
    obtain ⟨hp, rfl⟩ := hedit
    exact .providerRemoved p hp
  | createCluster p c content => exact createCluster_change rfl hw hfiled hnow
  | deleteCluster p c => exact deleteCluster_change rfl hw hfiled
  | createNetwork n p c mayExist => exact Intent.create_change _ .network n p c mayExist hw hfiled
  | deleteNetwork n p c => exact Intent.delete_change _ .network n p c hw hfiled
  | createProviderNetwork n p c mayExist =>
    exact Intent.create_change _ .providerNetwork n p c mayExist hw hfiled
  | deleteProviderNetwork n p c => exact Intent.delete_change _ .providerNetwork n p c hw hfiled
  | apply p c cancellation => exact apply_change rfl hw hnow
  | terminate p c cancellation => exact terminate_change rfl hw hfiled hnow
  | look lookup => exact Lookup.change _ lookup hw

end Steps

namespace History

/-- Each step of a run is a change of the stores, and its answer is the last one. -/
theorem change (h : History) (s : Step) (hfiled : h.stores.documents.Filed) :
    ∃ r, (h.step s).answers = h.answers ++ [r] ∧
      Change s.action h.stores r (h.step s).stores :=
  ⟨_, rfl, Action.change (w := h.world.under s.circumstances) s.action
    (h.world.faithful_under s.circumstances) hfiled s.circumstances.now.2⟩

variable {ids : Nat → String} {synchronizer : Option Synchronizer}

/-- What holds of empty stores and is kept by each change holds of the stores after every run. -/
theorem stores_after {P : Stores → Prop} (hfiled : ∀ s, P s → s.documents.Filed)
    (hempty : P ⟨.empty, .empty, ids, 0⟩)
    (hchange : ∀ a s r s', s.contextId = ids → P s → Change a s r s' → P s')
    (steps : List Step) :
    P (after ids synchronizer steps).stores ∧
      (after ids synchronizer steps).stores.contextId = ids := by
  refine after_induction (P := fun h => P h.stores ∧ h.stores.contextId = ids) ?_ ?_ steps
  · exact ⟨hempty, rfl⟩
  · intro h s hbefore
    obtain ⟨hs, hsupply⟩ := hbefore
    obtain ⟨r, -, hstep⟩ := h.change s (hfiled _ hs)
    exact ⟨hchange _ _ r _ hsupply hs hstep, hstep.minted.1.trans hsupply⟩

end History

end NetIntent
