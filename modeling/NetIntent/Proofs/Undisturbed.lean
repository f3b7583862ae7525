import NetIntent.Proofs.AppContext
import NetIntent.Proofs.Registry

namespace NetIntent

/-!
# Operations while the stores answer

While both stores are open and no fault waits, every call of a store has its effect, and the outcome
of an operation can be told step by step.

* `World.Undisturbed` — both stores answer every call;
* `Op.run_bind_ok`, `run_bind_error`, `run_attempt_bind` — what comes after a step with a known
  outcome;
* `Op.run_getNode`, `run_nodeKeys`, … — the outcomes of the calls;
* `Op.Looks` — the operation changes nothing, and has the same outcome in worlds that are alike;
* `Op.Steady` — the operation leaves such a world as it is;
* `run_getLedger`, `AppContext.run_fromId`, `run_statusOf`, … — lookups with a known outcome;
* `createCluster_undisturbed` — a cluster is registered with all of its documents, or not at all.
-/

/-- Both stores are open, and no fault waits for a call. -/
structure World.Undisturbed (w : World) : Prop where
  faults : w.faults = []
  contexts_open : w.contextsClosed = false
  documents_open : w.documentsClosed = false

namespace World

variable {w : World}

/-- Where no fault waits, none has an effect of its own. -/
theorem Undisturbed.faithful (hw : w.Undisturbed) : w.Faithful := by simp [Faithful, hw.faults]

/-- Other contexts do not close a store. -/
theorem Undisturbed.withContexts (hw : w.Undisturbed) (s : ContextStore) :
    (w.withContexts s).Undisturbed := ⟨hw.faults, hw.contexts_open, hw.documents_open⟩

/-- Other documents do not close a store. -/
theorem Undisturbed.withDocuments (hw : w.Undisturbed) (d : DocumentStore) :
    (w.withDocuments d).Undisturbed := ⟨hw.faults, hw.contexts_open, hw.documents_open⟩

/-- Two open stores answer every call once no fault waits. -/
theorem undisturbed_calm (hcontexts : w.contextsClosed = false)
    (hdocuments : w.documentsClosed = false) : w.calm.Undisturbed := ⟨rfl, hcontexts, hdocuments⟩

/-- An undisturbed world has no faults to wait for. -/
theorem Undisturbed.calm (hw : w.Undisturbed) : w.calm = w := by rw [World.calm, ← hw.faults]

end World

namespace Op

variable {α β : Type} {w w' : World}

/-! ### Steps with a known outcome -/

/-- After a step that succeeds the next one goes on from its world. -/
theorem run_bind_ok {op : Op α} {next : α → Op β} {a : α} (h : op.run w = (.ok a, w')) :
    (op >>= next).run w = (next a).run w' := by rw [run_bind, h]

/-- A step that fails ends the operation. -/
theorem run_bind_error {op : Op α} {next : α → Op β} {e : Failure}
    (h : op.run w = (.error e, w')) : (op >>= next).run w = (.error e, w') := by rw [run_bind, h]

/-- After an attempt the next step goes on from its world, whatever came of it. -/
theorem run_attempt_bind {op : Op α} {next : Except Failure α → Op β} {r : Except Failure α}
    (h : op.run w = (r, w')) : (op.attempt >>= next).run w = (next r).run w' := by
  rw [run_bind, run_attempt, h]

/-! ### Calls of the stores -/

/-- A call of the context store has its effect. -/
theorem run_onContexts (hw : w.Undisturbed) (call : StoreCall) (instead : FaultEffect → Option α)
    (effect : ContextStore → Except Failure α × ContextStore) :
    (onContexts call instead effect).run w
      = ((effect w.contexts).1, w.withContexts (effect w.contexts).2) := by
  simp [run, onContexts, hw.faults, hw.contexts_open, Faults.consult, World.withContexts]

/-- A deletion by the beginning of keys removes what a scan finds, and counts it. -/
theorem run_deleteNodes (hw : w.Undisturbed) (piece : String) :
    (deleteNodes piece).run w
      = (.ok (w.contexts.scan piece).length, w.withContexts (w.contexts.eraseScan piece)) :=
  run_onContexts hw _ _ _

/-- The keys that a scan finds are listed. -/
theorem run_nodeKeys (hw : w.Undisturbed) (piece : String) :
    (nodeKeys piece).run w = (.ok ((w.contexts.scan piece).map (·.1)), w) :=
  run_onContexts hw _ _ _

/-- A node is read as it is stored. -/
theorem run_getNode (hw : w.Undisturbed) (key : String) :
    (getNode key).run w
      = (match w.contexts.get? key with
        | none => .ok none
        | some (.value v) => .ok (some v)
        | some .unreadable => .error (malformed key), w) := by
  unfold getNode
  rw [run_onContexts hw]
  rcases w.contexts.get? key with _ | (_ | _) <;> rfl

/-- A call of the document store has its effect. -/
theorem run_onDocuments (hw : w.Undisturbed) (call : StoreCall)
    (instead : FaultEffect → Option α) (effect : DocumentStore → α × DocumentStore) :
    (onDocuments call instead (.ok effect)).run w
      = (.ok (effect w.documents).1, w.withDocuments (effect w.documents).2) := by
  simp [run, onDocuments, hw.faults, hw.documents_open, Faults.consult, World.withDocuments]

/-- A search finds what the documents hold. -/
theorem run_findDocuments (hw : w.Undisturbed) (store : String) (pattern : DocumentKey)
    (tag : String) :
    (findDocuments store pattern.toJson tag).run w
      = (.ok (w.documents.find store pattern tag), w) := by
  unfold findDocuments
  rw [onKey_toJson]
  exact run_onDocuments hw _ _ _

/-- A document is stored. -/
theorem run_put (hw : w.Undisturbed) (key : DocumentKey) (tag : String) (value : Json) :
    (Registry.put key tag value).run w
      = (.ok (), w.withDocuments (w.documents.insert Registry.store key tag value)) := by
  unfold Registry.put insertDocument
  rw [onKey_toJson]
  exact run_onDocuments hw _ _ _

/-! ### Requests -/

/-- A request leaves the stores to answer. -/
theorem ask_undisturbed (request : Request) (id : String) (cancellation : Cancellation)
    (hw : w.Undisturbed) : (ask request id cancellation).Ensures w fun _ w' => w'.Undisturbed := by
  cases hs : w.synchronizer with
  | none =>
    rw [Ensures, run_ask_of_none hs]
    exact hw
  | some s =>
    rw [Ensures, run_ask hs]
    exact ⟨hw.faults, hw.contexts_open, hw.documents_open⟩

/-- A synchronizer that is there is found. -/
theorem run_requireSynchronizer (h : w.synchronizer.isSome = true) :
    requireSynchronizer.run w = (.ok (), w) := by
  obtain ⟨s, hs⟩ := Option.isSome_iff_exists.1 h
  simp [requireSynchronizer, run, hs]

/-- A request that is not given up is accepted by a synchronizer that accepts all of them in
    time. -/
theorem run_ask_of_accept {s : Synchronizer} {delayMs : Nat} (hs : w.synchronizer = some s)
    (haccept : s.answer = .after delayMs .accepted) (hdelay : delayMs ≤ w.limitMs)
    (request : Request) (id : String) : ((ask request id .never).run w).1 = .ok () := by
  have hwithin : (s.begin request id).answer.within w.limitMs = (delayMs, some .accepted) := by
    rw [show (s.begin request id).answer = s.answer from rfl, haccept, Answer.within, if_pos hdelay]
  rw [run_ask hs]
  simp [Synchronizer.ask, Cancellation.precedes, Cancellation.outcome, hwithin, Synchronizer.result]

/-! ### Operations that only look -/

/-- The operation leaves an undisturbed world as it is, whatever its outcome. -/
def Steady (op : Op α) : Prop := ∀ w, w.Undisturbed → (op.run w).2 = w

/-- The operation changes nothing; and undisturbed worlds that are alike, in what it looks at, give it
    the same outcome. -/
structure Looks (op : Op α) (alike : World → World → Prop) : Prop where
  readOnly : op.ReadOnly
  same : ∀ w w', w.Undisturbed → w'.Undisturbed → alike w w' →
    ∃ r, op.run w = (r, w) ∧ op.run w' = (r, w')

section Looks

variable {op : Op α} {next : α → Op β} {alike alike' : World → World → Prop}

/-- What was read in an undisturbed world agrees with it. -/
theorem Reads.of_run {P : World → α → Prop} {a : α} (h : op.Reads P) (hw : w.Undisturbed)
    (hrun : op.run w = (.ok a, w')) : P w a := by
  -- Results are about the world without the faults that a reading used up, and here there are none.
  obtain ⟨-, hresult⟩ := h w hw.faithful
  rw [hw.calm] at hresult
  exact hresult a (congrArg Prod.fst hrun)

/-- A returned value does not depend on the world. -/
theorem looks_pure (a : α) : (pure a : Op α).Looks alike :=
  ⟨readOnly_pure a, fun _ _ _ _ _ => ⟨.ok a, rfl, rfl⟩⟩

/-- A failure does not depend on the world. -/
theorem looks_throw (e : Failure) : (throw e : Op α).Looks alike :=
  ⟨readOnly_throw e, fun _ _ _ _ _ => ⟨.error e, rfl, rfl⟩⟩

/-- A known result does not depend on the world. -/
theorem looks_of (r : Except Failure α) : (Op.of r).Looks alike :=
  ⟨readOnly_of r, fun _ _ _ _ _ => ⟨r, rfl, rfl⟩⟩

/-- What was read first may be used to tell what has to be alike for what is looked at next. -/
theorem Looks.step {Q : World → α → Prop} (h : op.Looks alike) (hreads : op.Reads Q)
    (hnext : ∀ a, (next a).Looks fun w w' => alike w w' ∧ Q w a) : (op >>= next).Looks alike where
  readOnly := h.readOnly.bind fun a => (hnext a).readOnly
  same := by
    intro w w' hw hw' halike
    obtain ⟨r, hrun, hrun'⟩ := h.same w w' hw hw' halike
    cases r with
    | error e => exact ⟨.error e, run_bind_error hrun, run_bind_error hrun'⟩
    | ok a =>
      rw [run_bind_ok hrun, run_bind_ok hrun']
      exact (hnext a).same w w' hw hw' ⟨halike, hreads.of_run hw hrun⟩

/-- Fewer worlds may be alike. -/
theorem Looks.mono (h : op.Looks alike) (himp : ∀ w w', alike' w w' → alike w w') :
    op.Looks alike' :=
  ⟨h.readOnly, fun w w' hw hw' halike => h.same w w' hw hw' (himp w w' halike)⟩

/-- Two steps that only look do so together. -/
theorem Looks.bind (h : op.Looks alike) (hnext : ∀ a, (next a).Looks alike) :
    (op >>= next).Looks alike :=
  h.step h.readOnly fun a => (hnext a).mono fun _ _ halike => halike.1

/-- An attempt of an operation that only looks does so, too. -/
theorem Looks.attempt (h : op.Looks alike) : op.attempt.Looks alike where
  readOnly := h.readOnly.attempt
  same := by
    intro w w' hw hw' halike
    obtain ⟨r, hrun, hrun'⟩ := h.same w w' hw hw' halike
    exact ⟨.ok r, by rw [run_attempt, hrun], by rw [run_attempt, hrun']⟩

/-- An operation that only looks leaves the world as it is. -/
theorem Looks.steady (h : op.Looks Eq) : op.Steady := by
  intro w hw
  obtain ⟨r, hrun, -⟩ := h.same w w hw hw rfl
  rw [hrun]

/-- A result that is read without a change agrees with the world itself. -/
theorem Steady.ensures {P : World → α → Prop} (h : op.Steady) (hreads : op.Reads P)
    (hw : w.Undisturbed) : op.Ensures w fun r w' => w' = w ∧ ∀ a, r = .ok a → P w a :=
  ⟨h w hw, fun _ hok => hreads.of_run hw (Prod.ext hok rfl)⟩

/-- A node has to be the same for its reading. -/
theorem getNode_looks {key : String}
    (h : ∀ w w', alike w w' → w.contexts.get? key = w'.contexts.get? key) :
    (getNode key).Looks alike := by
  refine ⟨(getNode_reads key).readOnly, fun w w' hw hw' halike => ?_⟩
  rw [run_getNode hw, run_getNode hw', h w w' halike]
  exact ⟨_, rfl, rfl⟩

/-- What a scan finds has to be the same for a listing of keys. -/
theorem nodeKeys_looks {piece : String}
    (h : ∀ w w', alike w w' → w.contexts.scan piece = w'.contexts.scan piece) :
    (nodeKeys piece).Looks alike := by
  refine ⟨(nodeKeys_reads piece).readOnly, fun w w' hw hw' halike => ?_⟩
  rw [run_nodeKeys hw, run_nodeKeys hw', h w w' halike]
  exact ⟨_, rfl, rfl⟩

/-- What a search finds has to be the same for it. -/
theorem findDocuments_looks {store : String} {pattern : DocumentKey} {tag : String}
    (h : ∀ w w', alike w w' →
      w.documents.find store pattern tag = w'.documents.find store pattern tag) :
    (findDocuments store pattern.toJson tag).Looks alike := by
  refine ⟨(findDocuments_reads store pattern tag).readOnly, fun w w' hw hw' halike => ?_⟩
  rw [run_findDocuments hw, run_findDocuments hw', h w w' halike]
  exact ⟨_, rfl, rfl⟩

/-- A synchronizer has to be there in both worlds or in none. -/
theorem requireSynchronizer_looks
    (h : ∀ w w', alike w w' → w.synchronizer.isSome = w'.synchronizer.isSome) :
    requireSynchronizer.Looks alike where
  readOnly := requireSynchronizer_readOnly
  same := by
    intro w w' hw hw' halike
    have hrun : ∀ v : World, requireSynchronizer.run v = (if v.synchronizer.isSome then .ok ()
        else .error (.rsyncUnavailable Synchronizer.serviceName), v) := by
      intro v
      cases hv : v.synchronizer <;> simp [requireSynchronizer, run, hv]
    rw [hrun, hrun, h w w' halike]
    exact ⟨_, rfl, rfl⟩

end Looks

end Op

open Op Registry

section Lookups

variable {α : Type} {w : World} {p c : String} {alike : World → World → Prop}

/-- Worlds that are alike hold the same at the tag of all documents that the pattern covers. -/
def FoundAlike (alike : World → World → Prop) (pattern : DocumentKey) (tag : String) : Prop :=
  ∀ w w', alike w w' →
    w.documents.find Registry.store pattern tag = w'.documents.find Registry.store pattern tag

/-- The same documents are alike at every pattern. -/
theorem foundAlike_eq (pattern : DocumentKey) (tag : String) : FoundAlike Eq pattern tag :=
  fun _ _ h => h ▸ rfl

namespace Registry

variable {pattern : DocumentKey} {tag : String}

/-- What a search for one document finds is all that it depends on. -/
theorem findOne_looks (read : Json → Option α) (h : FoundAlike alike pattern tag) :
    (findOne read pattern tag).Looks alike := by
  refine (findDocuments_looks h).bind fun values => ?_
  cases values with
  | nil => exact looks_pure _
  | cons v values =>
    cases hv : read v with
    | none =>
      simp only [hv]
      exact looks_throw _
    | some a =>
      simp only [hv]
      exact looks_pure _

/-- What a search for many documents finds is all that it depends on. -/
theorem findAll_looks (read : Json → Option α) (h : FoundAlike alike pattern tag) :
    (findAll read pattern tag).Looks alike := by
  refine (findDocuments_looks h).bind fun values => ?_
  cases values.mapM read with
  | none => exact looks_throw _
  | some found => exact looks_pure _

/-- That something was found does not depend on the world any more. -/
theorem require_looks (found : Option α) (entity key : String) :
    (require found entity key).Looks alike := by
  cases found with
  | none => exact looks_throw _
  | some a => exact looks_pure _

/-- A search for one key finds what can be read there. -/
theorem run_findOne_of_some {read : Json → Option α} {key : DocumentKey} {tag : String} {v : Json}
    {a : α} (hw : w.Undisturbed) (hfiled : w.documents.Filed) (hkey : key.Exact)
    (hv : w.documents.value? store key tag = some v) (hread : read v = some a) :
    (findOne read key tag).run w = (.ok (some a), w) := by
  unfold findOne
  rw [run_bind_ok (run_findDocuments hw _ _ _), DocumentStore.find_eq_toList hfiled hkey, hv]
  simp [hread]

/-- A search for one key that finds nothing tells that nothing is stored there. -/
theorem value?_eq_none_of_findOne {read : Json → Option α} {key : DocumentKey} {tag : String}
    (hw : w.Undisturbed) (hfiled : w.documents.Filed) (hkey : key.Exact)
    (h : ((findOne read key tag).run w).1 = .ok none) :
    w.documents.value? store key tag = none := by
  unfold findOne at h
  rw [run_bind_ok (run_findDocuments hw _ _ _), DocumentStore.find_eq_toList hfiled hkey] at h
  cases hv : w.documents.value? store key tag with
  | none => rfl
  | some v =>
    -- what is stored is read, or the search fails
    rw [hv] at h
    cases hread : read v <;> simp [hread] at h

end Registry

/-- A provider has to be the same for its lookup. -/
theorem getProvider_looks (h : p ≠ "" → FoundAlike alike (providerKey p) metadataTag) :
    (getProvider p).Looks alike := by
  unfold getProvider
  split
  · exact looks_throw _
  · rename_i hp
    exact (Registry.findOne_looks _ (h hp)).bind fun found => Registry.require_looks _ _ _

/-- A ledger has to be the same for its lookup. -/
theorem getLedger_looks (h : p ≠ "" → c ≠ "" → FoundAlike alike (clusterKey p c) ledgerTag) :
    (getLedger p c).Looks alike := by
  unfold getLedger getClusterTag exactClusterKey
  split
  · exact looks_throw _
  · rename_i hne
    obtain ⟨hp, hc⟩ := not_or.1 hne
    exact (Registry.findOne_looks _ (h hp hc)).bind fun _ => Registry.require_looks _ _ _

/-- The ledger has to be the same for the check of a cluster. -/
theorem checkCluster_looks (operation : ClusterOperation)
    (h : p ≠ "" → c ≠ "" → FoundAlike alike (clusterKey p c) ledgerTag) :
    (checkCluster p c operation).Looks alike :=
  (getLedger_looks h).bind fun _ => (looks_of _).bind fun _ => looks_pure _

variable [Intent α]

/-- An intent has to be the same for its lookup. -/
theorem Intent.get_looks {n : String}
    (h : FoundAlike alike (Intent.key α p c n) (Intent.tag α)) :
    (Intent.get α n p c).Looks alike := by
  unfold Intent.get
  split
  · exact looks_throw _
  · exact (Registry.findOne_looks _ h).bind fun _ => Registry.require_looks _ _ _

/-- The intents of a cluster have to be the same for their listing. -/
theorem Intent.getAll_looks
    (h : p ≠ "" → c ≠ "" → FoundAlike alike (Intent.key α p c "") (Intent.tag α)) :
    (Intent.getAll α p c).Looks alike := by
  unfold Intent.getAll
  split
  · exact looks_throw _
  · rename_i hne
    obtain ⟨hp, hc⟩ := not_or.1 hne
    exact Registry.findAll_looks _ (h hp hc)

/-- A provider that is stored is found. -/
theorem run_getProvider {a : Provider} (hw : w.Undisturbed) (hfiled : w.documents.Filed)
    (hp : p ≠ "") (ha : (w.documents.value? Registry.store (providerKey p) metadataTag).bind
      Provider.ofJson? = some a) : (getProvider p).run w = (.ok a, w) := by
  obtain ⟨v, hv, hread⟩ := Option.bind_eq_some_iff.1 ha
  have hfound := Registry.run_findOne_of_some hw hfiled (providerKey_exact hp) hv hread
  unfold getProvider
  rw [if_neg hp, run_bind_ok hfound]
  rfl

/-- What can be read at a tag of a cluster is found. -/
theorem run_getClusterTag {β : Type} {read : Json → Option β} {tag : String} {a : β}
    (hw : w.Undisturbed) (hfiled : w.documents.Filed) (hp : p ≠ "") (hc : c ≠ "")
    (ha : (w.documents.value? Registry.store (clusterKey p c) tag).bind read = some a)
    (entity : String) : (getClusterTag read tag entity p c).run w = (.ok a, w) := by
  obtain ⟨v, hv, hread⟩ := Option.bind_eq_some_iff.1 ha
  have hexact : exactClusterKey p c = .ok (Registry.clusterKey p c) := if_neg (by simp [hp, hc])
  have hfound := Registry.run_findOne_of_some hw hfiled (Registry.clusterKey_exact hp hc) hv hread
  unfold getClusterTag
  rw [hexact, of_ok_bind, run_bind_ok hfound]
  rfl

/-- A tag of a cluster at which nothing is stored is reported as missing. -/
theorem run_getClusterTag_of_none {β : Type} {tag : String} (hw : w.Undisturbed)
    (hfiled : w.documents.Filed) (hp : p ≠ "") (hc : c ≠ "")
    (hnone : w.documents.value? Registry.store (clusterKey p c) tag = none)
    (read : Json → Option β) (entity : String) :
    (getClusterTag read tag entity p c).run w
      = (.error (.notFound entity (contextClusterName p c)), w) := by
  have hexact : exactClusterKey p c = .ok (Registry.clusterKey p c) := if_neg (by simp [hp, hc])
  have hfound : (findOne read (Registry.clusterKey p c) tag).run w = (.ok none, w) := by
    unfold findOne
    rw [run_bind_ok (run_findDocuments hw _ _ _),
      DocumentStore.find_eq_toList hfiled (Registry.clusterKey_exact hp hc), hnone]
    rfl
  unfold getClusterTag
  rw [hexact, of_ok_bind, run_bind_ok hfound]
  rfl

/-- The ledger of a cluster is found. -/
theorem run_getLedger {l : Ledger} (hw : w.Undisturbed) (hfiled : w.documents.Filed) (hp : p ≠ "")
    (hc : c ≠ "") (hl : w.documents.ledger? p c = some l) : (getLedger p c).run w = (.ok l, w) :=
  run_getClusterTag hw hfiled hp hc hl "Cluster"

/-- On a cluster that is there, the gate of an operation is whether it is allowed. -/
theorem run_checkCluster {l : Ledger} {operation : ClusterOperation}
    {r : Except Failure ClusterState} (hw : w.Undisturbed) (hfiled : w.documents.Filed)
    (hp : p ≠ "") (hc : c ≠ "") (hl : w.documents.ledger? p c = some l)
    (hcheck : Lifecycle.check (contextClusterName p c) l operation = r) :
    (checkCluster p c operation).run w = (r.map fun state => (l, state), w) := by
  unfold checkCluster
  rw [run_bind_ok (run_getLedger hw hfiled hp hc hl), hcheck]
  cases r <;> rfl

/-- An action is recorded in a ledger that is still the one that was read. -/
theorem Deployment.run_record {l : Ledger} (hw : w.Undisturbed) (hfiled : w.documents.Filed)
    (hp : p ≠ "") (hc : c ≠ "") (hl : w.documents.ledger? p c = some l) (state : LedgerState)
    (id : String) :
    (record p c l state id).run w
      = (.ok (), w.withDocuments (w.documents.withLedger p c (l.append state id w.now))) := by
  unfold record replaceLedger
  rw [run_bind_ok (show Op.now.run w = (.ok w.now, w) from rfl),
    run_bind_ok (run_getLedger hw hfiled hp hc hl), if_neg (not_not.2 rfl)]
  exact run_put hw _ _ _

end Lookups

/-! ### Contexts -/

section Contexts

variable {w : World} {id : String} {h : Handle} {found : Option Json}

/-- A node that can be read is read as it is stored, or not found. -/
theorem Op.run_getNode_of {key : String} (hw : w.Undisturbed)
    (hfound : w.contexts.get? key = found.map .value) : (getNode key).run w = (.ok found, w) := by
  rw [run_getNode hw, hfound]
  cases found <;> rfl

/-- The root of a context that is there is found. -/
theorem RunContext.run_root_of_rooted (hw : w.Undisturbed) (hroot : w.contexts.Rooted id) :
    (RunContext.root ⟨some id⟩).run w = (.ok (Handle.root id), w) := by
  have hnode : (getNode (Handle.root id).key).run w = (.ok (some (.string id)), w) := by
    rw [run_getNode hw, show w.contexts.get? _ = _ from hroot]
  show (getNode (Handle.root id).key >>= _ : Op Handle).run w = _
  rw [run_bind_ok hnode]
  exact congrArg (fun op => Op.run op w) (if_pos rfl)

/-- The root of a context that is not there is reported as missing. -/
theorem RunContext.run_root_of_none (hw : w.Undisturbed)
    (hroot : w.contexts.get? (Handle.root id).key = none) :
    (RunContext.root ⟨some id⟩).run w = (.error (.notFound "AppContext" id), w) := by
  have hnode : (getNode (Handle.root id).key).run w = (.ok none, w) := by rw [run_getNode hw, hroot]
  show (getNode (Handle.root id).key >>= _ : Op Handle).run w = _
  rw [run_bind_ok hnode]
  rfl

/-- A context that is there is loaded. -/
theorem AppContext.run_fromId (hw : w.Undisturbed) (hid : RunContext.isValidId id = true)
    (hroot : w.contexts.Rooted id) :
    (AppContext.fromId id).run w = (.ok (AppContext.ofId id), w) := by
  rw [AppContext.fromId_eq hid, run_bind_ok (RunContext.run_root_of_rooted hw hroot)]
  rfl

/-- Loading a context that is not there fails as such. -/
theorem AppContext.run_fromId_of_none (hw : w.Undisturbed) (hid : RunContext.isValidId id = true)
    (hroot : w.contexts.get? (Handle.root id).key = none) :
    (AppContext.fromId id).run w = (.error (.notFound "AppContext" id), w) := by
  rw [AppContext.fromId_eq hid, run_bind_error (RunContext.run_root_of_none hw hroot)]

namespace RunContext

/-- The value of a node of the context is read. -/
theorem run_rawValue {v : Json} (hw : w.Undisturbed) (hid : h.contextId = id)
    (hv : w.contexts.get? h.key = some (.value v)) :
    (rawValue ⟨some id⟩ h).run w = (.ok v, w) := by
  have hnode : (getNode h.key).run w = (.ok (some v), w) := run_getNode_of hw hv
  unfold rawValue
  rw [check, if_pos (congrArg some hid.symm), of_ok_bind, run_bind_ok hnode]
  rfl

/-- The value of a node of the context is read as what it stands for. -/
theorem run_value {α : Type} {read : Json → Option α} {v : Json} {a : α} (hw : w.Undisturbed)
    (hid : h.contextId = id) (hv : w.contexts.get? h.key = some (.value v))
    (hread : read v = some a) : (value ⟨some id⟩ read h).run w = (.ok a, w) := by
  unfold value
  rw [run_bind_ok (run_rawValue hw hid hv), hread]
  rfl

end RunContext

namespace AppContext

/-- A context by its id has the nodes of that id. -/
theorem ofId_nodes (id : String) : (ofId id).nodes = ⟨some id⟩ := rfl

/-- A node is found if there is a value at its key that can be read. -/
theorem run_existing_eq (hw : w.Undisturbed) (hid : h.contextId = id) (level : String) :
    ((ofId id).existing h level).run w
      = (match w.contexts.get? h.key with
        | none => .error (.handleNotFound h.key level)
        | some (.value _) => .ok h
        | some .unreadable => .error (malformed h.key), w) := by
  have hcheck : RunContext.check ⟨some id⟩ h = .ok () := if_pos (congrArg some hid.symm)
  unfold existing RunContext.nodeExists
  rw [ofId_nodes, hcheck, of_ok_bind, run_bind, run_bind, run_getNode hw]
  rcases w.contexts.get? h.key with _ | (_ | _) <;> rfl

/-- A node of the context is found if something is stored at its key. -/
theorem run_existing (hw : w.Undisturbed) (hid : h.contextId = id)
    (hfound : w.contexts.get? h.key = found.map .value) (level : String) :
    ((ofId id).existing h level).run w
      = (if found.isSome then .ok h else .error (.handleNotFound h.key level), w) := by
  rw [run_existing_eq hw hid, hfound]
  cases found <;> rfl

/-- A node of the context that is stored is found. -/
theorem run_existing_of_some {v : Json} (hw : w.Undisturbed) (hid : h.contextId = id)
    (hv : w.contexts.get? h.key = some (.value v)) (level : String) :
    ((ofId id).existing h level).run w = (.ok h, w) := by
  have hfound : w.contexts.get? h.key = (some v).map .value := hv
  exact run_existing hw hid hfound level

/-- The overall status of a context that is there is read off its root. -/
theorem run_overallStatus {status : ContextStatus} (hw : w.Undisturbed)
    (hroot : w.contexts.Rooted id) (hstatus : w.contexts.overallStatus? id = some status) :
    (ofId id).overallStatus.run w = (.ok status, w) := by
  obtain ⟨v, hv, hread⟩ : ∃ v, w.contexts.get? ((Handle.root id).leaf "status").key
      = some (.value v) ∧ ContextStatus.ofDocument? v = some status := by
    unfold ContextStore.overallStatus? at hstatus
    split at hstatus
    · rename_i v hv
      exact ⟨v, hv, hstatus⟩
    · cases hstatus
  have hleaf : ((ofId id).getLevelHandle (Handle.root id) "status").run w
      = (.ok ((Handle.root id).leaf "status"), w) := run_existing_of_some hw rfl hv "status"
  unfold overallStatus root
  rw [ofId_nodes, run_bind_ok (RunContext.run_root_of_rooted hw hroot), run_bind_ok hleaf]
  exact RunContext.run_value hw rfl hv hread

/-- The status of a context is read off its root, once it is loaded. -/
theorem run_statusOf {status : ContextStatus} (hw : w.Undisturbed)
    (hid : RunContext.isValidId id = true) (hroot : w.contexts.Rooted id)
    (hstatus : w.contexts.overallStatus? id = some status) :
    (statusOf id).run w = (.ok status, w) := by
  unfold statusOf
  rw [run_bind_ok (run_fromId hw hid hroot)]
  exact run_overallStatus hw hroot hstatus

end AppContext

/-- A context that is there is deleted. -/
theorem AppContext.run_delete (hw : w.Undisturbed) (hroot : w.contexts.Rooted id) :
    (AppContext.ofId id).delete.run w
      = (.ok (), w.withContexts (w.contexts.eraseScan (Handle.root id).key)) := by
  have hcheck : RunContext.check ⟨some id⟩ (Handle.root id) = .ok () := if_pos rfl
  show (RunContext.root ⟨some id⟩ >>= fun root =>
    RunContext.deletePrefix ⟨some id⟩ root >>= fun _ => pure () : Op Unit).run w = _
  rw [run_bind_ok (RunContext.run_root_of_rooted hw hroot), RunContext.deletePrefix, hcheck,
    of_ok_bind, run_bind_ok (run_deleteNodes hw _)]
  rfl

end Contexts

/-! ### Registering a cluster -/

section Registering

variable {w : World} {alike : World → World → Prop} (p : String) (c : Cluster)

/-- What is checked before a cluster is registered: its metadata, its provider, and its name. -/
def vetCluster : Op Unit := do
  Op.of c.metadata.validate
  let _ ← getProvider p
  if (← findOne Cluster.ofJson? (clusterKey p c.metadata.name) metadataTag).isSome then
    throw (.alreadyExists "Cluster" (contextClusterName p c.metadata.name))

/-- The documents of a cluster are stored. -/
def fillCluster (content : ClusterContent) : Op Cluster := do
  put (clusterKey p c.metadata.name) metadataTag c.toJson
  put (clusterKey p c.metadata.name) contentTag content.toJson
  let time ← Op.now
  put (clusterKey p c.metadata.name) ledgerTag (Ledger.append {} .created "" time).toJson
  return c

/-- The registration of a cluster is a check, and then its documents are stored. -/
theorem createCluster_eq (content : ClusterContent) :
    createCluster p c content = (do
      vetCluster p c
      fillCluster p c content : Op Cluster) := by
  simp only [createCluster, vetCluster, fillCluster, bind_assoc, guard_bind, throw_bind]

/-- The check before a registration looks at the provider and at the name of the cluster. -/
theorem vetCluster_looks
    (hprovider : p ≠ "" → FoundAlike alike (providerKey p) metadataTag)
    (hname : p ≠ "" → c.metadata.name ≠ "" →
      FoundAlike alike (clusterKey p c.metadata.name) metadataTag) :
    (vetCluster p c).Looks alike := by
  unfold vetCluster
  cases hvalid : c.metadata.validate with
  | error e => exact looks_throw _
  | ok u =>
    have hne : c.metadata.name ≠ "" := fun hempty => by simp [Metadata.validate, hempty] at hvalid
    rw [of_ok_bind]
    refine (getProvider_looks hprovider).step (getProvider_reads p) fun provider => ?_
    -- A provider was found, and so its name is not empty.
    have hname : FoundAlike (fun w w' => alike w w' ∧ p ≠ "" ∧ (w.documents.Filed →
        (w.documents.value? Registry.store (providerKey p) metadataTag).bind Provider.ofJson?
          = some provider)) (clusterKey p c.metadata.name) metadataTag :=
      fun w w' h => hname h.2.1 hne w w' h.1
    refine (findOne_looks _ hname).bind fun found => ?_
    split
    · exact looks_throw _
    · exact looks_pure _

/-- All three documents of a cluster are stored. -/
theorem run_fillCluster (content : ClusterContent) (hw : w.Undisturbed) :
    (fillCluster p c content).run w
      = (.ok c, w.withDocuments (w.documents.begun p c content w.now)) := by
  -- Each document is stored on top of those before it.
  have hdescribed : (put (clusterKey p c.metadata.name) metadataTag c.toJson).run w
      = (.ok (), w.withDocuments (w.documents.described p c)) := run_put hw _ _ _
  have hfilled : (put (clusterKey p c.metadata.name) contentTag content.toJson).run
      (w.withDocuments (w.documents.described p c))
      = (.ok (), w.withDocuments (w.documents.filled p c content)) :=
    run_put (hw.withDocuments _) _ _ _
  have hbegun : (put (clusterKey p c.metadata.name) ledgerTag
      (Ledger.append {} .created "" w.now).toJson).run
      (w.withDocuments (w.documents.filled p c content))
      = (.ok (), w.withDocuments (w.documents.begun p c content w.now)) :=
    run_put (hw.withDocuments _) _ _ _
  have hnow : Op.now.run (w.withDocuments (w.documents.filled p c content))
      = (.ok w.now, w.withDocuments (w.documents.filled p c content)) := rfl
  unfold fillCluster
  rw [run_bind_ok hdescribed, run_bind_ok hfilled, run_bind_ok hnow, run_bind_ok hbegun, run_pure]

/-- A cluster that passes these checks has a provider that is stored, and a name that is free. -/
theorem vetCluster_ensures (hw : w.Undisturbed) (hfiled : w.documents.Filed) :
    (vetCluster p c).Ensures w fun r w' => w' = w ∧ (r = .ok () → c.metadata.validate = .ok () ∧
      (∃ v, w.documents.value? Registry.store (providerKey p) metadataTag = some v) ∧
      w.documents.value? Registry.store (clusterKey p c.metadata.name) metadataTag = none) := by
  unfold vetCluster
  cases hvalid : c.metadata.validate with
  | error e => exact ensures_throw ⟨rfl, by simp⟩
  | ok u =>
    have hne : c.metadata.name ≠ "" := fun hempty => by simp [Metadata.validate, hempty] at hvalid
    rw [of_ok_bind]
    -- Both lookups leave the world as it is.
    have hprovider := (getProvider_looks fun _ => foundAlike_eq (providerKey p) metadataTag).steady
    refine (hprovider.ensures (getProvider_reads p) hw).bind ?_ fun e w₁ hout => ⟨hout.1, by simp⟩
    intro provider w₁ hout
    obtain ⟨rfl, hprovider⟩ := hout
    obtain ⟨hp, hprovider⟩ := hprovider provider rfl
    obtain ⟨v, hv, -⟩ := Option.bind_eq_some_iff.1 (hprovider hfiled)
    have hname : (findOne Cluster.ofJson? (clusterKey p c.metadata.name) metadataTag).Ensures w₁
        fun r w' => w' = w₁ ∧ (r = .ok none → w₁.documents.value? Registry.store
          (clusterKey p c.metadata.name) metadataTag = none) :=
      ⟨(Registry.findOne_looks _ (foundAlike_eq _ _)).steady w₁ hw,
        Registry.value?_eq_none_of_findOne hw hfiled (clusterKey_exact hp hne)⟩
    refine hname.bind ?_ fun e w₂ hout => ⟨hout.1, by simp⟩
    intro found w₂ hout
    obtain ⟨rfl, hfree⟩ := hout
    cases found with
    | some taken => exact ensures_throw ⟨rfl, by simp⟩
    | none => exact ensures_pure ⟨rfl, fun _ => ⟨rfl, ⟨v, hv⟩, hfree rfl⟩⟩

/-- A cluster is registered under a stored provider, with all of its documents, or not at all. -/
theorem createCluster_undisturbed (content : ClusterContent) (hw : w.Undisturbed)
    (hfiled : w.documents.Filed) :
    (createCluster p c content).Ensures w fun r w' =>
      (∃ e, r = .error e) ∧ w' = w ∨ r = .ok c ∧ c.metadata.validate = .ok () ∧
        (∃ v, w.documents.value? Registry.store (providerKey p) metadataTag = some v) ∧
        w.documents.value? Registry.store (clusterKey p c.metadata.name) metadataTag = none ∧
        w' = w.withDocuments (w.documents.begun p c content w.now) := by
  rw [createCluster_eq]
  refine (vetCluster_ensures p c hw hfiled).bind ?_ fun e w₁ hout => .inl ⟨⟨e, rfl⟩, hout.1⟩
  intro u w₁ hout
  obtain ⟨rfl, hvetted⟩ := hout
  obtain ⟨hvalid, hprovider, hfree⟩ := hvetted rfl
  rw [Ensures, run_fillCluster p c content hw]
  exact .inr ⟨rfl, hvalid, hprovider, hfree, rfl⟩

end Registering

end NetIntent
