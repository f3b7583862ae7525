import NetIntent.Deployment
import NetIntent.Proofs.Operation

namespace NetIntent

/-!
# The registry as a table

Providers, clusters and intents are rows of one store, under keys that tell them apart. Each
operation on them reads what is stored under its names, and changes the rows of one key.

* `Registry.providerKey`, `clusterKey`, `Intent.key` — which keys are equal, and which keys a
  pattern covers;
* `DocumentStore.ledger?`, `DocumentStore.Open` — the ledger of a cluster, and whether its intents
  may be changed;
* `checkCluster_reads` — the gate through which every change of a cluster goes;
* `createProvider_atomic`, `deleteProvider_atomic`, `Intent.create_atomic`, `Intent.delete_atomic`,
  `record_atomic` — the operations with one change;
* `createCluster_ensures` — the operation with three.
-/

open Registry

/-! ### Keys -/

namespace Registry

/-- The key of a provider has one field. -/
theorem get?_providerKey (p field : String) :
    (providerKey p).get? field = if field = "provider" then some p else none := by
  show (OrderedMap.empty.insert "provider" p).get? field = _
  rw [OrderedMap.get?_insert, OrderedMap.get?_empty]

/-- The key of a cluster has two fields. -/
theorem get?_clusterKey (p c field : String) :
    (clusterKey p c).get? field
      = if field = "cluster" then some c else if field = "provider" then some p else none := by
  show ((OrderedMap.empty.insert "provider" p).insert "cluster" c).get? field = _
  rw [OrderedMap.get?_insert, OrderedMap.get?_insert, OrderedMap.get?_empty]

/-- The key of a provider with a name has no empty fields. -/
theorem providerKey_exact {p : String} (hp : p ≠ "") : (providerKey p).Exact :=
  DocumentKey.exact_empty.insert "provider" hp

/-- The key of a cluster with names has no empty fields. -/
theorem clusterKey_exact {p c : String} (hp : p ≠ "") (hc : c ≠ "") : (clusterKey p c).Exact :=
  (providerKey_exact hp).insert "cluster" hc

/-- The key of a provider tells which provider it is. -/
@[simp] theorem providerKey_inj {p p' : String} : providerKey p = providerKey p' ↔ p = p' := by
  constructor
  · intro h
    have hp := congrArg (OrderedMap.get? · "provider") h
    simpa [get?_providerKey] using hp
  · rintro rfl
    rfl

/-- The key of a cluster tells which cluster it is. -/
@[simp] theorem clusterKey_inj {p c p' c' : String} :
    clusterKey p c = clusterKey p' c' ↔ p = p' ∧ c = c' := by
  constructor
  · intro h
    -- Equal keys have equal fields.
    have hc := congrArg (OrderedMap.get? · "cluster") h
    have hp := congrArg (OrderedMap.get? · "provider") h
    simp only [get?_clusterKey] at hc hp
    exact ⟨by simpa using hp, by simpa using hc⟩
  · rintro ⟨rfl, rfl⟩
    rfl

/-- No cluster has the key of a provider. -/
@[simp] theorem clusterKey_ne_providerKey (p c p' : String) : clusterKey p c ≠ providerKey p' := by
  intro h
  have hc := congrArg (OrderedMap.get? · "cluster") h
  simp [get?_clusterKey, get?_providerKey] at hc

/-- A pattern of clusters covers the keys of clusters with the names that it gives. -/
theorem covers_clusterKey_iff {p c : String} {key : DocumentKey} :
    (clusterKey p c).covers key = true ↔
      ∃ q k, key = clusterKey q k ∧ (p = "" ∨ q = p) ∧ (c = "" ∨ k = c) := by
  constructor
  · intro h
    obtain ⟨q, hq, hqp⟩ := DocumentKey.exists_of_covers h (get?_clusterKey p c "provider")
    obtain ⟨k, hk, hkc⟩ := DocumentKey.exists_of_covers h (get?_clusterKey p c "cluster")
    refine ⟨q, k, OrderedMap.ext_get? fun field => ?_, hqp, hkc⟩
    rw [get?_clusterKey]
    split
    · simp_all
    · split
      · simp_all
      · -- no other field is in the pattern, and so none is in the key
        refine DocumentKey.get?_eq_none_of_covers h ?_
        simp_all [get?_clusterKey]
  · rw [DocumentKey.covers_iff_rel]
    rintro ⟨q, k, rfl, hp, hc⟩ field
    rw [get?_clusterKey, get?_clusterKey]
    split
    · exact .some hc
    · split
      · exact .some hp
      · exact .none

end Registry

namespace Intent

variable {α : Type} [Intent α]

/-- The key of an intent has three fields. -/
theorem get?_key (p c n field : String) :
    (key α p c n).get? field
      = if field = Intent.keyField α then some n
        else if field = "cluster" then some c
        else if field = "provider" then some p else none := by
  show (((OrderedMap.empty.insert "provider" p).insert "cluster" c).insert
    (Intent.keyField α) n).get? field = _
  rw [OrderedMap.get?_insert, OrderedMap.get?_insert, OrderedMap.get?_insert, OrderedMap.get?_empty]

/-- The name of an intent is in a field of its own. -/
@[simp] theorem get?_key_keyField (p c n : String) :
    (key α p c n).get? (Intent.keyField α) = some n := by
  rw [get?_key, if_pos rfl]

variable [LawfulIntent α]

/-- The key of an intent names its cluster. -/
@[simp] theorem get?_key_cluster (p c n : String) : (key α p c n).get? "cluster" = some c := by
  rw [get?_key, if_neg (LawfulIntent.keyField_ne_cluster (α := α)).symm, if_pos rfl]

/-- The key of an intent names its provider. -/
@[simp] theorem get?_key_provider (p c n : String) : (key α p c n).get? "provider" = some p := by
  rw [get?_key, if_neg (LawfulIntent.keyField_ne_provider (α := α)).symm]
  rfl

/-- The key of an intent tells which intent it is. -/
@[simp] theorem key_inj {p c n p' c' n' : String} :
    key α p c n = key α p' c' n' ↔ p = p' ∧ c = c' ∧ n = n' := by
  constructor
  · intro h
    have hp := congrArg (OrderedMap.get? · "provider") h
    have hc := congrArg (OrderedMap.get? · "cluster") h
    have hn := congrArg (OrderedMap.get? · (Intent.keyField α)) h
    simp only [get?_key_provider, get?_key_cluster, get?_key_keyField, Option.some.injEq]
      at hp hc hn
    exact ⟨hp, hc, hn⟩
  · rintro ⟨rfl, rfl, rfl⟩
    rfl

/-- No cluster has the key of an intent. -/
@[simp] theorem clusterKey_ne_key (p c p' c' n : String) :
    Registry.clusterKey p c ≠ key α p' c' n := by
  intro h
  have hn := congrArg (OrderedMap.get? · (Intent.keyField α)) h
  simp [Registry.get?_clusterKey, LawfulIntent.keyField_ne_cluster,
    LawfulIntent.keyField_ne_provider] at hn

/-- A pattern of intents covers the keys of intents with the names that it gives. -/
theorem covers_iff {p c n : String} {k : DocumentKey} :
    (key α p c n).covers k = true ↔
      ∃ q j m, k = key α q j m ∧ (p = "" ∨ q = p) ∧ (c = "" ∨ j = c) ∧ (n = "" ∨ m = n) := by
  constructor
  · intro h
    obtain ⟨q, hq, hqp⟩ := DocumentKey.exists_of_covers h (get?_key_provider p c n)
    obtain ⟨j, hj, hjc⟩ := DocumentKey.exists_of_covers h (get?_key_cluster p c n)
    obtain ⟨m, hm, hmn⟩ := DocumentKey.exists_of_covers h (get?_key_keyField p c n)
    refine ⟨q, j, m, OrderedMap.ext_get? fun field => ?_, hqp, hjc, hmn⟩
    rw [get?_key]
    split
    · simp_all
    · split
      · simp_all
      · split
        · simp_all
        · -- no other field is in the pattern, and so none is in the key
          refine DocumentKey.get?_eq_none_of_covers h ?_
          simp_all [get?_key]
  · rw [DocumentKey.covers_iff_rel]
    rintro ⟨q, j, m, rfl, hp, hc, hn⟩ field
    rw [get?_key, get?_key]
    split
    · exact .some hn
    · split
      · exact .some hc
      · split
        · exact .some hp
        · exact .none

/-- The pattern of all intents on a cluster covers the keys with some name. -/
theorem covers_key_iff {p c : String} {k : DocumentKey} (hp : p ≠ "") (hc : c ≠ "") :
    (key α p c "").covers k = true ↔ ∃ n, k = key α p c n := by
  simp [covers_iff, hp, hc]

end Intent

/-! ### Ledgers -/

/-- The ledger of a cluster, if there is one that can be read. -/
def DocumentStore.ledger? (d : DocumentStore) (p c : String) : Option Ledger :=
  (d.value? Registry.store (clusterKey p c) ledgerTag).bind Ledger.ofJson?

/-- The documents with another ledger of a cluster. -/
def DocumentStore.withLedger (d : DocumentStore) (p c : String) (l : Ledger) : DocumentStore :=
  d.insert Registry.store (clusterKey p c) ledgerTag l.toJson

/-- The intents of a cluster may be changed: they are not applied. -/
def DocumentStore.Open (d : DocumentStore) (p c : String) : Prop :=
  ∃ l, d.ledger? p c = some l ∧ l.current ≠ .ok .applied

/-- An operation is allowed only in a state of a cluster, and on applied intents it has to be their
    termination. -/
theorem Lifecycle.check_ok {cluster : String} {l : Ledger} {operation : ClusterOperation}
    {state : ClusterState} (h : check cluster l operation = .ok state) :
    l.current = .ok state.toLedgerState ∧ (state = .applied ↔ operation = .terminate) := by
  -- Only three of the states of a ledger are states of a cluster.
  unfold check ClusterState.ofLedger at h
  cases hl : l.current with
  | error e => simp [hl] at h
  | ok s =>
    simp only [hl] at h
    cases s <;> simp only [ClusterState.ofLedgerState?] at h <;> try cases h
    all_goals
      cases operation <;> cases h <;> exact ⟨rfl, by simp⟩

/-! ### What the operations read -/

namespace Registry

open Op

variable {α : Type} (read : Json → Option α)

/-- A search for one value takes the first one. -/
theorem findOne_reads (pattern : DocumentKey) (tag : String) :
    (findOne read pattern tag).Reads fun w found =>
      (w.documents.find store pattern tag).head?.bind read = found := by
  unfold findOne
  refine (findDocuments_reads store pattern tag).step fun values => ?_
  cases values with
  | nil =>
    refine reads_pure fun w hvalues => ?_
    rw [← hvalues]
    rfl
  | cons v values =>
    cases hv : read v with
    | none =>
      simp only [hv]
      exact reads_throw _
    | some a =>
      simp only [hv]
      refine reads_pure fun w hvalues => ?_
      rw [← hvalues]
      exact hv

/-- A search for one key finds what is stored there. -/
theorem findOne_exact_reads {key : DocumentKey} (hkey : key.Exact) (tag : String) :
    (findOne read key tag).Reads fun w found =>
      w.documents.Filed → (w.documents.value? store key tag).bind read = found := by
  refine (findOne_reads read key tag).mono fun w found hfound hfiled => ?_
  rw [DocumentStore.find_eq_toList hfiled hkey] at hfound
  rw [← hfound]
  cases w.documents.value? store key tag <;> rfl

/-- A search for all keys of a pattern finds what is stored there, and all of it can be read. -/
theorem findAll_reads (pattern : DocumentKey) (tag : String) :
    (findAll read pattern tag).Reads fun w found =>
      (w.documents.find store pattern tag).mapM read = some found := by
  unfold findAll
  refine (findDocuments_reads store pattern tag).step fun values => ?_
  cases hv : values.mapM read with
  | none => exact reads_throw _
  | some found =>
    refine reads_pure fun w hvalues => ?_
    rw [← hvalues]
    exact hv

/-- What is required is what was found. -/
theorem require_reads (found : Option α) (entity key : String) :
    (require found entity key).Reads fun _ a => found = some a := by
  cases found with
  | none => exact reads_throw _
  | some a => exact reads_pure fun _ => rfl

end Registry

section Lookups

open Op

/-- What is stored at a name that is no pattern. -/
theorem getProvider_reads (p : String) :
    (getProvider p).Reads fun w a => p ≠ "" ∧ (w.documents.Filed →
      (w.documents.value? Registry.store (providerKey p) metadataTag).bind Provider.ofJson?
        = some a) := by
  unfold getProvider
  by_cases hp : p = ""
  · simp only [hp, if_true, throw_bind]
    exact reads_throw _
  · simp only [hp, if_false]
    refine ((findOne_exact_reads _ (providerKey_exact hp) _).bind fun found =>
      require_reads found _ _).mono ?_
    intro w a hread
    obtain ⟨found, hfound, rfl⟩ := hread
    exact ⟨hp, hfound⟩

/-- A tag of a cluster is read from its document, and both names are given. -/
theorem getClusterTag_reads {α : Type} (read : Json → Option α) (tag entity p c : String) :
    (getClusterTag read tag entity p c).Reads fun w a => p ≠ "" ∧ c ≠ "" ∧ (w.documents.Filed →
      (w.documents.value? Registry.store (clusterKey p c) tag).bind read = some a) := by
  unfold getClusterTag exactClusterKey
  by_cases hne : p = "" ∨ c = ""
  · simp only [hne, if_true]
    exact reads_throw _
  · obtain ⟨hp, hc⟩ := not_or.1 hne
    simp only [hne, if_false, of_ok_bind]
    refine ((findOne_exact_reads _ (clusterKey_exact hp hc) _).bind fun found =>
      require_reads found _ _).mono ?_
    intro w a hread
    obtain ⟨found, hfound, rfl⟩ := hread
    exact ⟨hp, hc, hfound⟩

/-- A ledger is read from the document of its cluster. -/
theorem getLedger_reads (p c : String) :
    (getLedger p c).Reads fun w l => p ≠ "" ∧ c ≠ "" ∧
      (w.documents.Filed → w.documents.ledger? p c = some l) :=
  getClusterTag_reads Ledger.ofJson? ledgerTag "Cluster" p c

/-- The gate of every change of a cluster: its ledger is there, and the operation is allowed. -/
theorem checkCluster_reads (p c : String) (operation : ClusterOperation) :
    (checkCluster p c operation).Reads fun w found => p ≠ "" ∧ c ≠ "" ∧
      (w.documents.Filed → w.documents.ledger? p c = some found.1) ∧
      found.1.current = .ok found.2.toLedgerState ∧
      (found.2 = .applied ↔ operation = .terminate) := by
  unfold checkCluster
  -- The state is that of the ledger that was read.
  have hcheck : ∀ l, Reads
      (do
        let state ← Op.of (Lifecycle.check (contextClusterName p c) l operation)
        return (l, state))
      fun _ found => found.1 = l ∧ found.1.current = .ok found.2.toLedgerState ∧
        (found.2 = .applied ↔ operation = .terminate) := by
    intro l
    cases h : Lifecycle.check (contextClusterName p c) l operation with
    | error e => exact reads_throw e
    | ok state => exact reads_pure fun _ => ⟨rfl, Lifecycle.check_ok h⟩
  refine ((getLedger_reads p c).bind hcheck).mono ?_
  intro w found hread
  obtain ⟨l, ⟨hp, hc, hl⟩, rfl, hstate⟩ := hread
  exact ⟨hp, hc, hl, hstate⟩

/-- The gate of a change that applied intents refuse. -/
theorem checkCluster_open (p c : String) {operation : ClusterOperation}
    (hop : operation ≠ .terminate) :
    (checkCluster p c operation).Reads fun w found => p ≠ "" ∧ c ≠ "" ∧
      (w.documents.Filed → w.documents.ledger? p c = some found.1) ∧
      found.1.current ≠ .ok .applied := by
  refine (checkCluster_reads p c operation).mono ?_
  rintro w ⟨l, state⟩ ⟨hp, hc, hl, hcurrent, hstate⟩
  refine ⟨hp, hc, hl, fun happlied => hop (hstate.1 ?_)⟩
  cases state <;> simp_all [ClusterState.toLedgerState]

variable {α : Type} [Intent α]

/-- An intent is looked up under a name that is given, and the first that is found is taken. -/
theorem Intent.get_reads (n p c : String) :
    (Intent.get α n p c).Reads fun w i => n ≠ "" ∧
      (w.documents.find Registry.store (Intent.key α p c n) (Intent.tag α)).head?.bind
        Intent.ofJson? = some i := by
  unfold Intent.get
  by_cases hn : n = ""
  · simp only [hn, if_true, throw_bind]
    exact reads_throw _
  · simp only [hn, if_false]
    refine ((findOne_reads _ _ _).bind fun found => require_reads found _ _).mono ?_
    rintro w i ⟨found, hfound, rfl⟩
    exact ⟨hn, hfound⟩

/-- All intents of a cluster are those that a search finds, and all of them can be read. -/
theorem Intent.getAll_reads (p c : String) :
    (Intent.getAll α p c).Reads fun w intents => p ≠ "" ∧ c ≠ "" ∧
      (w.documents.find Registry.store (Intent.key α p c "") (Intent.tag α)).mapM Intent.ofJson?
        = some intents := by
  unfold Intent.getAll
  by_cases hne : p = "" ∨ c = ""
  · simp only [hne, if_true, throw_bind]
    exact reads_throw _
  · obtain ⟨hp, hc⟩ := not_or.1 hne
    simp only [hne, if_false]
    exact (findAll_reads _ _ _).mono fun w intents h => ⟨hp, hc, h⟩

end Lookups

/-! ### What the operations change -/

section Changes

open Op

/-- To put a value inserts it at once, or nothing. -/
theorem put_atomic (key : DocumentKey) (tag : String) (value : Json) :
    (put key tag value).Atomic fun w d => d = w.documents.insert Registry.store key tag value :=
  insertDocument_atomic Registry.store key tag value

/-- To remove a document removes it at once, or nothing. -/
theorem remove_atomic (key : DocumentKey) :
    (remove key).Atomic fun w d => d = w.documents.remove Registry.store key :=
  removeDocument_atomic Registry.store key

/-- A change that is refused under some condition. -/
theorem guard_atomic {α : Type} (refused : Prop) [Decidable refused] {op : Op α}
    {change : World → DocumentStore → Prop} (e : Failure) (h : op.Atomic change) :
    (if refused then throw e else op).Atomic change := by
  split
  · exact atomic_throw e
  · exact h

/-- Creating a provider stores it if its metadata are valid. -/
theorem createProvider_atomic (p : Provider) :
    (createProvider p).Atomic fun w d => p.metadata.validate = .ok () ∧
      d = w.documents.insert Registry.store (providerKey p.metadata.name) metadataTag p.toJson := by
  unfold createProvider
  cases hvalid : p.metadata.validate with
  | error e => exact atomic_throw e
  | ok u =>
    simp only [of_ok_bind, throw_bind]
    refine ((findOne_reads Provider.ofJson? (providerKey p.metadata.name)
      metadataTag).bind_atomic fun found =>
        guard_atomic _ _ ((put_atomic _ _ _).bind_pure p)).mono ?_
    intro w d hchange
    obtain ⟨found, -, rfl⟩ := hchange
    exact ⟨trivial, rfl⟩

/-- Deleting a provider removes it if a name is given. -/
theorem deleteProvider_atomic (p : String) :
    (deleteProvider p).Atomic fun w d => p ≠ "" ∧
      d = w.documents.remove Registry.store (providerKey p) := by
  refine ((getProvider_reads p).bind_atomic fun _ => remove_atomic (providerKey p)).mono ?_
  intro w d hchange
  obtain ⟨a, ⟨hp, -⟩, rfl⟩ := hchange
  exact ⟨hp, rfl⟩

section Intents

variable {α : Type} [Intent α]

/-- An intent is stored while those of its cluster are not applied, and if it is valid. -/
theorem Intent.create_atomic (i : α) (p c : String) (mayExist : Bool) :
    (Intent.create i p c mayExist).Atomic fun w d => p ≠ "" ∧ c ≠ "" ∧
      (w.documents.Filed → w.documents.Open p c) ∧ Intent.validate i = .ok () ∧
      d = w.documents.insert Registry.store (Intent.key α p c (Intent.name i)) (Intent.tag α)
        (Intent.toJson i) := by
  have hput := (put_atomic (Intent.key α p c (Intent.name i)) (Intent.tag α)
    (Intent.toJson i)).bind_pure i
  have hnew := ((findOne_reads (Intent.ofJson? (α := α)) (Intent.key α p c (Intent.name i))
    (Intent.tag α)).bind_atomic fun found => guard_atomic (found.isSome = true)
      (.alreadyExists (Intent.entity α) (Intent.name i)) hput).mono fun _ _ ⟨_, _, h⟩ => h
  have hgate := checkCluster_open p c (show ClusterOperation.createIntent ≠ .terminate by decide)
  unfold Intent.create
  cases hvalid : Intent.validate i with
  | error e => exact atomic_throw e
  | ok u =>
    simp only [of_ok_bind, throw_bind]
    -- Whether the name has to be new or not, the gate comes first and the change last.
    cases mayExist with
    | true =>
      refine (hgate.bind_atomic fun _ => hput).mono ?_
      intro w d hchange
      obtain ⟨found, ⟨hp, hc, hl, hcurrent⟩, hd⟩ := hchange
      exact ⟨hp, hc, fun hfiled => ⟨found.1, hl hfiled, hcurrent⟩, trivial, hd⟩
    | false =>
      refine (hgate.bind_atomic fun _ => hnew).mono ?_
      intro w d hchange
      obtain ⟨found, ⟨hp, hc, hl, hcurrent⟩, hd⟩ := hchange
      exact ⟨hp, hc, fun hfiled => ⟨found.1, hl hfiled, hcurrent⟩, trivial, hd⟩

/-- An intent is removed while those of its cluster are not applied. -/
theorem Intent.delete_atomic (n p c : String) :
    (Intent.delete α n p c).Atomic fun w d => p ≠ "" ∧ c ≠ "" ∧ n ≠ "" ∧
      (w.documents.Filed → w.documents.Open p c) ∧
      d = w.documents.remove Registry.store (Intent.key α p c n) := by
  refine ((checkCluster_open p c (by decide)).bind_atomic fun _ =>
    (Intent.get_reads n p c).bind_atomic fun _ => remove_atomic (Intent.key α p c n)).mono ?_
  intro w d hchange
  obtain ⟨found, ⟨hp, hc, hl, hcurrent⟩, i, ⟨hn, -⟩, rfl⟩ := hchange
  exact ⟨hp, hc, hn, fun hfiled => ⟨found.1, hl hfiled, hcurrent⟩, rfl⟩

end Intents

/-- An action is recorded in the ledger that was read before. -/
theorem record_atomic (p c : String) (l : Ledger) (state : LedgerState) (id : String) :
    (Deployment.record p c l state id).Atomic fun w d => p ≠ "" ∧ c ≠ "" ∧
      (w.documents.Filed → w.documents.ledger? p c = some l) ∧
      d = w.documents.withLedger p c (l.append state id w.now) := by
  intro w hw
  -- The change is made only if the ledger that is read now is the one that was read before.
  have hput : ∀ current, (if current ≠ l then throw (.stateConflict (contextClusterName p c))
      else putLedger p c (l.append state id w.now) : Op Unit).Atomic fun v d => current = l ∧
        d = v.documents.withLedger p c (l.append state id w.now) := by
    intro current
    split
    · exact atomic_throw _
    · rename_i hsame
      exact (put_atomic _ _ _).mono fun v d hd => ⟨Decidable.not_not.1 hsame, hd⟩
  unfold Deployment.record replaceLedger
  simp only [throw_bind]
  refine ensures_now ((((getLedger_reads p c).bind_atomic hput) w hw).mono fun r w' hr => ?_)
  refine hr.imp_right ?_
  rintro ⟨a, d, ha, ⟨current, ⟨hp, hc, hl⟩, rfl, hd⟩, hquiet⟩
  exact ⟨a, d, ha, ⟨hp, hc, hl, hd⟩, hquiet⟩

/-- To put a value inserts it, or fails and changes nothing. -/
theorem put_ensures (key : DocumentKey) (tag : String) (value : Json) {w : World}
    (hw : w.Faithful) :
    (put key tag value).Ensures w fun r w' =>
      (∃ e, r = .error e) ∧ w.Quiet w' ∨ r = .ok () ∧
        (w.withDocuments (w.documents.insert Registry.store key tag value)).Quiet w' := by
  refine (put_atomic key tag value w hw).mono fun r w' h => ?_
  rcases h with ⟨e, rfl, hquiet⟩ | ⟨a, d, rfl, rfl, hquiet⟩
  · exact .inl ⟨⟨e, rfl⟩, hquiet⟩
  · exact .inr ⟨rfl, hquiet⟩

/-- A cluster of which only the metadata are stored. -/
def DocumentStore.described (d : DocumentStore) (p : String) (c : Cluster) : DocumentStore :=
  d.insert Registry.store (clusterKey p c.metadata.name) metadataTag c.toJson

/-- A cluster of which the metadata and the content are stored. -/
def DocumentStore.filled (d : DocumentStore) (p : String) (c : Cluster)
    (content : ClusterContent) : DocumentStore :=
  (d.described p c).insert Registry.store (clusterKey p c.metadata.name) contentTag content.toJson

/-- A cluster whose ledger is begun. -/
def DocumentStore.begun (d : DocumentStore) (p : String) (c : Cluster) (content : ClusterContent)
    (time : Timestamp) : DocumentStore :=
  (d.filled p c content).withLedger p c.metadata.name (Ledger.append {} .created "" time)

/-- The three documents of a cluster are stored one after the other, up to the first failure. -/
theorem fillCluster_ensures (p : String) (c : Cluster) (content : ClusterContent) {w : World}
    (hw : w.Faithful) :
    (do
      put (clusterKey p c.metadata.name) metadataTag c.toJson
      put (clusterKey p c.metadata.name) contentTag content.toJson
      let time ← Op.now
      put (clusterKey p c.metadata.name) ledgerTag (Ledger.append {} .created "" time).toJson
      return c : Op Cluster).Ensures w fun r w' =>
        (∃ e, r = .error e) ∧ (∃ d, (w.withDocuments d).Quiet w' ∧
          (d = w.documents ∨ d = w.documents.described p c ∨
            d = w.documents.filled p c content)) ∨
          r = .ok c ∧
            (w.withDocuments (w.documents.begun p c content w.now)).Quiet w' := by
  -- Each of the three calls may be the one that fails.
  refine (put_ensures _ _ _ hw).bind ?_ ?_
  · intro a w₁ hout
    rcases hout with ⟨⟨e, he⟩, -⟩ | ⟨-, hquiet⟩
    · cases he
    have hw₁ := hquiet.faithful
    obtain ⟨faults₁, -, rfl⟩ := hquiet
    refine (put_ensures _ _ _ hw₁).bind ?_ ?_
    · intro a w₂ hout
      rcases hout with ⟨⟨e, he⟩, -⟩ | ⟨-, hquiet⟩
      · cases he
      have hw₂ := hquiet.faithful
      obtain ⟨faults₂, -, rfl⟩ := hquiet
      refine ensures_now ((put_ensures _ _ _ hw₂).bind ?_ ?_)
      · intro a w₃ hout
        rcases hout with ⟨⟨e, he⟩, -⟩ | ⟨-, hquiet⟩
        · cases he
        · exact ensures_pure (.inr ⟨rfl, hquiet⟩)
      · intro e w₃ hout
        rcases hout with ⟨-, hquiet⟩ | ⟨he, -⟩
        · exact .inl ⟨⟨e, rfl⟩, _, hquiet, .inr (.inr rfl)⟩
        · cases he
    · intro e w₂ hout
      rcases hout with ⟨-, hquiet⟩ | ⟨he, -⟩
      · exact .inl ⟨⟨e, rfl⟩, _, hquiet, .inr (.inl rfl)⟩
      · cases he
  · intro e w₁ hout
    rcases hout with ⟨-, hquiet⟩ | ⟨he, -⟩
    · exact .inl ⟨⟨e, rfl⟩, _, hquiet, .inl rfl⟩
    · cases he

/-- A cluster is begun only under a name that is free. If a call fails midway, then its metadata, or
    these and its content, stay. -/
theorem createCluster_ensures (p : String) (c : Cluster) (content : ClusterContent) {w : World}
    (hw : w.Faithful) :
    (createCluster p c content).Ensures w fun r w' =>
      (∃ e, r = .error e) ∧ w.Quiet w' ∨
        p ≠ "" ∧ c.metadata.validate = .ok () ∧
          (w.documents.Filed → (w.documents.value? Registry.store
            (clusterKey p c.metadata.name) metadataTag).bind Cluster.ofJson? = none) ∧
          ((∃ e, r = .error e) ∧ (∃ d, (w.withDocuments d).Quiet w' ∧
            (d = w.documents ∨ d = w.documents.described p c ∨
              d = w.documents.filled p c content)) ∨
            r = .ok c ∧
              (w.withDocuments (w.documents.begun p c content w.now)).Quiet w') := by
  unfold createCluster
  cases hvalid : c.metadata.validate with
  | error e => exact ensures_throw (.inl ⟨⟨e, rfl⟩, hw.quiet⟩)
  | ok u =>
    simp only [of_ok_bind, throw_bind]
    have hname : c.metadata.name ≠ "" := by
      intro hempty
      simp [Metadata.validate, hempty] at hvalid
    -- Nothing is stored before the provider and the name have been looked up.
    refine (getProvider_reads p w hw).bind ?_ ?_
    · intro provider w₁ hout
      obtain ⟨hquiet, hprovider⟩ := hout
      obtain ⟨hp, -⟩ := hprovider provider rfl
      have hw₁ := hquiet.faithful
      obtain ⟨faults₁, -, rfl⟩ := hquiet
      refine (findOne_exact_reads Cluster.ofJson? (clusterKey_exact hp hname) metadataTag _
        hw₁).bind ?_ ?_
      · intro found w₂ hout
        obtain ⟨hquiet, hfound⟩ := hout
        have hfree := hfound found rfl
        have hw₂ := hquiet.faithful
        obtain ⟨faults₂, -, rfl⟩ := hquiet
        cases found with
        | some taken => exact ensures_throw (.inl ⟨⟨_, rfl⟩, _, hw₂, rfl⟩)
        | none =>
          refine (fillCluster_ensures p c content hw₂).mono fun r w' h => ?_
          exact .inr ⟨hp, trivial, hfree, h⟩
      · intro e w₂ hout
        obtain ⟨hquiet, -⟩ := hout
        exact .inl ⟨⟨e, rfl⟩, hquiet⟩
    · intro e w₁ hout
      obtain ⟨hquiet, -⟩ := hout
      exact .inl ⟨⟨e, rfl⟩, hquiet⟩

end Changes

end NetIntent
