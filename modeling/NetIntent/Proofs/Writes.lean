import Mathlib.Data.List.Induction
import NetIntent.Proofs.Declarations
import NetIntent.Proofs.Undisturbed

namespace NetIntent

/-!
# What a run writes

The documents of the registry change in two ways only: a value is stored under a tag of a key, or a
key is removed with all its tags. The writes of a run, in order, tell what is stored after it.

* `Write`, `DocumentStore.writing` — such a change, and the documents after a list of them;
* `Write.Lasts`, `DocumentStore.value?_writing` — what is stored is what was stored last and was not
  removed since;
* `enrolCluster`, `equipCluster` — registering a cluster up to its metadata, and up to its content;
* `Vetted` — what is checked before;
* `Action.writes`, `Action.documents_perform` — the writes of an operation, told by its outcome;
* `Write.Lawful` — what is written describes a provider, a cluster or an intent with its names;
* `History.log`, `documents_after` — the writes of a run, and the documents after it.
-/

open Op Registry

/-! ### Writes -/

/-- One change of the documents of the registry. -/
inductive Write where
  /-- A value is stored under a tag of a key. -/
  | insert (key : DocumentKey) (tag : String) (value : Json)
  /-- A key is removed with all its tags. -/
  | remove (key : DocumentKey)

namespace Write

/-- A provider is stored. -/
def provider (p : Provider) : Write :=
  .insert (providerKey p.metadata.name) metadataTag p.toJson

/-- The metadata of a cluster are stored. -/
def cluster (p : String) (c : Cluster) : Write :=
  .insert (clusterKey p c.metadata.name) metadataTag c.toJson

/-- The content of a cluster is stored. -/
def content (p c : String) (content : ClusterContent) : Write :=
  .insert (clusterKey p c) contentTag content.toJson

/-- The ledger of a cluster is stored. -/
def ledger (p c : String) (l : Ledger) : Write := .insert (clusterKey p c) ledgerTag l.toJson

/-- An intent is stored. -/
def intent {α : Type} [Intent α] (p c : String) (i : α) : Write :=
  .insert (Intent.key α p c (Intent.name i)) (Intent.tag α) (Intent.toJson i)

/-- The first write takes away what the second one stored, or puts something in its place. -/
def Replaces (later earlier : Write) : Prop :=
  ∃ key tag v, earlier = insert key tag v ∧ (later = remove key ∨ ∃ u, later = insert key tag u)

/-- The write is one of the list, and no later one replaces it. -/
def Lasts (w : Write) (log : List Write) : Prop :=
  ∃ before after, log = before ++ w :: after ∧ ∀ later ∈ after, ¬ later.Replaces w

variable {log : List Write} {w later : Write} {key : DocumentKey} {tag : String} {v : Json}

/-- A write that lasts was made. -/
theorem Lasts.mem (h : w.Lasts log) : w ∈ log := by
  obtain ⟨before, after, rfl, -⟩ := h
  simp

/-- With one more write, a write lasts if it is that one, or if it lasted and is not replaced. -/
theorem lasts_concat : w.Lasts (log ++ [later]) ↔ w = later ∨ w.Lasts log ∧ ¬ later.Replaces w := by
  constructor
  · rintro ⟨before, after, hlog, hafter⟩
    -- The write is the last one of the log, or it stands before that.
    rcases List.eq_nil_or_concat' after with rfl | ⟨after, last, rfl⟩
    · have hlast := (List.append_inj' hlog rfl).2
      exact .inl (List.cons.inj hlast).1.symm
    · rw [← List.cons_append, ← List.append_assoc] at hlog
      obtain ⟨rfl, hlast⟩ := List.append_inj' hlog rfl
      obtain rfl : later = last := (List.cons.inj hlast).1
      have hkept : w.Lasts (before ++ w :: after) :=
        ⟨before, after, rfl, fun u hu => hafter u (List.mem_append_left _ hu)⟩
      exact .inr ⟨hkept, hafter later (by simp)⟩
  · rintro (rfl | ⟨⟨before, after, rfl, hafter⟩, hlater⟩)
    · exact ⟨log, [], rfl, nofun⟩
    · refine ⟨before, after ++ [later], by simp, fun u hu => ?_⟩
      rcases List.mem_append.1 hu with hu | hu
      · exact hafter u hu
      · exact List.mem_singleton.1 hu ▸ hlater

/-- What is stored at a tag of a key is replaced by another value there, or by the removal of the
    key. -/
theorem replaces_insert_iff :
    later.Replaces (insert key tag v) ↔ later = remove key ∨ ∃ u, later = insert key tag u := by
  constructor
  · rintro ⟨key', tag', v', hsame, h⟩
    cases hsame
    exact h
  · exact fun h => ⟨key, tag, v, rfl, h⟩

end Write

namespace DocumentStore

variable {d : DocumentStore} {log more : List Write} {key : DocumentKey} {tag : String} {v : Json}

/-- The documents after one write. -/
def write (d : DocumentStore) : Write → DocumentStore
  | .insert key tag value => d.insert Registry.store key tag value
  | .remove key => d.remove Registry.store key

/-- The documents after these writes. -/
def writing (d : DocumentStore) (log : List Write) : DocumentStore := log.foldl write d

/-- Without writes the documents stay. -/
@[simp] theorem writing_nil (d : DocumentStore) : d.writing [] = d := rfl

/-- Two lists of writes are made one after the other. -/
theorem writing_append (d : DocumentStore) (log more : List Write) :
    d.writing (log ++ more) = (d.writing log).writing more := List.foldl_append ..

/-- Writes leave the documents filed under the keys that they have. -/
theorem Filed.writing (h : d.Filed) (log : List Write) : (d.writing log).Filed := by
  induction log generalizing d with
  | nil => exact h
  | cons w log ih =>
    cases w with
    | insert key tag v => exact ih (h.insert v)
    | remove key => exact ih h.remove

/-- What is stored after some writes is what was stored last and was not removed since. -/
theorem value?_writing (log : List Write) :
    (empty.writing log).value? Registry.store key tag = some v
      ↔ (Write.insert key tag v).Lasts log := by
  induction log using List.reverseRecOn with
  | nil =>
    refine iff_of_false nofun ?_
    rintro ⟨before, after, hlog, -⟩
    simp at hlog
  | append_singleton log w ih =>
    -- What was stored before counts unless the last write replaces it.
    rw [writing_append, Write.lasts_concat, ← ih, Write.replaces_insert_iff]
    cases w with
    | insert key' tag' u =>
      show ((empty.writing log).insert Registry.store key' tag' u).value? _ key tag = some v ↔ _
      rw [value?_insert]
      by_cases hkey : key = key' ∧ tag = tag'
      · obtain ⟨rfl, rfl⟩ := hkey
        simp [eq_comm]
      · have hother : ¬ (key' = key ∧ tag' = tag) := fun h => hkey ⟨h.1.symm, h.2.symm⟩
        simp [hkey, hother, ← and_assoc]
    | remove key' =>
      show ((empty.writing log).remove Registry.store key').value? _ key tag = some v ↔ _
      rw [value?_remove]
      by_cases hkey : key = key'
      · simp [hkey]
      · simp [hkey, Ne.symm hkey]

end DocumentStore

/-! ### Operations that write -/

namespace Op

variable {α β : Type} {op : Op α} {w : World} {log : List Write} {write : Write}

/-- The write is made if the operation succeeds. -/
def onSuccess (op : Op α) (w : World) (write : Write) : List Write :=
  if (op.run w).1.isOk then [write] else []

/-- An operation that succeeds makes its write. -/
theorem onSuccess_of_ok {a : α} (h : (op.run w).1 = .ok a) : op.onSuccess w write = [write] := by
  simp [onSuccess, h, Except.isOk, Except.toBool]

/-- An operation that fails makes no write. -/
theorem onSuccess_of_error {e : Failure} (h : (op.run w).1 = .error e) :
    op.onSuccess w write = [] := by
  simp [onSuccess, h, Except.isOk, Except.toBool]

/-- Only an operation that succeeds makes a write. -/
theorem mem_onSuccess {later : Write} (h : later ∈ op.onSuccess w write) :
    later = write ∧ ∃ a, (op.run w).1 = .ok a := by
  cases hr : (op.run w).1 with
  | error e =>
    rw [onSuccess_of_error hr] at h
    cases h
  | ok a =>
    rw [onSuccess_of_ok hr] at h
    exact ⟨List.mem_singleton.1 h, a, rfl⟩

/-- An operation that succeeds has succeeded in its first step. -/
theorem ok_of_bind {next : α → Op β} {b : β} (h : ((op >>= next).run w).1 = .ok b) :
    ∃ a, (op.run w).1 = .ok a := by
  rw [run_bind] at h
  rcases hrun : op.run w with ⟨e | a, w'⟩
  · rw [hrun] at h
    cases h
  · exact ⟨a, rfl⟩

/-- A change that is made is as it has to be. -/
theorem Atomic.of_ok {change : World → DocumentStore → Prop} {a : α} (h : op.Atomic change)
    (hw : w.Faithful) (hok : (op.run w).1 = .ok a) : ∃ d, change w.calm d := by
  have hout := h w hw
  rw [Ensures, hok] at hout
  rcases hout with ⟨e, he, -⟩ | ⟨b, d, -, hd, -⟩
  · cases he
  · exact ⟨d, hd⟩

/-- The operation makes these writes, and changes nothing else. -/
def Writes (op : Op α) (w : World) (log : List Write) : Prop :=
  op.Ensures w fun _ w' => (w.withDocuments (w.documents.writing log)).Quiet w'

/-- The documents are those after the writes. -/
theorem Writes.documents (h : op.Writes w log) :
    (op.run w).2.documents = w.documents.writing log := World.Quiet.documents h

/-- An operation that changes nothing makes no writes. -/
theorem ReadOnly.writes (h : op.ReadOnly) (hw : w.Faithful) : op.Writes w [] :=
  (h w hw).mono fun _ _ hr => hr.1

/-- An operation that changes the documents once, if at all, makes its write when it succeeds. -/
theorem Atomic.writes {change : World → DocumentStore → Prop} (h : op.Atomic change)
    (hw : w.Faithful) (hchange : ∀ d, change w.calm d → d = w.documents.write write) :
    op.Writes w (op.onSuccess w write) := by
  have hout := h w hw
  rw [Ensures] at hout
  rcases hout with ⟨e, hr, hquiet⟩ | ⟨a, d, hr, hd, hquiet⟩
  · rw [onSuccess_of_error hr]
    exact hquiet
  · rw [onSuccess_of_ok hr, Writes, Ensures]
    rw [hchange d hd] at hquiet
    exact hquiet

/-- One more write after an operation. -/
theorem Writes.bind {change : World → DocumentStore → Prop} {next : α → Op β} (h : op.Writes w log)
    (hnext : ∀ a, (next a).Atomic change)
    (hchange : ∀ v d, v.now = w.now → change v d → d = v.documents.write write) :
    (op >>= next).Writes w (log ++ (op >>= next).onSuccess w write) := by
  rw [Writes, Ensures] at h ⊢
  rcases hrun : op.run w with ⟨r, w₁⟩
  rw [hrun] at h
  cases r with
  | error e =>
    have hfailed : (op >>= next).run w = (.error e, w₁) := run_bind_error hrun
    rw [hfailed, onSuccess_of_error (congrArg Prod.fst hfailed), List.append_nil]
    exact h
  | ok a =>
    have hwrites := (hnext a).writes h.faithful fun d hd => hchange w₁.calm d h.now hd
    rw [Writes, Ensures, h.documents] at hwrites
    -- The second write is made just if both steps together succeed.
    have hsame : (op >>= next).onSuccess w write = (next a).onSuccess w₁ write := by
      rw [onSuccess, onSuccess, run_bind_ok hrun]
    rw [run_bind_ok hrun, hsame, DocumentStore.writing_append]
    exact (h.withDocuments _).trans hwrites

end Op

/-! ### Registering a cluster, write by write -/

section Creation

variable (p : String) (c : Cluster) (content : ClusterContent) {w : World}

/-- Registering a cluster up to its metadata. -/
def enrolCluster : Op Unit := do
  vetCluster p c
  put (clusterKey p c.metadata.name) metadataTag c.toJson

/-- Registering a cluster up to its content. -/
def equipCluster : Op Unit := do
  enrolCluster p c
  put (clusterKey p c.metadata.name) contentTag content.toJson

/-- Beginning the ledger of a cluster, the last step of its registration. -/
def beginLedger : Op Cluster := do
  let time ← Op.now
  put (clusterKey p c.metadata.name) ledgerTag (Ledger.append {} .created "" time).toJson
  return c

/-- The registration of a cluster is equipping it, and then its ledger begins. -/
theorem createCluster_eq_equip :
    createCluster p c content = (do
      equipCluster p c content
      beginLedger p c : Op Cluster) := by
  simp only [createCluster_eq, fillCluster, equipCluster, enrolCluster, beginLedger, bind_assoc]

/-- What is known of a cluster whose registration is not refused: it has proper names, its provider
    is stored, and its name is free. -/
structure Vetted (d : DocumentStore) (p : String) (c : Cluster) : Prop where
  provider_ne : p ≠ ""
  valid : c.metadata.validate = .ok ()
  provided : d.Filed → ∃ a, (d.value? Registry.store (providerKey p) metadataTag).bind
    Provider.ofJson? = some a
  free : d.Filed → (d.value? Registry.store (clusterKey p c.metadata.name) metadataTag).bind
    Cluster.ofJson? = none

variable {p c} in
/-- A cluster that passes the check has a name. -/
theorem Vetted.name_ne {d : DocumentStore} (h : Vetted d p c) : c.metadata.name ≠ "" := by
  intro hempty
  have hvalid := h.valid
  simp [Metadata.validate, hempty] at hvalid

/-- A check that passes tells all that is known of the cluster. -/
theorem vetCluster_reads : (vetCluster p c).Reads fun w _ => Vetted w.documents p c := by
  unfold vetCluster
  cases hvalid : c.metadata.validate with
  | error e => exact reads_throw e
  | ok u =>
    have hname : c.metadata.name ≠ "" := fun hempty => by simp [Metadata.validate, hempty] at hvalid
    rw [of_ok_bind]
    refine (getProvider_reads p).step fun provider => ?_
    -- A provider that was found has a name, and so this case does not occur.
    by_cases hp : p = ""
    · have hnext := findOne_reads Cluster.ofJson? (clusterKey p c.metadata.name) metadataTag
      refine hnext.step fun found => ?_
      cases found with
      | some taken => exact reads_throw _
      | none => exact reads_pure fun w _ hprovider => absurd hp hprovider.1
    · refine (findOne_exact_reads _ (clusterKey_exact hp hname) _).step fun found => ?_
      cases found with
      | some taken => exact reads_throw _
      | none =>
        refine reads_pure fun w hfree hprovider => ⟨hp, hvalid, fun hfiled => ?_, hfree⟩
        exact ⟨provider, hprovider.2 hfiled⟩

/-- A cluster is enrolled by one change of the documents, after its check. -/
theorem enrolCluster_atomic :
    (enrolCluster p c).Atomic fun w d =>
      Vetted w.documents p c ∧ d = w.documents.described p c := by
  refine ((vetCluster_reads p c).bind_atomic fun _ => put_atomic _ _ _).mono ?_
  rintro w d ⟨-, hvetted, hd⟩
  exact ⟨hvetted, hd⟩

/-- The ledger of a cluster begins by one change of the documents. -/
theorem beginLedger_atomic :
    (beginLedger p c).Atomic fun w d =>
      d = w.documents.withLedger p c.metadata.name (Ledger.append {} .created "" w.now) :=
  fun w hw => ensures_now ((put_atomic _ _ _).bind_pure c w hw)

/-- Up to its content, the registration of a cluster makes two writes, each if it comes so far. -/
theorem equipCluster_writes (hw : w.Faithful) :
    (equipCluster p c content).Writes w
      ((enrolCluster p c).onSuccess w (.cluster p c) ++
        (equipCluster p c content).onSuccess w (.content p c.metadata.name content)) := by
  have henrol : (enrolCluster p c).Writes w ((enrolCluster p c).onSuccess w (.cluster p c)) :=
    (enrolCluster_atomic p c).writes hw fun _ hd => hd.2
  exact henrol.bind (fun _ => put_atomic _ _ _) fun v d _ hd => hd

/-- The registration of a cluster makes three writes, each if it comes so far. -/
theorem createCluster_writes (hw : w.Faithful) :
    (createCluster p c content).Writes w
      ((enrolCluster p c).onSuccess w (.cluster p c) ++
        (equipCluster p c content).onSuccess w (.content p c.metadata.name content) ++
        (createCluster p c content).onSuccess w
          (.ledger p c.metadata.name (Ledger.append {} .created "" w.now))) := by
  rw [createCluster_eq_equip]
  refine (equipCluster_writes p c content hw).bind (fun _ => beginLedger_atomic p c) ?_
  intro v d hnow hd
  rw [hd, hnow]
  rfl

end Creation

/-! ### The writes of an operation -/

/-- What an operation writes to the registry in a world. -/
def Action.writes (a : Action) (w : World) : List Write :=
  match a with
  | .createProvider p => (NetIntent.createProvider p).onSuccess w (.provider p)
  | .deleteProvider p => (NetIntent.deleteProvider p).onSuccess w (.remove (providerKey p))
  | .createCluster p c content =>
    (enrolCluster p c).onSuccess w (.cluster p c) ++
      (equipCluster p c content).onSuccess w (.content p c.metadata.name content) ++
      (NetIntent.createCluster p c content).onSuccess w
        (.ledger p c.metadata.name (Ledger.append {} .created "" w.now))
  | .deleteCluster p c => (NetIntent.deleteCluster p c).onSuccess w (.remove (clusterKey p c))
  | .createNetwork n p c mayExist => (Intent.create n p c mayExist).onSuccess w (.intent p c n)
  | .deleteNetwork n p c =>
    (Intent.delete Network n p c).onSuccess w (.remove (Intent.key Network p c n))
  | .createProviderNetwork n p c mayExist =>
    (Intent.create n p c mayExist).onSuccess w (.intent p c n)
  | .deleteProviderNetwork n p c =>
    (Intent.delete ProviderNetwork n p c).onSuccess w (.remove (Intent.key ProviderNetwork p c n))
  | .apply p c _ =>
    -- a context is recorded before the request, and whatever the answer
    (w.documents.ledger? p c).toList.flatMap fun l =>
      (Deployment.commit p c).onSuccess w
        (.ledger p c (l.append .applied (w.contextId w.minted) w.now))
  | .terminate p c cancellation =>
    (w.documents.ledger? p c).toList.flatMap fun l =>
      (Deployment.terminate p c cancellation).onSuccess w
        (.ledger p c (l.append .terminated l.lastId w.now))
  | .look _ => []

section Actions

variable {α : Type} {w : World}

/-- An operation changes the same when its result is not needed. -/
theorem Op.run_void (op : Op α) (w : World) :
    op.void.run w = ((op.run w).1.map fun _ => (), (op.run w).2) := by
  rw [Op.void, run_bind]
  rcases op.run w with ⟨_ | _, w'⟩ <;> rfl

/-- Applying writes a ledger if it is recorded, and nothing otherwise. -/
theorem Deployment.apply_documents (p c : String) (cancellation : Cancellation) (hw : w.Faithful)
    (hfiled : w.documents.Filed) :
    ((apply p c cancellation).run w).2.documents
      = w.documents.writing ((Action.apply p c cancellation).writes w) := by
  have hcommit := commit_ensures p c hw
  rw [Ensures] at hcommit
  rcases hrun : (commit p c).run w with ⟨r, w₁⟩
  rw [hrun] at hcommit
  have hstores : ((apply p c cancellation).run w).2.stores = w₁.stores := by
    rw [apply]
    cases r with
    | error e => rw [run_bind_error hrun]
    | ok id =>
      rw [run_bind_ok hrun]
      have hask : (Op.ask .install id cancellation >>= fun _ => pure id : Op String).Ensures w₁
          fun _ w₂ => w₂.stores = w₁.stores :=
        (ask_ensures .install id cancellation).bind (fun _ _ hout => ensures_pure hout.1)
          fun _ _ hout => hout.1
      exact hask
  rw [show ((apply p c cancellation).run w).2.documents = w₁.documents from
    congrArg Stores.documents hstores]
  -- Only if the context is recorded, something is written.
  have hnone : ∀ {e : Failure}, r = .error e →
      (Action.apply p c cancellation).writes w = [] := by
    rintro e rfl
    simp [Action.writes, onSuccess_of_error (congrArg Prod.fst hrun)]
  cases hcommit with
  | refused hdraft hquiet => rw [hnone rfl, hquiet.documents, DocumentStore.writing_nil]
  | undone hdraft hs hquiet =>
    rw [hnone rfl, hquiet.documents, DocumentStore.writing_nil]
    rfl
  | left hdraft hquiet =>
    rw [hnone rfl, hquiet.documents, DocumentStore.writing_nil]
    rfl
  | recorded hsurvey hwordy hquiet =>
    rw [hquiet.documents, World.withDocuments_documents]
    simp only [Action.writes, hsurvey.ledger hfiled, onSuccess_of_ok (congrArg Prod.fst hrun)]
    rfl

/-- Terminating writes a ledger if it succeeds, and nothing otherwise. -/
theorem Deployment.terminate_documents (p c : String) (cancellation : Cancellation)
    (hw : w.Faithful) (hfiled : w.documents.Filed) :
    ((terminate p c cancellation).run w).2.documents
      = w.documents.writing ((Action.terminate p c cancellation).writes w) := by
  have hterminate := terminate_ensures p c cancellation hw
  rw [Ensures] at hterminate
  rcases hterminate with ⟨⟨e, hr⟩, hstores⟩ | ⟨l, s, -, -, hledger, -, hr, -, hstores⟩
  · have hnone : (Action.terminate p c cancellation).writes w = [] := by
      simp [Action.writes, onSuccess_of_error hr]
    rw [hnone]
    exact congrArg Stores.documents hstores
  · have hone : (Action.terminate p c cancellation).writes w
        = [.ledger p c (l.append .terminated l.lastId w.now)] := by
      simp [Action.writes, hledger hfiled, onSuccess_of_ok hr]
    rw [hone]
    exact congrArg Stores.documents hstores

/-- Deleting a cluster removes its documents if it succeeds, and nothing otherwise. -/
theorem deleteCluster_documents (p c : String) (hw : w.Faithful) :
    ((deleteCluster p c).run w).2.documents
      = w.documents.writing ((Action.deleteCluster p c).writes w) := by
  have hdelete := deleteCluster_ensures p c hw
  rw [Ensures] at hdelete
  have hnone : (∃ e, ((deleteCluster p c).run w).1 = .error e) →
      (Action.deleteCluster p c).writes w = [] := by
    rintro ⟨e, hr⟩
    exact onSuccess_of_error hr
  rcases hdelete with ⟨hr, hquiet⟩ | ⟨l, live, -, ⟨hr, done, -, hquiet⟩ | ⟨hr, hquiet⟩⟩
  · rw [hnone hr, hquiet.documents, DocumentStore.writing_nil]
  · rw [hnone hr, hquiet.documents, DocumentStore.writing_nil]
    rfl
  · rw [Action.writes, onSuccess_of_ok hr, hquiet.documents]
    rfl

/-- What an operation changes in the documents are its writes. -/
theorem Action.documents_perform (a : Action) (hw : w.Faithful) (hfiled : w.documents.Filed) :
    (a.perform.run w).2.documents = w.documents.writing (a.writes w) := by
  cases a with
  | createProvider p =>
    simp only [perform, run_void, writes]
    exact Writes.documents ((createProvider_atomic p).writes hw fun _ hd => hd.2)
  | deleteProvider p =>
    simp only [perform, run_void, writes]
    exact Writes.documents ((deleteProvider_atomic p).writes hw fun _ hd => hd.2)
  | createCluster p c content =>
    simp only [perform, run_void, writes]
    exact (createCluster_writes p c content hw).documents
  | deleteCluster p c =>
    simp only [perform, run_void]
    exact deleteCluster_documents p c hw
  | createNetwork n p c mayExist =>
    simp only [perform, run_void, writes]
    exact Writes.documents
      ((Intent.create_atomic n p c mayExist).writes hw fun _ hd => hd.2.2.2.2)
  | deleteNetwork n p c =>
    simp only [perform, run_void, writes]
    exact Writes.documents ((Intent.delete_atomic n p c).writes hw fun _ hd => hd.2.2.2.2)
  | createProviderNetwork n p c mayExist =>
    simp only [perform, run_void, writes]
    exact Writes.documents
      ((Intent.create_atomic n p c mayExist).writes hw fun _ hd => hd.2.2.2.2)
  | deleteProviderNetwork n p c =>
    simp only [perform, run_void, writes]
    exact Writes.documents ((Intent.delete_atomic n p c).writes hw fun _ hd => hd.2.2.2.2)
  | apply p c cancellation =>
    simp only [perform, run_void]
    exact Deployment.apply_documents p c cancellation hw hfiled
  | terminate p c cancellation =>
    simp only [perform, run_void]
    exact Deployment.terminate_documents p c cancellation hw hfiled
  | look lookup => exact (lookup.readOnly.writes hw).documents

end Actions

/-! ### What is written -/

/-- The write stores a provider, a part of a cluster or an intent under its names, or removes
    something. -/
inductive Write.Lawful : Write → Prop
  | provider (p : Provider) (hvalid : p.metadata.validate = .ok ()) : Lawful (.provider p)
  | cluster {p : String} (hp : p ≠ "") (c : Cluster) (hvalid : c.metadata.validate = .ok ()) :
      Lawful (.cluster p c)
  | content {p c : String} (hp : p ≠ "") (hc : c ≠ "") (content : ClusterContent) :
      Lawful (.content p c content)
  | ledger {p c : String} (hp : p ≠ "") (hc : c ≠ "") {l : Ledger} (htimely : l.Timely) :
      Lawful (.ledger p c l)
  | intent {α : Type} [Intent α] (kind : IntentKind α) {p c : String} (hp : p ≠ "") (hc : c ≠ "")
      (i : α) (hvalid : Intent.validate i = .ok ()) : Lawful (.intent p c i)
  | removal (key : DocumentKey) : Lawful (.remove key)

namespace Write.Lawful

variable {p c n : String} {v : Json}

/-- What is stored for a provider is one with this name. -/
theorem exists_provider (h : (insert (providerKey p) metadataTag v).Lawful) :
    ∃ a : Provider, v = a.toJson ∧ a.metadata.name = p ∧ a.metadata.validate = .ok () := by
  generalize hw : insert (providerKey p) metadataTag v = w at h
  cases h with
  | provider a hvalid =>
    obtain ⟨hkey, -, rfl⟩ := insert.inj hw
    exact ⟨a, rfl, (providerKey_inj.1 hkey).symm, hvalid⟩
  | cluster => exact absurd (insert.inj hw).1.symm (clusterKey_ne_providerKey _ _ _)
  | content => exact absurd (insert.inj hw).1.symm (clusterKey_ne_providerKey _ _ _)
  | ledger => exact absurd (insert.inj hw).1.symm (clusterKey_ne_providerKey _ _ _)
  | intent kind =>
    have := kind.lawful
    exact absurd (insert.inj hw).1.symm (Intent.key_ne_providerKey _ _ _ _)
  | removal => cases hw

/-- What is stored as the metadata of a cluster are those of one with this name. -/
theorem exists_cluster (h : (insert (clusterKey p c) metadataTag v).Lawful) :
    ∃ a : Cluster, v = a.toJson ∧ a.metadata.name = c ∧ p ≠ "" ∧ a.metadata.validate = .ok () := by
  generalize hw : insert (clusterKey p c) metadataTag v = w at h
  cases h with
  | provider => exact absurd (insert.inj hw).1 (clusterKey_ne_providerKey _ _ _)
  | cluster hp a hvalid =>
    obtain ⟨hkey, -, rfl⟩ := insert.inj hw
    obtain ⟨rfl, rfl⟩ := clusterKey_inj.1 hkey
    exact ⟨a, rfl, rfl, hp, hvalid⟩
  | content => exact absurd (insert.inj hw).2.1.symm DocumentStore.contentTag_ne_metadataTag
  | ledger => exact absurd (insert.inj hw).2.1.symm DocumentStore.ledgerTag_ne_metadataTag
  | intent kind =>
    have := kind.lawful
    exact absurd (insert.inj hw).1 (Intent.clusterKey_ne_key _ _ _ _ _)
  | removal => cases hw

/-- What is stored as the content of a cluster is one. -/
theorem exists_content (h : (insert (clusterKey p c) contentTag v).Lawful) :
    ∃ a : ClusterContent, v = a.toJson ∧ p ≠ "" ∧ c ≠ "" := by
  generalize hw : insert (clusterKey p c) contentTag v = w at h
  cases h with
  | provider => exact absurd (insert.inj hw).1 (clusterKey_ne_providerKey _ _ _)
  | cluster => exact absurd (insert.inj hw).2.1 DocumentStore.contentTag_ne_metadataTag
  | content hp hc a =>
    obtain ⟨hkey, -, rfl⟩ := insert.inj hw
    obtain ⟨rfl, rfl⟩ := clusterKey_inj.1 hkey
    exact ⟨a, rfl, hp, hc⟩
  | ledger => exact absurd (insert.inj hw).2.1.symm DocumentStore.ledgerTag_ne_contentTag
  | intent kind =>
    have := kind.lawful
    exact absurd (insert.inj hw).1 (Intent.clusterKey_ne_key _ _ _ _ _)
  | removal => cases hw

/-- What is stored as the ledger of a cluster is one. -/
theorem exists_ledger (h : (insert (clusterKey p c) ledgerTag v).Lawful) :
    ∃ l : Ledger, v = l.toJson ∧ l.Timely ∧ p ≠ "" ∧ c ≠ "" := by
  generalize hw : insert (clusterKey p c) ledgerTag v = w at h
  cases h with
  | provider => exact absurd (insert.inj hw).1 (clusterKey_ne_providerKey _ _ _)
  | cluster => exact absurd (insert.inj hw).2.1 DocumentStore.ledgerTag_ne_metadataTag
  | content => exact absurd (insert.inj hw).2.1 DocumentStore.ledgerTag_ne_contentTag
  | @ledger _ _ hp hc l htimely =>
    obtain ⟨hkey, -, rfl⟩ := insert.inj hw
    obtain ⟨rfl, rfl⟩ := clusterKey_inj.1 hkey
    exact ⟨l, rfl, htimely, hp, hc⟩
  | intent kind =>
    have := kind.lawful
    exact absurd (insert.inj hw).1 (Intent.clusterKey_ne_key _ _ _ _ _)
  | removal => cases hw

/-- What is stored for an intent of a kind is one with this name. -/
theorem exists_intent {α : Type} [Intent α] (kind : IntentKind α)
    (h : (insert (Intent.key α p c n) (Intent.tag α) v).Lawful) :
    ∃ i : α, v = Intent.toJson i ∧ Intent.name i = n ∧ p ≠ "" ∧ c ≠ "" ∧
      Intent.validate i = .ok () := by
  have := kind.lawful
  generalize hw : insert (Intent.key α p c n) (Intent.tag α) v = w at h
  cases h with
  | provider => exact absurd (insert.inj hw).1 (Intent.key_ne_providerKey _ _ _ _)
  | cluster => exact absurd (insert.inj hw).1.symm (Intent.clusterKey_ne_key _ _ _ _ _)
  | content => exact absurd (insert.inj hw).1.symm (Intent.clusterKey_ne_key _ _ _ _ _)
  | ledger => exact absurd (insert.inj hw).1.symm (Intent.clusterKey_ne_key _ _ _ _ _)
  | intent kind' hp hc i hvalid =>
    obtain ⟨hkey, -, hv⟩ := insert.inj hw
    -- The keys of different kinds differ in a field.
    cases kind <;> cases kind'
    · obtain ⟨rfl, rfl, rfl⟩ := Intent.key_inj.1 hkey
      exact ⟨i, hv, rfl, hp, hc, hvalid⟩
    · exact absurd hkey (Intent.networkKey_ne_providerNetworkKey _ _ _ _ _ _)
    · exact absurd hkey.symm (Intent.networkKey_ne_providerNetworkKey _ _ _ _ _ _)
    · obtain ⟨rfl, rfl, rfl⟩ := Intent.key_inj.1 hkey
      exact ⟨i, hv, rfl, hp, hc, hvalid⟩
  | removal => cases hw

end Write.Lawful

namespace DocumentStore

variable {α : Type} {log : List Write} {p c n : String}

/-- What can be read at a key, where only certain things are written, is what was written last. -/
theorem read_writing_iff {read : Json → Option α} {toJson : α → Json} {P : α → Prop}
    {key : DocumentKey} {tag : String} {a : α} (hlog : ∀ w ∈ log, w.Lawful)
    (hrow : ∀ v, (Write.insert key tag v).Lawful → ∃ a, v = toJson a ∧ P a)
    (hread : ∀ a, P a → read (toJson a) = some a) :
    ((empty.writing log).value? Registry.store key tag).bind read = some a ↔
      P a ∧ (Write.insert key tag (toJson a)).Lasts log := by
  constructor
  · intro h
    obtain ⟨v, hv, hdecoded⟩ := Option.bind_eq_some_iff.1 h
    have hlasts := (value?_writing log).1 hv
    obtain ⟨a', rfl, ha'⟩ := hrow v (hlog _ hlasts.mem)
    obtain rfl : a' = a := Option.some.inj ((hread a' ha').symm.trans hdecoded)
    exact ⟨ha', hlasts⟩
  · rintro ⟨ha, hlasts⟩
    rw [(value?_writing log).2 hlasts, Option.bind_some, hread a ha]

/-- The provider that is found is the one that was stored last and was not removed since. -/
theorem provider_writing_iff (hlog : ∀ w ∈ log, w.Lawful) {a : Provider} :
    ((empty.writing log).value? Registry.store (providerKey p) metadataTag).bind Provider.ofJson?
        = some a ↔
      (a.metadata.name = p ∧ a.metadata.validate = .ok ()) ∧
        (Write.insert (providerKey p) metadataTag a.toJson).Lasts log :=
  read_writing_iff hlog (fun _ h => h.exists_provider) fun a _ => a.ofJson?_toJson

/-- The cluster that is found is the one that was stored last and was not removed since. -/
theorem cluster_writing_iff (hlog : ∀ w ∈ log, w.Lawful) {a : Cluster} :
    (empty.writing log).cluster? p c = some a ↔
      (a.metadata.name = c ∧ p ≠ "" ∧ a.metadata.validate = .ok ()) ∧
        (Write.insert (clusterKey p c) metadataTag a.toJson).Lasts log :=
  read_writing_iff hlog (fun _ h => h.exists_cluster) fun a _ => a.ofJson?_toJson

/-- The content that is found is what was stored last and was not removed since. -/
theorem content_writing_iff (hlog : ∀ w ∈ log, w.Lawful) {a : ClusterContent} :
    ((empty.writing log).value? Registry.store (clusterKey p c) contentTag).bind
        ClusterContent.ofJson? = some a ↔
      (p ≠ "" ∧ c ≠ "") ∧ (Write.content p c a).Lasts log :=
  read_writing_iff hlog (fun _ h => h.exists_content) fun a _ => a.ofJson?_toJson

/-- The ledger that is found is the one that was stored last and was not removed since. -/
theorem ledger_writing_iff (hlog : ∀ w ∈ log, w.Lawful) {l : Ledger} :
    (empty.writing log).ledger? p c = some l ↔
      (l.Timely ∧ p ≠ "" ∧ c ≠ "") ∧ (Write.ledger p c l).Lasts log :=
  read_writing_iff hlog (fun _ h => h.exists_ledger) fun _ hl => Ledger.ofJson?_toJson hl.1

end DocumentStore

section Actions

variable {w : World}

/-- A context is recorded in the ledger of a cluster with proper names only. -/
theorem Deployment.commit_named {p c id : String} (hw : w.Faithful)
    (hok : ((commit p c).run w).1 = .ok id) : p ≠ "" ∧ c ≠ "" := by
  have hcommit := commit_ensures p c hw
  rw [Ensures, hok] at hcommit
  cases hcommit with
  | recorded hsurvey => exact ⟨hsurvey.provider_ne, hsurvey.cluster_ne⟩

/-- A termination succeeds for a cluster with proper names only. -/
theorem Deployment.terminate_named {p c : String} {cancellation : Cancellation} {u : Unit}
    (hw : w.Faithful) (hok : ((terminate p c cancellation).run w).1 = .ok u) : p ≠ "" ∧ c ≠ "" := by
  have hterminate := terminate_ensures p c cancellation hw
  rw [Ensures, hok] at hterminate
  rcases hterminate with ⟨⟨e, he⟩, -⟩ | ⟨l, s, hp, hc, -⟩
  · cases he
  · exact ⟨hp, hc⟩

/-- What an operation writes is lawful. -/
theorem Action.lawful_writes (a : Action) (hw : w.Faithful)
    (htimely : ∀ p c l, w.documents.ledger? p c = some l → l.Timely) (hnow : w.now.IsValid) :
    ∀ write ∈ a.writes w, write.Lawful := by
  intro write hwrite
  cases a with
  | createProvider p =>
    obtain ⟨rfl, _, hok⟩ := mem_onSuccess hwrite
    obtain ⟨d, hvalid, -⟩ := (createProvider_atomic p).of_ok hw hok
    exact .provider p hvalid
  | createCluster p c content =>
    -- Each of the three documents is stored only after the cluster was vetted.
    rcases List.mem_append.1 hwrite with hwrite | hwrite
    · rcases List.mem_append.1 hwrite with hwrite | hwrite
      · obtain ⟨rfl, _, hok⟩ := mem_onSuccess hwrite
        obtain ⟨d, hvetted, -⟩ := (enrolCluster_atomic p c).of_ok hw hok
        exact .cluster hvetted.provider_ne c hvetted.valid
      · obtain ⟨rfl, _, hok⟩ := mem_onSuccess hwrite
        obtain ⟨_, henrolled⟩ := ok_of_bind hok
        obtain ⟨d, hvetted, -⟩ := (enrolCluster_atomic p c).of_ok hw henrolled
        exact .content hvetted.provider_ne hvetted.name_ne content
    · obtain ⟨rfl, _, hok⟩ := mem_onSuccess hwrite
      rw [createCluster_eq_equip] at hok
      obtain ⟨_, hequipped⟩ := ok_of_bind hok
      obtain ⟨_, henrolled⟩ := ok_of_bind hequipped
      obtain ⟨d, hvetted, -⟩ := (enrolCluster_atomic p c).of_ok hw henrolled
      exact .ledger hvetted.provider_ne hvetted.name_ne (Ledger.timely_begun hnow)
  | createNetwork n p c mayExist =>
    obtain ⟨rfl, _, hok⟩ := mem_onSuccess hwrite
    obtain ⟨d, hp, hc, -, hvalid, -⟩ := (Intent.create_atomic n p c mayExist).of_ok hw hok
    exact .intent .network hp hc n hvalid
  | createProviderNetwork n p c mayExist =>
    obtain ⟨rfl, _, hok⟩ := mem_onSuccess hwrite
    obtain ⟨d, hp, hc, -, hvalid, -⟩ := (Intent.create_atomic n p c mayExist).of_ok hw hok
    exact .intent .providerNetwork hp hc n hvalid
  | apply p c cancellation =>
    -- A ledger grows only where there is one.
    obtain ⟨l, hl, hwrite⟩ := List.mem_flatMap.1 hwrite
    obtain ⟨rfl, _, hok⟩ := mem_onSuccess hwrite
    obtain ⟨hp, hc⟩ := Deployment.commit_named hw hok
    exact .ledger hp hc ((htimely p c l (Option.mem_toList.1 hl)).append _ _ hnow)
  | terminate p c cancellation =>
    obtain ⟨l, hl, hwrite⟩ := List.mem_flatMap.1 hwrite
    obtain ⟨rfl, _, hok⟩ := mem_onSuccess hwrite
    obtain ⟨hp, hc⟩ := Deployment.terminate_named hw hok
    exact .ledger hp hc ((htimely p c l (Option.mem_toList.1 hl)).append _ _ hnow)
  | deleteProvider p =>
    obtain ⟨rfl, -⟩ := mem_onSuccess hwrite
    exact .removal _
  | deleteCluster p c =>
    obtain ⟨rfl, -⟩ := mem_onSuccess hwrite
    exact .removal _
  | deleteNetwork n p c =>
    obtain ⟨rfl, -⟩ := mem_onSuccess hwrite
    exact .removal _
  | deleteProviderNetwork n p c =>
    obtain ⟨rfl, -⟩ := mem_onSuccess hwrite
    exact .removal _
  | look lookup => cases hwrite

end Actions

/-! ### The writes of a run -/

namespace History

variable {ids : Nat → String} {synchronizer : Option Synchronizer}

/-- What the next step writes. -/
def writes (h : History) (s : Step) : List Write := s.action.writes (h.world.under s.circumstances)

/-- What these steps write, one after the other. -/
def writesFrom (h : History) : List Step → List Write
  | [] => []
  | s :: rest => h.writes s ++ (h.step s).writesFrom rest

/-- What a run writes. -/
def log (ids : Nat → String) (synchronizer : Option Synchronizer) (steps : List Step) :
    List Write :=
  (start ids synchronizer).writesFrom steps

/-- One more step comes after the run. -/
theorem after_concat (steps : List Step) (s : Step) :
    after ids synchronizer (steps ++ [s]) = (after ids synchronizer steps).step s :=
  List.foldl_append ..

/-- Two lists of steps write one after the other. -/
theorem writesFrom_append (h : History) (steps more : List Step) :
    h.writesFrom (steps ++ more) = h.writesFrom steps ++ (steps.foldl step h).writesFrom more := by
  induction steps generalizing h with
  | nil => rfl
  | cons s steps ih => simp [writesFrom, ih]

/-- One more step adds its writes to those of the run. -/
theorem log_concat (steps : List Step) (s : Step) :
    log ids synchronizer (steps ++ [s])
      = log ids synchronizer steps ++ (after ids synchronizer steps).writes s := by
  rw [log, writesFrom_append, writesFrom, writesFrom, List.append_nil]
  rfl

/-- The writes of a run are lawful, and the documents are what they amount to. -/
theorem documents_after (ids : Nat → String) (synchronizer : Option Synchronizer)
    (steps : List Step) :
    (∀ w ∈ log ids synchronizer steps, w.Lawful) ∧
      (after ids synchronizer steps).stores.documents
        = DocumentStore.empty.writing (log ids synchronizer steps) := by
  induction steps using List.reverseRecOn with
  | nil => exact ⟨nofun, rfl⟩
  | append_singleton steps s ih =>
    obtain ⟨hlog, hdocuments⟩ := ih
    have hw := (after ids synchronizer steps).world.faithful_under s.circumstances
    -- The documents before the step are those of the writes so far.
    have hworld : ((after ids synchronizer steps).world.under s.circumstances).documents
        = .writing .empty (log ids synchronizer steps) := hdocuments
    have hfiled : ((after ids synchronizer steps).world.under s.circumstances).documents.Filed :=
      hworld ▸ DocumentStore.filed_empty.writing _
    rw [log_concat, after_concat]
    constructor
    · intro w hw'
      rcases List.mem_append.1 hw' with hw' | hw'
      · exact hlog w hw'
      · refine s.action.lawful_writes hw ?_ s.circumstances.now.2 w hw'
        intro p c l hl
        rw [hworld] at hl
        exact ((DocumentStore.ledger_writing_iff hlog).1 hl).1.1
    · rw [DocumentStore.writing_append, ← hdocuments]
      exact s.action.documents_perform hw hfiled

end History

end NetIntent
