import NetIntent.Proofs.Run

namespace NetIntent

/-!
# Ledgers over a run

The ledger of a cluster is the only record of what was installed. Whatever fails on the way, it
tells one life: the cluster was created, contexts were applied and terminated one after the other,
and perhaps one more is applied.

* `Ledger.Life` — the life that a ledger tells;
* `DocumentStore.Sound` — what is stored as a ledger is one, and belongs to a described cluster;
* `LedgerChange`, `Change.ledger` — all that one operation can do to the ledger of a cluster;
* `Stores.Chronicled` — the invariant: every ledger tells a life, and no id occurs in two places.
-/

open Registry

/-! ### Lives -/

namespace Ledger

/-- The actions of a ledger, without their times. -/
def actions (l : Ledger) : List (LedgerState × String) :=
  l.entries.map fun e => (e.state, e.contextId)

/-- The ids of the contexts that were applied, in order. -/
def appliedIds (l : Ledger) : List String :=
  (l.actions.filter fun a => decide (a.1 = .applied)).map (·.2)

/-- The actions on a context that was applied and terminated. -/
def round (id : String) : List (LedgerState × String) := [(.applied, id), (.terminated, id)]

/-- The ledger tells that the cluster was created, that contexts were applied and terminated one
    after the other, and perhaps that one more was applied. -/
def Life (l : Ledger) (finished : List String) (running : Option String) : Prop :=
  l.actions = (.created, "") :: finished.flatMap round ++ running.toList.map (.applied, ·)

variable {l : Ledger} {finished : List String} {running : Option String} {id : String}

/-- A new entry is the last action. -/
@[simp] theorem actions_append (l : Ledger) (state : LedgerState) (id : String) (time : Timestamp) :
    (l.append state id time).actions = l.actions ++ [(state, id)] := by
  simp [actions, append]

/-- The current state is that of the new entry. -/
@[simp] theorem current_append (l : Ledger) (state : LedgerState) (id : String) (time : Timestamp) :
    (l.append state id time).current = .ok state := by
  simp [current, append]

/-- The last id is that of the new entry. -/
@[simp] theorem lastId_append (l : Ledger) (state : LedgerState) (id : String) (time : Timestamp) :
    (l.append state id time).lastId = id := by
  simp [lastId, append]

/-- A ledger with a new entry is another one. -/
theorem append_ne (l : Ledger) (state : LedgerState) (id : String) (time : Timestamp) :
    l.append state id time ≠ l := by
  intro h
  have hlength := congrArg (fun l => l.entries.length) h
  simp [append] at hlength

/-- An application adds its id to those that were applied. -/
@[simp] theorem appliedIds_append_applied (l : Ledger) (id : String) (time : Timestamp) :
    (l.append .applied id time).appliedIds = l.appliedIds ++ [id] := by
  simp [appliedIds]

/-- A termination adds no id to those that were applied. -/
@[simp] theorem appliedIds_append_terminated (l : Ledger) (id : String) (time : Timestamp) :
    (l.append .terminated id time).appliedIds = l.appliedIds := by
  simp [appliedIds]

/-- A ledger begins with the creation. -/
theorem life_begun (time : Timestamp) : (append {} .created "" time).Life [] none := by
  rw [Life, actions_append]
  rfl

/-- The applied contexts are those that are finished and the one that is running. -/
theorem Life.appliedIds (h : l.Life finished running) :
    l.appliedIds = finished ++ running.toList := by
  have hfinished : ∀ ids : List String,
      ((ids.flatMap round).filter fun a => decide (a.1 = .applied)).map (·.2) = ids := by
    intro ids
    induction ids with
    | nil => rfl
    | cons id ids ih => simp_all [round]
  rw [Ledger.appliedIds, h]
  cases running <;> simp [hfinished]

/-- The current state is that of the last action. -/
theorem current_eq (l : Ledger) :
    l.current = match l.actions.getLast? with
      | some a => .ok a.1
      | none => .error .noStateInfo := by
  rw [current, actions, List.getLast?_map]
  cases l.entries.getLast? <;> rfl

/-- The last id is that of the last action. -/
theorem lastId_eq (l : Ledger) :
    l.lastId = match l.actions.getLast? with
      | some a => a.2
      | none => "" := by
  rw [lastId, actions, List.getLast?_map]
  cases l.entries.getLast? <;> rfl

/-- After a running context comes its termination only. -/
theorem Life.of_running (h : l.Life finished (some id)) :
    l.current = .ok .applied ∧ l.lastId = id := by
  rw [current_eq, lastId_eq, h]
  simp [List.getLast?_cons]

/-- Without a running context, the ledger does not end in an application. -/
theorem Life.of_idle (h : l.Life finished none) : l.current ≠ .ok .applied := by
  rw [current_eq, h]
  rcases List.eq_nil_or_concat finished with rfl | ⟨ids, id, rfl⟩
  · simp
  · simp [round, List.getLast?_cons]

/-- The last action is an application just if a context is running. -/
theorem Life.current_iff (h : l.Life finished running) :
    l.current = .ok .applied ↔ running = some l.lastId := by
  cases running with
  | none => simp [h.of_idle]
  | some id =>
    obtain ⟨hcurrent, hlast⟩ := h.of_running
    simp [hcurrent, hlast]

/-- Applying begins the life of another context, if none is running. -/
theorem Life.apply (h : l.Life finished running) (hidle : l.current ≠ .ok .applied)
    (id : String) (time : Timestamp) : (l.append .applied id time).Life finished (some id) := by
  -- A ledger that does not end in an application has no running context.
  have hnone : running = none := by
    cases running with
    | none => rfl
    | some other => exact absurd h.of_running.1 hidle
  subst hnone
  rw [Life, actions_append, h]
  simp

/-- Terminating ends the life of the context that is running. -/
theorem Life.terminate (h : l.Life finished running) (hcurrent : l.current = .ok .applied)
    (time : Timestamp) :
    (l.append .terminated l.lastId time).Life (finished ++ [l.lastId]) none := by
  -- The running context is the one with the last id, and it becomes the last finished one.
  rw [h.current_iff.1 hcurrent] at h
  rw [Life, actions_append, h]
  simp [round]

/-- The ids of a ledger are those of its entries. -/
theorem mem_ids_iff {l : Ledger} {id : String} :
    id ∈ l.ids ↔ id ≠ "" ∧ id ∈ l.actions.map (·.2) := by
  rw [ids, OrderedMap.mem_keys_ofList, actions]
  simp only [List.map_map, List.mem_map, List.mem_filter, Function.comp_apply, Bool.not_eq_true',
    decide_eq_false_iff_not]
  constructor
  · rintro ⟨e, ⟨he, hne⟩, rfl⟩
    exact ⟨hne, e, he, rfl⟩
  · rintro ⟨hne, e, he, rfl⟩
    exact ⟨e, ⟨he, hne⟩, rfl⟩

/-- The ids of a life are those of its applied contexts. -/
theorem Life.mem_ids_iff (h : l.Life finished running) (hne : "" ∉ l.appliedIds) :
    id ∈ l.ids ↔ id ∈ l.appliedIds := by
  -- The ids of all entries are those of the applied contexts and the empty one of the creation.
  have hround : ∀ ids : List String, id ∈ (ids.flatMap round).map (·.2) ↔ id ∈ ids := by
    intro ids
    induction ids with
    | nil => simp
    | cons other ids ih =>
      rw [List.flatMap_cons, List.map_append, List.mem_append, ih]
      simp [round]
  have hactions : id ∈ l.actions.map (·.2) ↔ id = "" ∨ id ∈ l.appliedIds := by
    rw [h.appliedIds, h]
    simp only [List.map_append, List.map_cons, List.mem_append, List.mem_cons, hround]
    cases running <;> simp [or_assoc]
  rw [Ledger.mem_ids_iff, hactions]
  constructor
  · rintro ⟨hid, rfl | hmem⟩
    · exact absurd rfl hid
    · exact hmem
  · intro hmem
    exact ⟨fun hempty => hne (hempty ▸ hmem), .inr hmem⟩

/-- The id of a running context is an applied one. -/
theorem Life.lastId_mem (h : l.Life finished running) (hcurrent : l.current = .ok .applied) :
    l.lastId ∈ l.appliedIds := by
  rw [h.appliedIds, h.current_iff.1 hcurrent]
  simp

/-- A ledger tells only that the cluster was created, or its last id is that of an applied context,
    which is running or terminated. -/
theorem Life.current_cases (h : l.Life finished running) :
    l.current = .ok .created ∧ l.lastId = "" ∨
      (l.current = .ok .applied ∨ l.current = .ok .terminated) ∧ l.lastId ∈ l.appliedIds := by
  cases running with
  | some id =>
    have hcurrent := h.of_running.1
    exact .inr ⟨.inl hcurrent, h.lastId_mem hcurrent⟩
  | none =>
    rw [h.appliedIds, current_eq, lastId_eq, h]
    rcases List.eq_nil_or_concat finished with rfl | ⟨ids, id, rfl⟩
    · exact .inl ⟨rfl, rfl⟩
    · exact .inr (by simp [round, List.getLast?_cons])

end Ledger

/-! ### What is stored as a ledger -/

/-- The metadata of a cluster, if there are some that can be read. -/
def DocumentStore.cluster? (d : DocumentStore) (p c : String) : Option Cluster :=
  (d.value? Registry.store (clusterKey p c) metadataTag).bind Cluster.ofJson?

/-- What is stored as a ledger is one, and belongs to a cluster with metadata. -/
structure DocumentStore.Sound (d : DocumentStore) : Prop where
  filed : d.Filed
  legible : ∀ p c v, d.value? Registry.store (clusterKey p c) ledgerTag = some v →
    ∃ l : Ledger, l.Timely ∧ v = l.toJson
  described : ∀ p c v, d.value? Registry.store (clusterKey p c) ledgerTag = some v →
    ∃ cluster, d.cluster? p c = some cluster

namespace DocumentStore

variable {d d' : DocumentStore} {p c p' c' : String} {l : Ledger}

/-- A ledger is not stored where the metadata of a cluster are. -/
theorem ledgerTag_ne_metadataTag : ledgerTag ≠ metadataTag := by decide

/-- A ledger is not stored where the content of a cluster is. -/
theorem ledgerTag_ne_contentTag : ledgerTag ≠ contentTag := by decide

/-- The content of a cluster is not stored where its metadata are. -/
theorem contentTag_ne_metadataTag : contentTag ≠ metadataTag := by decide

/-- Where nothing is stored, nothing is unsound. -/
theorem sound_empty : empty.Sound where
  filed := filed_empty
  legible := nofun
  described := nofun

/-- Everything that is stored as a ledger is read as the ledger of its cluster. -/
theorem Sound.value?_eq_some_iff (h : d.Sound) {v : Json} :
    d.value? Registry.store (clusterKey p c) ledgerTag = some v ↔
      ∃ l, d.ledger? p c = some l ∧ v = l.toJson := by
  constructor
  · intro hv
    obtain ⟨l, htimely, rfl⟩ := h.legible p c v hv
    refine ⟨l, ?_, rfl⟩
    rw [ledger?, hv]
    exact Ledger.ofJson?_toJson htimely
  · rintro ⟨l, hl, rfl⟩
    obtain ⟨v, hv, hread⟩ := Option.bind_eq_some_iff.1 hl
    obtain ⟨l', htimely, rfl⟩ := h.legible p c v hv
    rw [Ledger.ofJson?_toJson htimely] at hread
    rw [hv, Option.some.inj hread]

/-- The entries of a stored ledger have times that can be written. -/
theorem Sound.timely (h : d.Sound) (hl : d.ledger? p c = some l) : l.Timely := by
  obtain ⟨v, hv, hread⟩ := Option.bind_eq_some_iff.1 hl
  obtain ⟨l', htimely, rfl⟩ := h.legible p c v hv
  rw [Ledger.ofJson?_toJson htimely] at hread
  exact Option.some.inj hread ▸ htimely

/-- A cluster without metadata has no ledger. -/
theorem Sound.ledger?_eq_none (h : d.Sound) (hnone : d.cluster? p c = none) :
    d.ledger? p c = none := by
  cases hv : d.value? Registry.store (clusterKey p c) ledgerTag with
  | none => rw [ledger?, hv, Option.bind_none]
  | some v =>
    obtain ⟨cluster, hcluster⟩ := h.described p c v hv
    exact absurd (hcluster.symm.trans hnone) (by simp)

/-- A ledger that is written is the one of its cluster; all others stay. -/
theorem ledger?_withLedger (h : l.Timely) :
    (d.withLedger p c l).ledger? p' c' = if p' = p ∧ c' = c then some l else d.ledger? p' c' := by
  rw [ledger?, withLedger, value?_insert]
  by_cases hkey : p' = p ∧ c' = c
  · simpa [hkey] using Ledger.ofJson?_toJson h
  · simp [hkey, ledger?]

/-- Without a cluster there is no ledger of it; all others stay. -/
theorem ledger?_remove :
    (d.remove Registry.store (clusterKey p c)).ledger? p' c'
      = if p' = p ∧ c' = c then none else d.ledger? p' c' := by
  rw [ledger?, value?_remove]
  by_cases hkey : p' = p ∧ c' = c <;> simp [hkey, ledger?]

/-- Writing a ledger changes no cluster. -/
theorem cluster?_withLedger : (d.withLedger p c l).cluster? p' c' = d.cluster? p' c' := by
  simp [cluster?, withLedger, ledgerTag_ne_metadataTag.symm]

/-- A new ledger of a described cluster is sound. -/
theorem Sound.withLedger (h : d.Sound) (hl : l.Timely)
    (hcluster : ∃ cluster, d.cluster? p c = some cluster) : (d.withLedger p c l).Sound where
  filed := h.filed.insert _
  legible := by
    intro p' c' v hv
    rw [DocumentStore.withLedger, value?_insert] at hv
    split at hv
    · exact ⟨l, hl, (Option.some.inj hv).symm⟩
    · exact h.legible p' c' v hv
  described := by
    intro p' c' v hv
    rw [cluster?_withLedger]
    rw [DocumentStore.withLedger, value?_insert] at hv
    -- The new ledger is that of a cluster that is there; the others were there before.
    split at hv
    · rename_i hkey
      simp only [clusterKey_inj] at hkey
      obtain ⟨-, ⟨rfl, rfl⟩, -⟩ := hkey
      exact hcluster
    · exact h.described p' c' v hv

/-- Where there is a ledger there is a cluster. -/
theorem Sound.cluster? (h : d.Sound) (hl : d.ledger? p c = some l) :
    ∃ cluster, d.cluster? p c = some cluster := by
  obtain ⟨v, hv, -⟩ := Option.bind_eq_some_iff.1 hl
  exact h.described p c v hv

end DocumentStore

/-! ### What changes a ledger -/

section Edits

variable {d d' : DocumentStore}

/-- An edit leaves all ledgers alone. -/
theorem Edit.value?_ledger (h : Edit d d') (p c : String) :
    d'.value? Registry.store (clusterKey p c) ledgerTag
      = d.value? Registry.store (clusterKey p c) ledgerTag := by
  cases h with
  | provider q hvalid => simp
  | providerRemoved q hq => simp
  | described q cluster =>
    simp [DocumentStore.described, DocumentStore.ledgerTag_ne_metadataTag]
  | filled q cluster content =>
    simp [DocumentStore.filled, DocumentStore.described, DocumentStore.ledgerTag_ne_metadataTag,
      DocumentStore.ledgerTag_ne_contentTag]
  | declared kind i q cluster hopen hvalid =>
    have := kind.lawful
    simp
  | withdrawn kind n q cluster hopen =>
    have := kind.lawful
    simp

/-- Editing other documents changes no ledger. -/
theorem Edit.ledger? (h : Edit d d') (p c : String) : d'.ledger? p c = d.ledger? p c := by
  rw [DocumentStore.ledger?, h.value?_ledger, DocumentStore.ledger?]

/-- Describing a cluster makes it one; all others stay. -/
theorem DocumentStore.cluster?_described (d : DocumentStore) (p : String) (cluster : Cluster)
    (p' c' : String) :
    (d.described p cluster).cluster? p' c'
      = if p' = p ∧ c' = cluster.metadata.name then some cluster else d.cluster? p' c' := by
  rw [cluster?, described, value?_insert]
  by_cases hkey : p' = p ∧ c' = cluster.metadata.name
  · simpa [hkey] using Cluster.ofJson?_toJson cluster
  · simp [hkey, cluster?]

/-- The content of a cluster is none of what describes it. -/
theorem DocumentStore.cluster?_filled (d : DocumentStore) (p : String) (cluster : Cluster)
    (content : ClusterContent) (p' c' : String) :
    (d.filled p cluster content).cluster? p' c' = (d.described p cluster).cluster? p' c' := by
  simp [cluster?, filled, DocumentStore.contentTag_ne_metadataTag.symm]

/-- An edit takes no metadata of a cluster away. -/
theorem Edit.cluster? (h : Edit d d') {p c : String}
    (hcluster : ∃ cluster, d.cluster? p c = some cluster) :
    ∃ cluster, d'.cluster? p c = some cluster := by
  cases h with
  | provider q hvalid => simpa [DocumentStore.cluster?] using hcluster
  | providerRemoved q hq => simpa [DocumentStore.cluster?] using hcluster
  | described q other =>
    rw [DocumentStore.cluster?_described]
    split
    · exact ⟨other, rfl⟩
    · exact hcluster
  | filled q other content =>
    rw [DocumentStore.cluster?_filled, DocumentStore.cluster?_described]
    split
    · exact ⟨other, rfl⟩
    · exact hcluster
  | declared kind i q other hopen hvalid =>
    have := kind.lawful
    simpa [DocumentStore.cluster?] using hcluster
  | withdrawn kind n q other hopen =>
    have := kind.lawful
    simpa [DocumentStore.cluster?] using hcluster

/-- An edit leaves the documents filed under their keys. -/
theorem Edit.filed (h : Edit d d') (hfiled : d.Filed) : d'.Filed := by
  cases h with
  | provider q hvalid => exact hfiled.insert _
  | providerRemoved q hq => exact hfiled.remove
  | described q cluster => exact hfiled.insert _
  | filled q cluster content => exact (hfiled.insert _).insert _
  | declared kind i q cluster hopen hvalid => exact hfiled.insert _
  | withdrawn kind n q cluster hopen => exact hfiled.remove

/-- An edit leaves the documents sound. -/
theorem Edit.sound (h : Edit d d') (hd : d.Sound) : d'.Sound where
  filed := h.filed hd.filed
  legible := by
    intro p c v hv
    rw [h.value?_ledger] at hv
    exact hd.legible p c v hv
  described := by
    intro p c v hv
    rw [h.value?_ledger] at hv
    exact h.cluster? (hd.described p c v hv)

end Edits

section Changes

variable {a : Action} {s s' : Stores} {r : Except Failure Unit}

/-- All that an operation can do to the ledger of a cluster. -/
inductive LedgerChange (a : Action) (s s' : Stores) (p c : String) :
    Option Ledger → Option Ledger → Prop
  /-- It stays. -/
  | kept (l : Option Ledger) : LedgerChange a s s' p c l l
  /-- It is begun together with the cluster. -/
  | begun {cluster : Cluster} {content : ClusterContent} {time : Timestamp}
      (ha : a = .createCluster p cluster content) (hname : cluster.metadata.name = c) :
      LedgerChange a s s' p c none (some (Ledger.append {} .created "" time))
  /-- A fresh context is built and applied. -/
  | applied {l : Ledger} {cancellation : Cancellation} {resources : List Rendered}
      {time : Timestamp} (ha : a = .apply p c cancellation)
      (hsurvey : Deployment.Surveyed s.documents p c l resources)
      (hwordy : Deployment.Wordy p c resources)
      (hstores : s' = s.recording p c l resources time) :
      LedgerChange a s s' p c (some l) (some (l.append .applied s.nextId time))
  /-- The last context is terminated. -/
  | terminated {l : Ledger} {cancellation : Cancellation} {time : Timestamp}
      (ha : a = .terminate p c cancellation) (hcurrent : l.current = .ok .applied) :
      LedgerChange a s s' p c (some l) (some (l.append .terminated l.lastId time))
  /-- It is deleted together with the cluster and with all of its contexts that have a root. -/
  | removed {l : Ledger} {live : List String} (ha : a = .deleteCluster p c)
      (hidle : l.current ≠ .ok .applied)
      (hgone : ∀ id ∈ l.ids, id ∉ live → s.contexts.get? (Handle.root id).key = none)
      (hcontexts : s'.contexts = s.contexts.sweep live) :
      LedgerChange a s s' p c (some l) none

/-- The documents after a cluster was begun. -/
theorem DocumentStore.Sound.begun {d : DocumentStore} (h : d.Sound) (p : String)
    (cluster : Cluster) (content : ClusterContent) {time : Timestamp} (htime : time.IsValid) :
    (d.begun p cluster content time).Sound := by
  have hfilled : (d.filled p cluster content).Sound := (Edit.filled p cluster content).sound h
  refine hfilled.withLedger ?_ ⟨cluster, ?_⟩
  · exact Ledger.timely_begun htime
  · rw [cluster?_filled, cluster?_described, if_pos ⟨rfl, rfl⟩]

/-- Sound documents are so without a cluster, too. -/
theorem DocumentStore.Sound.remove {d : DocumentStore} (h : d.Sound) (p c : String) :
    (d.remove Registry.store (clusterKey p c)).Sound where
  filed := h.filed.remove
  legible := by
    intro p' c' v hv
    rw [value?_remove] at hv
    split at hv
    · cases hv
    · exact h.legible p' c' v hv
  described := by
    intro p' c' v hv
    rw [value?_remove] at hv
    split at hv
    · cases hv
    · rename_i hkey
      rw [DocumentStore.cluster?, value?_remove, if_neg hkey]
      exact h.described p' c' v hv

/-- An operation keeps the documents sound. -/
theorem Change.sound (h : Change a s r s') (hs : s.documents.Sound) : s'.documents.Sound := by
  cases h with
  | quiet => exact hs
  | edited _ hedit => exact hedit.sound hs
  | begun ha hp hvalid hfree htime => exact hs.begun _ _ _ htime
  | undone hcontexts => exact hs
  | left => exact hs
  | recorded _ ha hsurvey hwordy htime =>
    have hl := hsurvey.ledger hs.filed
    exact hs.withLedger ((hs.timely hl).append _ _ htime) (hs.cluster? hl)
  | terminated ha hledger hcurrent hcontexts htime =>
    exact hs.withLedger ((hs.timely hledger).append _ _ htime) (hs.cluster? hledger)
  | swept hledger hcurrent hdone => exact hs
  | removed ha hledger hcurrent hlive hgone => exact hs.remove _ _

/-- What an operation does to the ledger of a cluster. -/
theorem Change.ledger (h : Change a s r s') (hs : s.documents.Sound) (p c : String) :
    LedgerChange a s s' p c (s.documents.ledger? p c) (s'.documents.ledger? p c) := by
  cases h with
  | quiet => exact .kept _
  | edited _ hedit =>
    rw [hedit.ledger?]
    exact .kept _
  | @begun q cluster content time ha hp hvalid hfree htime =>
    rw [DocumentStore.begun, DocumentStore.ledger?_withLedger (Ledger.timely_begun htime)]
    split
    · -- the cluster had no metadata, and hence no ledger
      rename_i hkey
      obtain ⟨rfl, rfl⟩ := hkey
      rw [hs.ledger?_eq_none hfree]
      exact .begun ha rfl
    · have hedit : Edit s.documents (s.documents.filled q cluster content) := .filled _ _ _
      rw [hedit.ledger?]
      exact .kept _
  | undone hcontexts => exact .kept _
  | left => exact .kept _
  | recorded _ ha hsurvey hwordy htime =>
    have hl := hsurvey.ledger hs.filed
    rw [Stores.recording_documents,
      DocumentStore.ledger?_withLedger ((hs.timely hl).append _ _ htime)]
    split
    · rename_i hkey
      obtain ⟨rfl, rfl⟩ := hkey
      rw [hl]
      exact .applied ha hsurvey hwordy rfl
    · exact .kept _
  | terminated ha hledger hcurrent hcontexts htime =>
    rw [DocumentStore.ledger?_withLedger ((hs.timely hledger).append _ _ htime)]
    split
    · rename_i hkey
      obtain ⟨rfl, rfl⟩ := hkey
      rw [hledger]
      exact .terminated ha hcurrent
    · exact .kept _
  | swept hledger hcurrent hdone => exact .kept _
  | @removed q cluster l live ha hledger hcurrent hlive hgone =>
    rw [DocumentStore.ledger?_remove]
    split
    · rename_i hkey
      obtain ⟨rfl, rfl⟩ := hkey
      rw [hledger]
      exact .removed ha hcurrent hgone rfl
    · exact .kept _

namespace LedgerChange

variable {p c : String} {before after : Option Ledger} {l : Ledger}

/-- A ledger that told a life tells one again. -/
theorem life (h : LedgerChange a s s' p c before (some l))
    (hbefore : ∀ l, before = some l → ∃ finished running, l.Life finished running) :
    ∃ finished running, l.Life finished running := by
  cases h with
  | kept => exact hbefore l rfl
  | begun ha hname => exact ⟨[], none, Ledger.life_begun _⟩
  | @applied l _ _ time ha hsurvey hwordy hstores =>
    obtain ⟨finished, running, hlife⟩ := hbefore l rfl
    exact ⟨finished, some s.nextId, hlife.apply hsurvey.notApplied _ _⟩
  | @terminated l _ time ha hcurrent =>
    obtain ⟨finished, running, hlife⟩ := hbefore l rfl
    exact ⟨finished ++ [l.lastId], none, hlife.terminate hcurrent _⟩

/-- An applied context was there before, or it has the id that was taken just now. -/
theorem mem_appliedIds (h : LedgerChange a s s' p c before (some l)) {id : String}
    (hid : id ∈ l.appliedIds) :
    (∃ l', before = some l' ∧ id ∈ l'.appliedIds) ∨
      id = s.nextId ∧ s'.minted = s.minted + 1 ∧ ∃ cancellation, a = .apply p c cancellation := by
  cases h with
  | kept => exact .inl ⟨l, rfl, hid⟩
  | begun ha hname => simp [Ledger.appliedIds, Ledger.actions, Ledger.append] at hid
  | @applied l' cancellation _ time ha hsurvey hwordy hstores =>
    rw [Ledger.appliedIds_append_applied, List.mem_append, List.mem_singleton] at hid
    rcases hid with hid | rfl
    · exact .inl ⟨l', rfl, hid⟩
    · exact .inr ⟨rfl, congrArg Stores.minted hstores, cancellation, ha⟩
  | @terminated l' cancellation time ha hcurrent =>
    rw [Ledger.appliedIds_append_terminated] at hid
    exact .inl ⟨l', rfl, hid⟩

/-- No id is applied twice, since every application takes one that is new. -/
theorem nodup_appliedIds (h : LedgerChange a s s' p c before (some l))
    (hbefore : ∀ l', before = some l' → l'.appliedIds.Nodup ∧ s.nextId ∉ l'.appliedIds) :
    l.appliedIds.Nodup := by
  cases h with
  | kept => exact (hbefore l rfl).1
  | begun ha hname => simp [Ledger.appliedIds, Ledger.actions, Ledger.append]
  | @applied l' _ _ time ha hsurvey hwordy hstores =>
    obtain ⟨hnodup, hfresh⟩ := hbefore l' rfl
    rw [Ledger.appliedIds_append_applied]
    exact List.nodup_append.2 ⟨hnodup, by simp, fun id hid other hother heq =>
      hfresh (List.mem_singleton.1 hother ▸ heq ▸ hid)⟩
  | @terminated l' cancellation time ha hcurrent =>
    rw [Ledger.appliedIds_append_terminated]
    exact (hbefore l' rfl).1

end LedgerChange

end Changes

/-! ### The invariant -/

/-- Every ledger tells a life of contexts that were taken from the supply, and no context occurs in
    two places. -/
structure Stores.Chronicled (s : Stores) : Prop where
  sound : s.documents.Sound
  life : ∀ p c l, s.documents.ledger? p c = some l → ∃ finished running, l.Life finished running
  minted : ∀ p c l, s.documents.ledger? p c = some l →
    ∀ id ∈ l.appliedIds, ∃ n < s.minted, id = s.contextId n
  nodup : ∀ p c l, s.documents.ledger? p c = some l → l.appliedIds.Nodup
  owner : ∀ p c l p' c' l' id, s.documents.ledger? p c = some l →
    s.documents.ledger? p' c' = some l' → id ∈ l.appliedIds → id ∈ l'.appliedIds →
    p = p' ∧ c = c'

namespace Stores.Chronicled

variable {a : Action} {s s' : Stores} {r : Except Failure Unit}

/-- The id that is taken next occurs in no ledger. -/
theorem nextId_notMem (h : s.Chronicled) (hids : Function.Injective s.contextId) {p c : String}
    {l : Ledger} (hl : s.documents.ledger? p c = some l) : s.nextId ∉ l.appliedIds := by
  intro hmem
  obtain ⟨n, hn, heq⟩ := h.minted p c l hl _ hmem
  have hsame : s.minted = n := hids heq
  omega

/-- Where nothing is stored, every ledger tells a life. -/
theorem empty (ids : Nat → String) : Stores.Chronicled ⟨.empty, .empty, ids, 0⟩ where
  sound := DocumentStore.sound_empty
  life := nofun
  minted := nofun
  nodup := nofun
  owner := nofun

/-- An operation keeps the ledgers chronicled. -/
theorem change (hs : s.Chronicled) (hids : Function.Injective s.contextId)
    (h : Change a s r s') : s'.Chronicled where
  sound := h.sound hs.sound
  life := by
    intro p c l hl
    have hchange := h.ledger hs.sound p c
    rw [hl] at hchange
    exact hchange.life fun l' hl' => hs.life p c l' hl'
  minted := by
    intro p c l hl id hid
    obtain ⟨hsupply, hle⟩ := h.minted
    have hchange := h.ledger hs.sound p c
    rw [hl] at hchange
    rw [hsupply]
    rcases hchange.mem_appliedIds hid with ⟨l', hl', hid'⟩ | ⟨rfl, hminted, -⟩
    · -- the id was there before
      obtain ⟨n, hn, rfl⟩ := hs.minted p c l' hl' id hid'
      exact ⟨n, by omega, rfl⟩
    · exact ⟨s.minted, by omega, rfl⟩
  nodup := by
    intro p c l hl
    have hchange := h.ledger hs.sound p c
    rw [hl] at hchange
    exact hchange.nodup_appliedIds fun l' hl' =>
      ⟨hs.nodup p c l' hl', hs.nextId_notMem hids hl'⟩
  owner := by
    intro p c l p' c' l' id hl hl' hid hid'
    have hchange := h.ledger hs.sound p c
    have hchange' := h.ledger hs.sound p' c'
    rw [hl] at hchange
    rw [hl'] at hchange'
    -- Each of the two places is an old one, or the one where the new id is put.
    rcases hchange.mem_appliedIds hid with ⟨k, hk, hold⟩ | ⟨hnew, -, cancellation, ha⟩ <;>
      rcases hchange'.mem_appliedIds hid' with ⟨k', hk', hold'⟩ | ⟨hnew', -, cancellation', ha'⟩
    · exact hs.owner p c k p' c' k' id hk hk' hold hold'
    · exact absurd (hnew' ▸ hold) (hs.nextId_notMem hids hk)
    · exact absurd (hnew ▸ hold') (hs.nextId_notMem hids hk')
    · -- one operation applies one cluster only
      cases ha.symm.trans ha'
      exact ⟨rfl, rfl⟩

end Stores.Chronicled

namespace History

variable {ids : Nat → String} {synchronizer : Option Synchronizer}

/-- After any run every ledger tells a life, and the supply is the same. -/
theorem chronicled_after (hids : Function.Injective ids) (steps : List Step) :
    (after ids synchronizer steps).stores.Chronicled ∧
      (after ids synchronizer steps).stores.contextId = ids := by
  refine stores_after (fun s hs => hs.sound.filed) (Stores.Chronicled.empty ids) ?_ steps
  intro a s r s' hsupply hs hchange
  exact hs.change (hsupply ▸ hids) hchange

/-- **Ledgers over a run.** Whatever fails on the way and whatever the synchronizer answers, all
    that is stored as a ledger is one and tells a life, no context is applied twice, and the next
    operation begins a ledger, extends it by one entry or removes it, or leaves it alone. -/
theorem ledgers_after_run (hids : Function.Injective ids) (hne : ∀ n, ids n ≠ "")
    (steps : List Step) :
    (∀ p c v, (after ids synchronizer steps).stores.documents.value? Registry.store
        (clusterKey p c) ledgerTag = some v →
      ∃ l, (after ids synchronizer steps).stores.documents.ledger? p c = some l ∧ v = l.toJson) ∧
    (∀ p c l, (after ids synchronizer steps).stores.documents.ledger? p c = some l →
      (∃ finished running, l.Life finished running ∧
        l.appliedIds = finished ++ running.toList) ∧
      l.appliedIds.Nodup ∧ "" ∉ l.appliedIds) ∧
    (∀ p c l p' c' l', (after ids synchronizer steps).stores.documents.ledger? p c = some l →
      (after ids synchronizer steps).stores.documents.ledger? p' c' = some l' →
      (p, c) ≠ (p', c') → l.appliedIds.Disjoint l'.appliedIds) ∧
    ∀ s p c, LedgerChange s.action (after ids synchronizer steps).stores
      ((after ids synchronizer steps).step s).stores p c
      ((after ids synchronizer steps).stores.documents.ledger? p c)
      (((after ids synchronizer steps).step s).stores.documents.ledger? p c) := by
  obtain ⟨h, hsupply⟩ := @chronicled_after ids synchronizer hids steps
  refine ⟨fun p c v hv => h.sound.value?_eq_some_iff.1 hv, ?_, ?_, ?_⟩
  · -- each ledger by itself
    intro p c l hl
    obtain ⟨finished, running, hlife⟩ := h.life p c l hl
    refine ⟨⟨finished, running, hlife, hlife.appliedIds⟩, h.nodup p c l hl, fun hempty => ?_⟩
    obtain ⟨n, -, heq⟩ := h.minted p c l hl _ hempty
    rw [hsupply] at heq
    exact hne n heq.symm
  · -- the ledgers of two clusters
    intro p c l p' c' l' hl hl' hdifferent id hid hid'
    obtain ⟨rfl, rfl⟩ := h.owner p c l p' c' l' id hl hl' hid hid'
    exact hdifferent rfl
  · -- the next operation
    intro s p c
    obtain ⟨r, -, hchange⟩ := (after ids synchronizer steps).change s h.sound.filed
    exact hchange.ledger h.sound p c

/-- A run in which a context is applied and terminated, and another one is applied although its
    request is declined. -/
def appliedTwice : List Step :=
  [⟨.createProvider ⟨{ name := "p" }⟩, {}⟩,
    ⟨.createCluster "p" ⟨{ name := "c" }⟩ {}, {}⟩,
    ⟨.apply "p" "c" .never, {}⟩,
    ⟨.terminate "p" "c" .never, { outages := [{ method := .deleteAll }] }⟩,
    ⟨.apply "p" "c" .never, { answer := .reject }⟩]

/-- A cluster that is applied, terminated and applied again has both ids in its ledger. -/
theorem ledgers_after_run_appliedTwice :
    (((after unaryId (some {}) appliedTwice).stores.documents.ledger? "p" "c").map Ledger.actions
      = some [(.created, ""), (.applied, "a"), (.terminated, "a"), (.applied, "aa")]) ∧
    ∀ l, (after unaryId (some {}) appliedTwice).stores.documents.ledger? "p" "c" = some l →
      l.appliedIds.Nodup :=
  ⟨by decide +kernel, fun l hl =>
    ((ledgers_after_run unaryId_injective unaryId_ne_empty appliedTwice).2.1 "p" "c" l hl).2.1⟩

end History

end NetIntent
