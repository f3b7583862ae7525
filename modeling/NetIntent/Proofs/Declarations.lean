import Mathlib.Data.Set.List
import NetIntent.Proofs.Ledgers

namespace NetIntent

/-!
# What is declared for a cluster

The intents of a cluster are rows of the document store, one for each name and kind. They change one
at a time, and not while they are applied.

* `DocumentStore.Declares` — the intents of one kind that are stored for a cluster, in order;
* `DocumentStore.Tidy` — every row of an intent holds a valid intent of its name;
* `DocumentStore.exists_declared` — a search of a tidy store finds what is declared;
* `Change.value?_key` — the intents of a cluster stay as they are while they are applied;
* `nodup_resourceNames` — the resources of a cluster have different names.
-/

open Registry

/-! ### Rows of intents -/

namespace Intent

variable {α β : Type} [Intent α] [Intent β] [LawfulIntent α] [LawfulIntent β]

/-- Intents of different clusters have different keys, whatever their kinds. -/
theorem key_ne_key {p c n q k m : String} (h : ¬ (p = q ∧ c = k)) : key α p c n ≠ key β q k m := by
  intro heq
  have hp := congrArg (OrderedMap.get? · "provider") heq
  have hc := congrArg (OrderedMap.get? · "cluster") heq
  simp only [get?_key_provider, get?_key_cluster, Option.some.injEq] at hp hc
  exact h ⟨hp, hc⟩

/-- No intent has the key of a cluster. -/
theorem key_ne_clusterKey (p c n q k : String) : key α p c n ≠ clusterKey q k :=
  (clusterKey_ne_key q k p c n).symm

/-- No intent has the key of a provider. -/
theorem key_ne_providerKey (p c n q : String) : key α p c n ≠ providerKey q := by
  intro heq
  have hc := congrArg (OrderedMap.get? · "cluster") heq
  simp [get?_providerKey] at hc

/-- The two kinds of intents have keys with different fields. -/
theorem networkKey_ne_providerNetworkKey (p c n q k m : String) :
    key Network p c n ≠ key ProviderNetwork q k m := by
  intro heq
  -- The field of the name of a network is none of the fields of the other key.
  have hn := congrArg (OrderedMap.get? · (Intent.keyField Network)) heq
  have hfield : Intent.keyField Network ≠ Intent.keyField ProviderNetwork := by decide
  have hcluster : Intent.keyField Network ≠ "cluster" := LawfulIntent.keyField_ne_cluster
  have hprovider : Intent.keyField Network ≠ "provider" := LawfulIntent.keyField_ne_provider
  simp only [get?_key, if_true, hfield, hcluster, hprovider, if_false] at hn
  cases hn

end Intent

namespace DocumentStore

variable {α : Type} [Intent α] {d d' : DocumentStore} {p c q k n : String} {v : Json}

/-- These are the intents of the kind that are stored for the cluster, in the order of the store. -/
def Declares (d : DocumentStore) (p c : String) (intents : List α) : Prop :=
  (∀ n v, d.value? Registry.store (Intent.key α p c n) (Intent.tag α) = some v ↔
      ∃ i ∈ intents, Intent.name i = n ∧ v = Intent.toJson i) ∧
    intents.Pairwise fun i j => (Intent.key α p c (Intent.name i)).canonical
      < (Intent.key α p c (Intent.name j)).canonical

/-- Every row of an intent holds a valid intent of its name. -/
def Tidy (d : DocumentStore) : Prop :=
  ∀ (α : Type) [Intent α], IntentKind α → ∀ p c n v,
    d.value? Registry.store (Intent.key α p c n) (Intent.tag α) = some v →
      ∃ i : α, v = Intent.toJson i ∧ Intent.name i = n ∧ Intent.validate i = .ok ()

/-- Where nothing is stored, every row of an intent is in good order. -/
theorem tidy_empty : empty.Tidy := nofun

/-- What is declared depends on the rows of the cluster's intents only. -/
theorem Declares.congr {intents : List α} (h : d.Declares p c intents)
    (hrows : ∀ n, d'.value? Registry.store (Intent.key α p c n) (Intent.tag α)
      = d.value? Registry.store (Intent.key α p c n) (Intent.tag α)) :
    d'.Declares p c intents := by
  refine ⟨fun n v => ?_, h.2⟩
  rw [hrows n]
  exact h.1 n v

/-- Different intents of a kind have different names. -/
theorem Declares.nodup_names {intents : List α} (h : d.Declares p c intents) :
    (intents.map Intent.name).Nodup := by
  refine List.pairwise_map.2 (h.2.imp fun {i j} hlt heq => ?_)
  rw [heq] at hlt
  exact String.lt_irrefl _ hlt

/-- A search of a tidy store finds the declared intents, and all of them can be read. -/
theorem exists_declared (hfiled : d.Filed) (htidy : d.Tidy) (kind : IntentKind α) (hp : p ≠ "")
    (hc : c ≠ "") :
    ∃ intents : List α,
      (d.find Registry.store (Intent.key α p c "") (Intent.tag α)).mapM Intent.ofJson? = some intents ∧
        d.Declares p c intents := by
  have := kind.lawful
  -- Each row that is found is one that an intent is stored as.
  have hrow : ∀ row ∈ d.rows Registry.store (Intent.key α p c "") (Intent.tag α),
      ∃ i : α, (Intent.key α p c (Intent.name i), Intent.toJson i) = row := by
    rintro ⟨key, v⟩ hmem
    obtain ⟨hcovers, hv⟩ := (mem_rows_iff hfiled).1 hmem
    obtain ⟨n, rfl⟩ := (Intent.covers_key_iff hp hc).1 hcovers
    obtain ⟨i, rfl, rfl, -⟩ := htidy _ kind p c n v hv
    exact ⟨i, rfl⟩
  have hrange : d.rows Registry.store (Intent.key α p c "") (Intent.tag α) ∈ Set.range (List.map
      fun i : α => (Intent.key α p c (Intent.name i), Intent.toJson i)) := by
    rw [Set.range_list_map]
    exact hrow
  obtain ⟨stored, hstored⟩ := hrange
  refine ⟨stored, ?_, ?_, ?_⟩
  · -- so what is read off the rows are these intents
    rw [find_eq_rows, ← hstored, List.map_map]
    exact Json.list?_array_map fun i _ => LawfulIntent.ofJson?_toJson i
  · -- the rows are those of the intents that were found
    intro n v
    have hmem : (Intent.key α p c n, v) ∈ d.rows Registry.store (Intent.key α p c "") (Intent.tag α)
        ↔ d.value? Registry.store (Intent.key α p c n) (Intent.tag α) = some v := by
      rw [mem_rows_iff hfiled, (Intent.covers_key_iff hp hc).2 ⟨n, rfl⟩]
      simp
    rw [← hmem, ← hstored, List.mem_map]
    constructor
    · rintro ⟨i, hi, heq⟩
      obtain ⟨hkey, rfl⟩ := Prod.mk.inj heq
      exact ⟨i, hi, (Intent.key_inj.1 hkey).2.2, rfl⟩
    · rintro ⟨i, hi, rfl, rfl⟩
      exact ⟨i, hi, rfl⟩
  · -- and they stand in the order of the store
    have hpairwise := pairwise_rows hfiled Registry.store (Intent.key α p c "") (Intent.tag α)
    rwa [← hstored, List.pairwise_map] at hpairwise

/-- What a search of a tidy store finds are the declared intents. -/
theorem declares_of_find (hfiled : d.Filed) (htidy : d.Tidy) (kind : IntentKind α) (hp : p ≠ "")
    (hc : c ≠ "") {intents : List α}
    (h : (d.find Registry.store (Intent.key α p c "") (Intent.tag α)).mapM Intent.ofJson?
      = some intents) : d.Declares p c intents := by
  obtain ⟨found, hfound, hdeclared⟩ := exists_declared hfiled htidy kind hp hc
  exact Option.some.inj (hfound.symm.trans h) ▸ hdeclared

/-- Writing a ledger changes no row of an intent. -/
theorem value?_key_withLedger (kind : IntentKind α) (l : Ledger) :
    (d.withLedger q k l).value? Registry.store (Intent.key α p c n) (Intent.tag α)
      = d.value? Registry.store (Intent.key α p c n) (Intent.tag α) := by
  have := kind.lawful
  simp [withLedger, Intent.key_ne_clusterKey]

/-- Removing a cluster changes no row of an intent. -/
theorem value?_key_removeCluster (kind : IntentKind α) :
    (d.remove Registry.store (clusterKey q k)).value? Registry.store (Intent.key α p c n)
        (Intent.tag α)
      = d.value? Registry.store (Intent.key α p c n) (Intent.tag α) := by
  have := kind.lawful
  simp [Intent.key_ne_clusterKey]

end DocumentStore

/-! ### What changes an intent -/

section Edits

variable {α : Type} [Intent α] {d d' : DocumentStore} {p c : String}

/-- The intents of a cluster stay as they are while they may not be changed. -/
theorem Edit.value?_key (h : Edit d d') (kind : IntentKind α) (hclosed : ¬ d.Open p c)
    (n : String) :
    d'.value? Registry.store (Intent.key α p c n) (Intent.tag α)
      = d.value? Registry.store (Intent.key α p c n) (Intent.tag α) := by
  have := kind.lawful
  cases h with
  | provider q hvalid => simp [Intent.key_ne_providerKey]
  | providerRemoved q hq => simp [Intent.key_ne_providerKey]
  | described q cluster => simp [DocumentStore.described, Intent.key_ne_clusterKey]
  | filled q cluster content =>
    simp [DocumentStore.filled, DocumentStore.described, Intent.key_ne_clusterKey]
  | declared kind' i q k hopen hvalid =>
    have := kind'.lawful
    -- The cluster of the edit takes intents, and so it is another one.
    have hother : ¬ (p = q ∧ c = k) := fun hsame => hclosed (hsame.1 ▸ hsame.2 ▸ hopen)
    simp [Intent.key_ne_key hother]
  | withdrawn kind' m q k hopen =>
    have := kind'.lawful
    have hother : ¬ (p = q ∧ c = k) := fun hsame => hclosed (hsame.1 ▸ hsame.2 ▸ hopen)
    simp [Intent.key_ne_key hother]

/-- A row of an intent after an intent was stored is the new one or an old one. -/
theorem value?_key_insert {β : Type} [Intent β] (kind : IntentKind α) (kind' : IntentKind β)
    {i : β} {q k n : String} {v : Json}
    (h : (d.insert Registry.store (Intent.key β q k (Intent.name i)) (Intent.tag β)
      (Intent.toJson i)).value? Registry.store (Intent.key α p c n) (Intent.tag α) = some v)
    (hvalid : Intent.validate i = .ok ()) :
    (∃ j : α, v = Intent.toJson j ∧ Intent.name j = n ∧ Intent.validate j = .ok ()) ∨
      d.value? Registry.store (Intent.key α p c n) (Intent.tag α) = some v := by
  rw [DocumentStore.value?_insert] at h
  split at h
  · rename_i hkey
    obtain ⟨-, hkey, -⟩ := hkey
    have hv := (Option.some.inj h).symm
    -- The same key is that of an intent of the same kind.
    cases kind <;> cases kind'
    · exact .inl ⟨i, hv, (Intent.key_inj.1 hkey).2.2.symm, hvalid⟩
    · exact absurd hkey (Intent.networkKey_ne_providerNetworkKey _ _ _ _ _ _)
    · exact absurd hkey.symm (Intent.networkKey_ne_providerNetworkKey _ _ _ _ _ _)
    · exact .inl ⟨i, hv, (Intent.key_inj.1 hkey).2.2.symm, hvalid⟩
  · exact .inr h

/-- An edit keeps the rows of intents tidy. -/
theorem Edit.tidy (h : Edit d d') (htidy : d.Tidy) : d'.Tidy := by
  intro α _ kind p c n v hv
  have := kind.lawful
  cases h with
  | provider q hvalid =>
    exact htidy _ kind p c n v (by simpa [Intent.key_ne_providerKey] using hv)
  | providerRemoved q hq =>
    exact htidy _ kind p c n v (by simpa [Intent.key_ne_providerKey] using hv)
  | described q cluster =>
    exact htidy _ kind p c n v
      (by simpa [DocumentStore.described, Intent.key_ne_clusterKey] using hv)
  | filled q cluster content =>
    exact htidy _ kind p c n v
      (by simpa [DocumentStore.filled, DocumentStore.described, Intent.key_ne_clusterKey] using hv)
  | declared kind' i q k hopen hvalid =>
    -- What is stored at the key is the new intent, whose name was checked, or was there before.
    rcases value?_key_insert kind kind' hv hvalid with hnew | hold
    · exact hnew
    · exact htidy _ kind p c n v hold
  | withdrawn kind' m q k hopen =>
    rw [DocumentStore.value?_remove] at hv
    split at hv
    · cases hv
    · exact htidy _ kind p c n v hv

end Edits

section Changes

variable {α : Type} [Intent α] {a : Action} {s s' : Stores} {r : Except Failure Unit}

/-- The intents of a cluster stay as they are while they may not be changed. -/
theorem Change.value?_key (h : Change a s r s') (kind : IntentKind α) {p c : String}
    (hclosed : ¬ s.documents.Open p c) (n : String) :
    s'.documents.value? Registry.store (Intent.key α p c n) (Intent.tag α)
      = s.documents.value? Registry.store (Intent.key α p c n) (Intent.tag α) := by
  cases h with
  | quiet => rfl
  | edited _ hedit => exact hedit.value?_key kind hclosed n
  | @begun q cluster content _ ha hp hvalid hfree htime =>
    have hedit : Edit s.documents (s.documents.filled q cluster content) := .filled _ _ _
    exact (DocumentStore.value?_key_withLedger kind _).trans (hedit.value?_key kind hclosed n)
  | undone hcontexts => rfl
  | left => rfl
  | recorded _ ha hsurvey hwordy htime => exact DocumentStore.value?_key_withLedger kind _
  | terminated ha hledger hcurrent hcontexts htime =>
    exact DocumentStore.value?_key_withLedger kind _
  | swept hledger hcurrent hdone => rfl
  | removed ha hledger hcurrent hlive hgone => exact DocumentStore.value?_key_removeCluster kind

/-- Writing a ledger keeps the rows of the intents in good order. -/
theorem DocumentStore.Tidy.withLedger {d : DocumentStore} (h : d.Tidy) (p c : String) (l : Ledger) :
    (d.withLedger p c l).Tidy := by
  intro α _ kind q k n v hv
  rw [value?_key_withLedger kind] at hv
  exact h _ kind q k n v hv

/-- An operation keeps the rows of intents tidy. -/
theorem Change.tidy (h : Change a s r s') (htidy : s.documents.Tidy) : s'.documents.Tidy := by
  cases h with
  | quiet => exact htidy
  | edited _ hedit => exact hedit.tidy htidy
  | @begun q cluster content _ ha hp hvalid hfree htime =>
    have hedit : Edit s.documents (s.documents.filled q cluster content) := .filled _ _ _
    exact (hedit.tidy htidy).withLedger _ _ _
  | undone hcontexts => exact htidy
  | left => exact htidy
  | recorded _ ha hsurvey hwordy htime => exact htidy.withLedger _ _ _
  | terminated ha hledger hcurrent hcontexts htime => exact htidy.withLedger _ _ _
  | swept hledger hcurrent hdone => exact htidy
  | removed ha hledger hcurrent hlive hgone =>
    -- The intents of a cluster stay when it is deleted.
    intro α _ kind p c n v hv
    rw [DocumentStore.value?_key_removeCluster kind] at hv
    exact htidy _ kind p c n v hv

end Changes

/-! ### Names of resources -/

section Resources

/-- Intents of one kind with different names are resources with different names. -/
theorem resourceName_inj {α : Type} [Intent α] {i j : α}
    (h : Intent.resourceName i = Intent.resourceName j) : Intent.name i = Intent.name j := by
  -- The part after the name is that of the kind.
  simp only [Intent.resourceName, ← String.toList_inj, String.toList_append] at h
  have hfirst := List.append_cancel_right h
  exact String.toList_inj.1 (List.append_cancel_right hfirst)

/-- Intents of the two kinds are resources with different names, since only one kind begins with
    what stands before it. -/
theorem resourceName_ne (i : Network) (j : ProviderNetwork) :
    Intent.resourceName i ≠ Intent.resourceName j := by
  intro h
  have hlist := congrArg String.toList h
  have hkinds : separator.toList ++ (Intent.kind ProviderNetwork).toList
      = "+Provide".toList ++ "rNetwork".toList := by decide
  have hkind : separator.toList ++ (Intent.kind Network).toList = "+Network".toList := by decide
  simp only [Intent.resourceName, String.toList_append, List.append_assoc, hkinds, hkind] at hlist
  rw [← List.append_assoc] at hlist
  -- The ends of the two names have the same length, but differ in their first character.
  have hend := List.append_inj_right' hlist (by decide)
  exact absurd hend (by decide)

/-- The resources of a cluster have different names. -/
theorem nodup_resourceNames {d : DocumentStore} {p c : String} {networks : List Network}
    {providerNetworks : List ProviderNetwork} (hnetworks : d.Declares p c networks)
    (hproviderNetworks : d.Declares p c providerNetworks) :
    ((Deployment.render networks ++ Deployment.render providerNetworks).map (·.name)).Nodup := by
  have hkind : ∀ {α : Type} [Intent α] {intents : List α}, d.Declares p c intents →
      ((Deployment.render intents).map (·.name)).Nodup := by
    intro α _ intents h
    rw [Deployment.render, List.map_map]
    exact List.pairwise_map.2 ((List.pairwise_map.1 h.nodup_names).imp fun hne heq =>
      hne (resourceName_inj heq))
  rw [List.map_append]
  refine List.nodup_append.2 ⟨hkind hnetworks, hkind hproviderNetworks, ?_⟩
  simp only [Deployment.render, List.map_map, List.mem_map, Function.comp_apply]
  intro name hname other hother
  obtain ⟨i, -, rfl⟩ := hname
  obtain ⟨j, -, rfl⟩ := hother
  exact resourceName_ne i j

end Resources

end NetIntent
