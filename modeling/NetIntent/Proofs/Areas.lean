import NetIntent.Proofs.Outcomes

namespace NetIntent

/-!
# Areas of the stores

All clusters share one store of documents and one of contexts. What belongs to a cluster in them is
an area: the documents whose key names the cluster, and the contexts of some ids.

* `Area`, `Area.Apart` — the area of a cluster; areas that have nothing in common;
* `Stores.Alike` — two stores hold the same in an area;
* `World.Within` — a world is changed in an area only;
* `Op.Matches` — an operation does the same in two worlds, and works in an area only;
* `Stores.same_of_crossed` — where two operations work in areas that are apart, and each does the
  same before and after the other, their order does not matter.
-/

open Op Registry

/-- A cluster, and the contexts of some ids. -/
structure Area where
  provider : String
  cluster : String
  ids : List String

namespace Area

variable {A B : Area} {key pattern : DocumentKey} {id : String}

/-- The key is that of the cluster, or of one of its intents. -/
def HasKey (A : Area) (key : DocumentKey) : Prop :=
  key.get? "provider" = some A.provider ∧ key.get? "cluster" = some A.cluster

/-- The key is that of a node in one of the contexts. -/
def HasNode (A : Area) (key : String) : Prop :=
  ∃ id ∈ A.ids, Text.beginsWith (Handle.root id).key key = true

/-- The cluster of an area has its key there. -/
theorem hasKey_clusterKey (A : Area) : A.HasKey (clusterKey A.provider A.cluster) := by
  simp [HasKey, get?_clusterKey]

/-- Every intent of the cluster has its key in the area. -/
theorem hasKey_key {α : Type} [Intent α] [LawfulIntent α] (A : Area) (n : String) :
    A.HasKey (Intent.key α A.provider A.cluster n) := by
  simp [HasKey]

/-- The key of a provider belongs to no area. -/
theorem not_hasKey_providerKey (A : Area) (p : String) : ¬ A.HasKey (providerKey p) := by
  simp [HasKey, get?_providerKey]

/-- A pattern that names the cluster covers no keys outside of the area. -/
theorem HasKey.of_covers (h : A.HasKey pattern) (hp : A.provider ≠ "") (hc : A.cluster ≠ "")
    (hcovers : pattern.covers key = true) : A.HasKey key := by
  obtain ⟨-, hall⟩ := DocumentKey.covers_iff.1 hcovers
  exact ⟨(hall _ _ h.1).resolve_left hp, (hall _ _ h.2).resolve_left hc⟩

/-- The areas are those of two clusters, and no context is in both. -/
structure Apart (A B : Area) : Prop where
  clusters : ¬ (A.provider = B.provider ∧ A.cluster = B.cluster)
  left_word : ∀ id ∈ A.ids, Handle.IsWord id
  right_word : ∀ id ∈ B.ids, Handle.IsWord id
  ids : ∀ id ∈ A.ids, id ∉ B.ids

/-- It does not matter which area is named first. -/
theorem Apart.symm (h : A.Apart B) : B.Apart A where
  clusters := fun hsame => h.clusters ⟨hsame.1.symm, hsame.2.symm⟩
  left_word := h.right_word
  right_word := h.left_word
  ids := fun id hB hA => h.ids id hA hB

/-- No key of documents belongs to two areas that are apart. -/
theorem Apart.not_hasKey (h : A.Apart B) (hkey : A.HasKey key) : ¬ B.HasKey key := by
  intro hkey'
  refine h.clusters ⟨?_, ?_⟩
  · exact Option.some.inj (hkey.1.symm.trans hkey'.1)
  · exact Option.some.inj (hkey.2.symm.trans hkey'.2)

/-- No key of nodes belongs to two areas that are apart, since their contexts are others. -/
theorem Apart.not_hasNode (h : A.Apart B) {key : String} (hkey : A.HasNode key) :
    ¬ B.HasNode key := by
  obtain ⟨id, hid, hbegins⟩ := hkey
  rintro ⟨id', hid', hbegins'⟩
  -- A key of two contexts would be one of both ids.
  have heq := Handle.eq_of_beginsWith_root (h.left_word id hid) (h.right_word id' hid') hbegins
    hbegins'
  exact h.ids id hid (heq ▸ hid')

end Area

/-! ### Stores that are alike in an area -/

/-- The stores hold the same in the area, and have the same providers. -/
structure Stores.Alike (A : Area) (s s' : Stores) : Prop where
  filed : s.documents.Filed
  filed' : s'.documents.Filed
  providers : ∀ p, s.documents.document? Registry.store (providerKey p)
    = s'.documents.document? Registry.store (providerKey p)
  documents : ∀ key, A.HasKey key → s.documents.document? Registry.store key
    = s'.documents.document? Registry.store key
  contexts : ∀ key, A.HasNode key → s.contexts.get? key = s'.contexts.get? key

/-- Nothing outside of the area differs in the second store. -/
structure Stores.Within (A : Area) (s s' : Stores) : Prop where
  documents : ∀ store key, ¬ (store = Registry.store ∧ A.HasKey key) →
    s'.documents.document? store key = s.documents.document? store key
  contexts : ∀ key, ¬ A.HasNode key → s'.contexts.get? key = s.contexts.get? key

namespace Stores

variable {A B : Area} {s s' s₁ s₁' s₂ s₂' : Stores} {key : DocumentKey} {tag : String}

/-- Stores in good order are like themselves in every area. -/
theorem Alike.refl (hfiled : s.documents.Filed) (A : Area) : s.Alike A s :=
  ⟨hfiled, hfiled, fun _ => rfl, fun _ _ => rfl, fun _ _ => rfl⟩

/-- Stores that are alike in an area have the same values there, and for all providers. -/
theorem Alike.value? (h : s.Alike A s') (hkey : A.HasKey key ∨ ∃ p, key = providerKey p) :
    s.documents.value? Registry.store key tag = s'.documents.value? Registry.store key tag := by
  have hdocument : s.documents.document? Registry.store key
      = s'.documents.document? Registry.store key := by
    rcases hkey with hkey | ⟨p, rfl⟩
    · exact h.documents key hkey
    · exact h.providers p
  rw [DocumentStore.value?, hdocument, DocumentStore.value?]

/-- Searches in the area find the same. -/
theorem Alike.find (h : s.Alike A s') {pattern : DocumentKey}
    (hcovers : ∀ key, pattern.covers key = true → A.HasKey key ∨ ∃ p, key = providerKey p) :
    s.documents.find Registry.store pattern tag = s'.documents.find Registry.store pattern tag :=
  DocumentStore.find_congr h.filed h.filed' fun key hkey => h.value? (hcovers key hkey)

/-- Stores that are alike in an area hold the same of its contexts. -/
theorem Alike.agree (h : s.Alike A s') {id : String} (hid : id ∈ A.ids) :
    s.contexts.Agree s'.contexts id :=
  fun key hkey => (h.contexts key ⟨id, hid, hkey⟩).symm

/-- Stores that are alike in an area have the same ledger for its cluster. -/
theorem Alike.ledger? (h : s.Alike A s') :
    s.documents.ledger? A.provider A.cluster = s'.documents.ledger? A.provider A.cluster := by
  rw [DocumentStore.ledger?, h.value? (.inl A.hasKey_clusterKey), DocumentStore.ledger?]

/-- Other contexts that are the same on both sides. -/
theorem Alike.withContexts (h : s.Alike A s') {c c' : ContextStore}
    (hcontexts : ∀ key, s.contexts.get? key = s'.contexts.get? key → c.get? key = c'.get? key) :
    Stores.Alike A { s with contexts := c } { s' with contexts := c' } where
  filed := h.filed
  filed' := h.filed'
  providers := h.providers
  documents := h.documents
  contexts := fun key hkey => hcontexts key (h.contexts key hkey)

/-- Stores stay alike when the same is inserted into both. -/
theorem Alike.insert (h : s.Alike A s') (key : DocumentKey) (tag : String) (value : Json) :
    Stores.Alike A { s with documents := s.documents.insert Registry.store key tag value }
      { s' with documents := s'.documents.insert Registry.store key tag value } := by
  have hsame : ∀ key', s.documents.document? Registry.store key'
        = s'.documents.document? Registry.store key' →
      (s.documents.insert Registry.store key tag value).document? Registry.store key'
        = (s'.documents.insert Registry.store key tag value).document? Registry.store key' := by
    intro key' hkey'
    rw [DocumentStore.document?_insert, DocumentStore.document?_insert, hkey']
    split
    · rename_i heq
      rw [← heq.2, hkey']
    · rfl
  exact ⟨h.filed.insert _, h.filed'.insert _, fun p => hsame _ (h.providers p),
    fun key' hkey' => hsame _ (h.documents key' hkey'), h.contexts⟩

/-- Stores stay alike when the same document is removed from both. -/
theorem Alike.remove (h : s.Alike A s') (key : DocumentKey) :
    Stores.Alike A { s with documents := s.documents.remove Registry.store key }
      { s' with documents := s'.documents.remove Registry.store key } := by
  have hsame : ∀ key', s.documents.document? Registry.store key'
        = s'.documents.document? Registry.store key' →
      (s.documents.remove Registry.store key).document? Registry.store key'
        = (s'.documents.remove Registry.store key).document? Registry.store key' := by
    intro key' hkey'
    rw [DocumentStore.document?_remove, DocumentStore.document?_remove, hkey']
  exact ⟨h.filed.remove, h.filed'.remove, fun p => hsame _ (h.providers p),
    fun key' hkey' => hsame _ (h.documents key' hkey'), h.contexts⟩

/-- Stores differ from themselves in no area. -/
theorem Within.refl (A : Area) (s : Stores) : s.Within A s :=
  ⟨fun _ _ _ => rfl, fun _ _ => rfl⟩

/-- A document of the area may be inserted. -/
theorem Within.insert (h : s.Within A s') (hkey : A.HasKey key) (tag : String) (value : Json) :
    s.Within A { s' with documents := s'.documents.insert Registry.store key tag value } where
  documents := by
    intro store key' hnot
    rw [DocumentStore.document?_insert, if_neg]
    · exact h.documents store key' hnot
    · rintro ⟨rfl, rfl⟩
      exact hnot ⟨rfl, hkey⟩
  contexts := h.contexts

/-- A document of the area may be removed. -/
theorem Within.remove (h : s.Within A s') (hkey : A.HasKey key) :
    s.Within A { s' with documents := s'.documents.remove Registry.store key } where
  documents := by
    intro store key' hnot
    rw [DocumentStore.document?_remove, if_neg]
    · exact h.documents store key' hnot
    · rintro ⟨rfl, rfl⟩
      exact hnot ⟨rfl, hkey⟩
  contexts := h.contexts

/-- A context of the area may be changed. -/
theorem Within.withContexts (h : s.Within A s') {id : String} (hid : id ∈ A.ids) {c : ContextStore}
    (hcontexts : ∀ key, ¬ Text.beginsWith (Handle.root id).key key = true →
      c.get? key = s'.contexts.get? key) : s.Within A { s' with contexts := c } where
  documents := h.documents
  contexts := fun key hkey =>
    (hcontexts key fun hbegins => hkey ⟨id, hid, hbegins⟩).trans (h.contexts key hkey)

/-- What is done in one area is not seen in another one. -/
theorem Within.alike (h : s.Within B s') (hapart : A.Apart B) (hfiled : s.documents.Filed)
    (hfiled' : s'.documents.Filed) : s.Alike A s' where
  filed := hfiled
  filed' := hfiled'
  providers := fun p => (h.documents _ _ fun hkey => B.not_hasKey_providerKey p hkey.2).symm
  documents := fun _ hkey => (h.documents _ _ fun hkey' => hapart.not_hasKey hkey hkey'.2).symm
  contexts := fun _ hkey => (h.contexts _ (hapart.not_hasNode hkey)).symm

/-- Two changes in areas that are apart lead to the same stores in either order, if each of them is
    the same before and after the other. -/
theorem same_of_crossed (hapart : A.Apart B) (hfirst : s.Within A s₁) (hsecond : s₁.Within B s₂)
    (hfirst' : s.Within B s₁') (hsecond' : s₁'.Within A s₂') (hA : s₁.Alike A s₂')
    (hB : s₁'.Alike B s₂) :
    (∀ store, s₂.documents.documents store = s₂'.documents.documents store) ∧
      s₂.contexts = s₂'.contexts := by
  refine ⟨fun store => DocumentStore.documents_ext hB.filed' hA.filed' ?_, OrderedMap.ext_get? ?_⟩
  · intro key
    by_cases hkeyA : store = Registry.store ∧ A.HasKey key
    · -- a document of the first area
      obtain ⟨rfl, hkeyA⟩ := hkeyA
      rw [hsecond.documents _ _ fun h => hapart.not_hasKey hkeyA h.2, hA.documents key hkeyA]
    · by_cases hkeyB : store = Registry.store ∧ B.HasKey key
      · -- a document of the second area
        obtain ⟨rfl, hkeyB⟩ := hkeyB
        rw [hsecond'.documents _ _ hkeyA, hB.documents key hkeyB]
      · rw [hsecond.documents _ _ hkeyB, hfirst.documents _ _ hkeyA,
          hsecond'.documents _ _ hkeyA, hfirst'.documents _ _ hkeyB]
  · intro key
    by_cases hkeyA : A.HasNode key
    · rw [hsecond.contexts _ (hapart.not_hasNode hkeyA), hA.contexts key hkeyA]
    · by_cases hkeyB : B.HasNode key
      · rw [hsecond'.contexts _ hkeyA, hB.contexts key hkeyB]
      · rw [hsecond.contexts _ hkeyB, hfirst.contexts _ hkeyA, hsecond'.contexts _ hkeyA,
          hfirst'.contexts _ hkeyB]

end Stores

/-! ### Operations that work in an area -/

/-- Both stores answer in both worlds, which hold the same in the area, and it is the same time. -/
structure World.Alike (A : Area) (w w' : World) : Prop where
  undisturbed : w.Undisturbed
  undisturbed' : w'.Undisturbed
  stores : w.stores.Alike A w'.stores
  synchronizer : w.synchronizer.isSome = w'.synchronizer.isSome
  now : w.now = w'.now

/-- The world is changed in the area only. Ids were taken from the supply, and requests may have
    taken time up to the limit of one. -/
structure World.Within (A : Area) (taken : Nat) (w w' : World) : Prop where
  stores : w.stores.Within A w'.stores
  contextId : w'.contextId = w.contextId
  minted : w'.minted = w.minted + taken
  synchronizer : w'.synchronizer.isSome = w.synchronizer.isSome
  elapsed : w.elapsedMs ≤ w'.elapsedMs ∧ w'.elapsedMs ≤ w.elapsedMs + w.limitMs

namespace World

variable {A : Area} {w w' : World}

/-- A world in good order is like itself in every area. -/
theorem Alike.refl (hw : w.Undisturbed) (hfiled : w.documents.Filed) (A : Area) : w.Alike A w :=
  ⟨hw, hw, .refl hfiled A, rfl, rfl⟩

/-- A world where nothing was done differs from itself in no area. -/
theorem Within.refl (A : Area) (w : World) : w.Within A 0 w :=
  ⟨.refl A _, rfl, rfl, rfl, Nat.le_refl _, Nat.le_add_right _ _⟩

/-- Documents may be changed within an area; this takes no id and no time. -/
theorem within_withDocuments {d : DocumentStore}
    (h : w.stores.Within A { w.stores with documents := d }) :
    w.Within A 0 (w.withDocuments d) :=
  ⟨h, rfl, rfl, rfl, Nat.le_refl _, Nat.le_add_right _ _⟩

end World

namespace Op

variable {α β : Type} {A : Area} {taken : Nat} {w w' : World}

/-- The operation has the same result in both worlds, does the same in the area, and changes nothing
    outside of it. -/
structure Matches (op : Op α) (A : Area) (taken : Nat) (w w' : World) : Prop where
  answer : (op.run w).1 = (op.run w').1
  alike : (op.run w).2.stores.Alike A (op.run w').2.stores
  within : w.Within A taken (op.run w).2
  within' : w'.Within A taken (op.run w').2

/-- Operations match if their runs are known and do so. -/
theorem matches_of_runs {op : Op α} {r : Except Failure α} {w₁ w₁' : World}
    (hrun : op.run w = (r, w₁)) (hrun' : op.run w' = (r, w₁'))
    (halike : w₁.stores.Alike A w₁'.stores) (hwithin : w.Within A taken w₁)
    (hwithin' : w'.Within A taken w₁') : op.Matches A taken w w' where
  answer := by rw [hrun, hrun']
  alike := by rw [hrun, hrun']; exact halike
  within := by rw [hrun]; exact hwithin
  within' := by rw [hrun']; exact hwithin'

/-- An operation that has the same outcome in both worlds, and changes nothing. -/
theorem matches_of_looks {op : Op α} {r : Except Failure α} (hw : w.Alike A w')
    (hrun : op.run w = (r, w)) (hrun' : op.run w' = (r, w')) : op.Matches A 0 w w' :=
  matches_of_runs hrun hrun' hw.stores (.refl A w) (.refl A w')

/-- Only what the operation comes to in the two worlds counts. -/
theorem Matches.congr {op op' : Op α} (h : op.Matches A taken w w') (hrun : op'.run w = op.run w)
    (hrun' : op'.run w' = op.run w') : op'.Matches A taken w w' where
  answer := by rw [hrun, hrun', h.answer]
  alike := by rw [hrun, hrun']; exact h.alike
  within := by rw [hrun]; exact h.within
  within' := by rw [hrun']; exact h.within'

/-- Of an operation that looks first, only what it comes to after a success has to be told. -/
theorem Looks.matches {look : Op α} {next : α → Op β}
    (h : look.Looks fun v v' => v = w ∧ v' = w') (hw : w.Alike A w')
    (hok : ∀ a, look.run w = (.ok a, w) → look.run w' = (.ok a, w') →
      (look >>= next).Matches A 0 w w') : (look >>= next).Matches A 0 w w' := by
  obtain ⟨r, hrun, hrun'⟩ := h.same w w' hw.undisturbed hw.undisturbed' ⟨rfl, rfl⟩
  cases r with
  | error e => exact matches_of_looks hw (run_bind_error hrun) (run_bind_error hrun')
  | ok a => exact hok a hrun hrun'

/-- What comes after a look may use what was seen. -/
theorem Looks.bind_matches {look : Op α} {next : α → Op β}
    (h : look.Looks fun v v' => v = w ∧ v' = w') (hw : w.Alike A w')
    (hnext : ∀ a, look.run w = (.ok a, w) → (next a).Matches A 0 w w') :
    (look >>= next).Matches A 0 w w' := by
  refine h.matches hw fun a hrun hrun' => ?_
  exact (hnext a hrun).congr (run_bind_ok hrun) (run_bind_ok hrun')

end Op

end NetIntent
