import NetIntent.Proofs.ContextNodes

namespace NetIntent

/-!
# Contexts leave each other alone

A store holds many contexts, and whatever is done to one of them is not seen in the others, since no
key belongs to two contexts.

* `ContextStore.Agree` — two stores hold the same of a context;
* `agree_builtUpTo`, `agree_eraseScan`, `agree_sweep` — what is done to other contexts is not seen;
* `Vacant.eraseScan`, `Vacant.sweep` — where nothing was, nothing is after a deletion;
* `get?_of_get?_eraseScan`, `get?_of_get?_sweep` — what a deletion leaves was there before.
-/

namespace ContextStore

variable {s s' : ContextStore} {id id' : String}

/-- The second store holds the same of the context as the first one. -/
def Agree (s s' : ContextStore) (id : String) : Prop :=
  ∀ key, Text.beginsWith (Handle.root id).key key = true → s'.get? key = s.get? key

/-- A store agrees with itself. -/
theorem Agree.refl (s : ContextStore) (id : String) : s.Agree s id := fun _ _ => rfl

/-- Agreement about a context is passed on from store to store. -/
theorem Agree.trans {s'' : ContextStore} (h : s.Agree s' id) (h' : s'.Agree s'' id) :
    s.Agree s'' id :=
  fun key hkey => (h' key hkey).trans (h key hkey)

/-- Stores that agree about a context hold the same nodes of it. -/
theorem Agree.holds {nodes : List (Handle × Json)} (h : s.Agree s' id) (hs : s.Holds id nodes) :
    s'.Holds id nodes := by
  intro key cell hkey
  rw [h key hkey]
  exact hs key cell hkey

/-- Stores that agree about a context have both nothing of it. -/
theorem Agree.vacant (h : s.Agree s' id) (hs : s.Vacant id) : s'.Vacant id := by
  intro key hkey
  rw [h key hkey]
  exact hs key hkey

/-- Stores that agree about a context both have its root. -/
theorem Agree.rooted (h : s.Agree s' id) (hs : s.Rooted id) : s'.Rooted id := by
  rw [Rooted, h _ (Handle.beginsWith_root_self (Handle.root id))]
  exact hs

/-- A key of one context is none of another. -/
theorem not_beginsWith_of_ne (hid : Handle.IsWord id) (hid' : Handle.IsWord id') (hne : id ≠ id')
    {key : String} (hkey : Text.beginsWith (Handle.root id).key key = true) :
    ¬ Text.beginsWith (Handle.root id').key key = true :=
  fun hkey' => hne (Handle.eq_of_beginsWith_root hid hid' hkey hkey')

/-- A context that was built up to some node leaves all others alone. -/
theorem agree_builtUpTo (s : ContextStore) (hid : Handle.IsWord id) (hid' : Handle.IsWord id')
    (hne : id ≠ id') (cluster : String) (resources : List Rendered) (n : Nat) :
    s.Agree (s.builtUpTo id' cluster resources n) id := by
  intro key hkey
  exact get?_builtUpTo_of_foreign s n (not_beginsWith_of_ne hid hid' hne hkey)

/-- A context that was built leaves all others alone. -/
theorem agree_built (s : ContextStore) (hid : Handle.IsWord id) (hid' : Handle.IsWord id')
    (hne : id ≠ id') (cluster : String) (resources : List Rendered) :
    s.Agree (s.built id' cluster resources) id := by
  rw [built_eq]
  exact agree_builtUpTo s hid hid' hne cluster resources _

/-- The deletion of a context leaves all others alone. -/
theorem agree_eraseScan (s : ContextStore) (hid : Handle.IsWord id) (hid' : Handle.IsWord id')
    (hne : id ≠ id') : s.Agree (s.eraseScan (Handle.root id').key) id := by
  intro key hkey
  rw [OrderedMap.get?_eraseScan, if_neg (not_beginsWith_of_ne hid hid' hne hkey)]

/-- A sweep leaves all contexts alone that it does not name. -/
theorem agree_sweep (s : ContextStore) {ids : List String} (hid : Handle.IsWord id)
    (hids : ∀ id' ∈ ids, Handle.IsWord id') (hnot : id ∉ ids) : s.Agree (s.sweep ids) id := by
  intro key hkey
  rw [get?_sweep, if_neg]
  rintro ⟨id', hid', hkey'⟩
  obtain rfl : id = id' := Handle.eq_of_beginsWith_root hid (hids id' hid') hkey hkey'
  exact hnot hid'

/-- A deletion takes all of a context. -/
theorem vacant_eraseScan (s : ContextStore) (id : String) :
    Vacant (s.eraseScan (Handle.root id).key) id := by
  intro key hkey
  rw [OrderedMap.get?_eraseScan, if_pos hkey]

/-- Nothing is left of a context that was swept. -/
theorem vacant_sweep (s : ContextStore) {ids : List String} (hid : id ∈ ids) :
    (s.sweep ids).Vacant id := by
  intro key hkey
  rw [get?_sweep, if_pos ⟨id, hid, hkey⟩]

/-- What a deletion leaves was there before. -/
theorem get?_of_get?_eraseScan {piece key : String} {cell : Cell}
    (h : (s.eraseScan piece).get? key = some cell) : s.get? key = some cell := by
  rw [OrderedMap.get?_eraseScan] at h
  split at h
  · cases h
  · exact h

/-- What is left after a sweep was there before. -/
theorem get?_of_get?_sweep {ids : List String} {key : String} {cell : Cell}
    (h : (s.sweep ids).get? key = some cell) : s.get? key = some cell := by
  rw [get?_sweep] at h
  split at h
  · cases h
  · exact h

/-- Where nothing was, nothing is after a deletion. -/
theorem Vacant.eraseScan (h : s.Vacant id) (piece : String) : Vacant (s.eraseScan piece) id := by
  intro key hkey
  rw [OrderedMap.get?_eraseScan, h key hkey, ite_self]

/-- A context of which there is nothing stays so when others are swept. -/
theorem Vacant.sweep (h : s.Vacant id) (ids : List String) : (s.sweep ids).Vacant id := by
  intro key hkey
  rw [get?_sweep, h key hkey, ite_self]

end ContextStore

end NetIntent
