import NetIntent.Context.Run
import NetIntent.Proofs.OrderedMap

namespace NetIntent

/-!
# Keys of handles spell their words

A key is a list of words, each ended by a slash. As long as no word has a slash itself, the words
can be told from the key, and a key begins with another one just if its words do.

* `Handle.IsWord` — a text without a slash;
* `Handle.joinWords_prefix_iff` — initial pieces of keys are initial pieces of their words;
* `Handle.beginsWith_root_iff` — a key begins with the key of a root just if it belongs to its
  context;
* `Handle.words_eq_of_key_eq` — the key of a handle determines its words.
-/

namespace Handle

/-- A text that can be a word of a key: it has no slash. -/
def IsWord (word : String) : Prop := '/' ∉ word.toList

/-- Whether a text is a word can be tested. -/
instance (word : String) : Decidable (IsWord word) := inferInstanceAs (Decidable (¬ _))

/-- A word is a text without a slash. -/
theorem hasChar_slash {word : String} : Text.hasChar '/' word = false ↔ IsWord word := by
  simp [Text.hasChar, IsWord]

/-- A valid id is a word of a key, and not empty. -/
theorem isValidId_iff {id : String} :
    RunContext.isValidId id = true ↔ id ≠ "" ∧ IsWord id := by
  simp [RunContext.isValidId, hasChar_slash]

/-- A text that can be the name of a node: a word of a key, neither empty nor the reserved word. -/
def IsName (name : String) : Prop := name ≠ "" ∧ IsWord name ∧ name ≠ instructionWord

/-- Whether a text is a name can be tested. -/
instance (name : String) : Decidable (IsName name) := inferInstanceAs (Decidable (_ ∧ _))

/-- Just these names are valid. -/
theorem validateName_eq_ok_iff {field name : String} :
    validateName field name = .ok () ↔ IsName name := by
  unfold validateName IsName
  rw [← hasChar_slash]
  split
  · simp [*]
  · split
    · simp [*]
    · split <;> simp [*]

/-- The first word stands before a slash, and then come the others. -/
theorem joinWords_cons (word : String) (words : List String) :
    joinWords (word :: words) = word.toList ++ '/' :: joinWords words := by
  simp [joinWords]

/-- Words may be joined in two goes. -/
theorem joinWords_append (words more : List String) :
    joinWords (words ++ more) = joinWords words ++ joinWords more := List.flatMap_append

/-- The first slash ends the first word. -/
theorem slash_prefix_slash_iff {a b : List Char} (ha : '/' ∉ a) (hb : '/' ∉ b)
    {x y : List Char} : a ++ '/' :: x <+: b ++ '/' :: y ↔ a = b ∧ x <+: y := by
  induction a generalizing b with
  | nil =>
    cases b with
    | nil => simp
    | cons d b =>
      -- the slash would have to be a character of the other word
      have hd : '/' ≠ d := fun h => hb (h ▸ List.mem_cons_self)
      simp [hd]
  | cons c a ih =>
    obtain ⟨hc, ha⟩ := not_or.1 (mt List.mem_cons.2 ha)
    cases b with
    | nil => simp [Ne.symm hc]
    | cons d b =>
      obtain ⟨-, hb⟩ := not_or.1 (mt List.mem_cons.2 hb)
      rw [List.cons_append, List.cons_append, List.cons_prefix_cons, ih ha hb, List.cons.injEq,
        and_assoc]

/-- Joined words begin with other ones just if the list of words does. -/
theorem joinWords_prefix_iff {words more : List String} (hwords : ∀ w ∈ words, IsWord w)
    (hmore : ∀ w ∈ more, IsWord w) : joinWords words <+: joinWords more ↔ words <+: more := by
  induction words generalizing more with
  | nil => simp [joinWords]
  | cons w words ih =>
    obtain ⟨hw, hwords⟩ := List.forall_mem_cons.1 hwords
    cases more with
    | nil => simp [joinWords]
    | cons v more =>
      obtain ⟨hv, hmore⟩ := List.forall_mem_cons.1 hmore
      rw [joinWords_cons, joinWords_cons, slash_prefix_slash_iff hw hv, ih hwords hmore,
        List.cons_prefix_cons, String.toList_inj]

/-- Joined words tell which words they are. -/
theorem joinWords_inj {words more : List String} (hwords : ∀ w ∈ words, IsWord w)
    (hmore : ∀ w ∈ more, IsWord w) (h : joinWords words = joinWords more) : words = more := by
  -- Each of the two lists is an initial piece of the other.
  have hle : words <+: more := (joinWords_prefix_iff hwords hmore).1 (h ▸ List.prefix_rfl)
  have hge : more <+: words := (joinWords_prefix_iff hmore hwords).1 (h ▸ List.prefix_rfl)
  exact hle.eq_of_length_le hge.length_le

/-- A key is the text that all keys begin with, and then the words. -/
theorem toList_key (h : Handle) : h.key.toList = contextPrefix.toList ++ joinWords h.words := by
  rw [key, String.toList_ofList]

/-- The key of a handle determines its words. -/
theorem words_eq_of_key_eq {h h' : Handle} (hwords : ∀ w ∈ h.words, IsWord w)
    (hwords' : ∀ w ∈ h'.words, IsWord w) (heq : h.key = h'.key) : h.words = h'.words := by
  have hlist := congrArg String.toList heq
  rw [toList_key, toList_key] at hlist
  exact joinWords_inj hwords hwords' (List.append_cancel_left hlist)

/-- A key begins with the key of a root just if it belongs to its context. -/
theorem beginsWith_root_iff {id : String} {h : Handle} (hid : IsWord id)
    (hcontext : IsWord h.contextId) :
    Text.beginsWith (root id).key h.key = true ↔ h.contextId = id := by
  rw [Text.beginsWith_iff, toList_key, toList_key, List.prefix_append_right_inj]
  show joinWords [id] <+: joinWords (h.contextId :: _) ↔ _
  rw [joinWords_cons, joinWords_cons, slash_prefix_slash_iff hid hcontext, String.toList_inj]
  simp [joinWords, eq_comm]

/-- Every key begins with that of the root of its context. -/
theorem beginsWith_root_self (h : Handle) :
    Text.beginsWith (root h.contextId).key h.key = true := by
  rw [Text.beginsWith_iff, toList_key, toList_key, List.prefix_append_right_inj]
  show joinWords [h.contextId] <+: joinWords ([h.contextId] ++ _)
  rw [joinWords_append]
  exact List.prefix_append _ _

/-- What begins with the key of a node begins with the key of its root. -/
theorem beginsWith_root_of_beginsWith {h : Handle} {key : String}
    (hkey : Text.beginsWith h.key key = true) :
    Text.beginsWith (root h.contextId).key key = true := by
  have hself := beginsWith_root_self h
  rw [Text.beginsWith_iff] at hself hkey ⊢
  exact hself.trans hkey

/-- A key belongs to one context at most. -/
theorem eq_of_beginsWith_root {id id' key : String} (hid : IsWord id) (hid' : IsWord id')
    (h : Text.beginsWith (root id).key key = true) (h' : Text.beginsWith (root id').key key = true) :
    id = id' := by
  rw [Text.beginsWith_iff, toList_key] at h h'
  -- Of two initial pieces of one key, one is an initial piece of the other.
  have hcases := List.prefix_or_prefix_of_prefix h h'
  simp only [List.prefix_append_right_inj] at hcases
  have hone : ∀ {a b : String}, IsWord a → IsWord b →
      joinWords (root a).words <+: joinWords (root b).words → a = b := by
    intro a b ha hb hab
    have hwords : [a] <+: [b] := (joinWords_prefix_iff (by simpa using ha) (by simpa using hb)).1 hab
    simpa using hwords
  rcases hcases with hab | hba
  · exact hone hid hid' hab
  · exact (hone hid' hid hba).symm

/-- One step more has its words at the end. -/
theorem words_push (h : Handle) (s : Segment) : (h.push s).words = h.words ++ s.words := by
  simp [push, words]

/-- The root has a key of its own. -/
theorem key_push_ne_root (h : Handle) (s : Segment) : (h.push s).key ≠ (root h.contextId).key := by
  -- The key of a node below the root is longer than that of the root.
  intro heq
  have hlength := congrArg (fun key => key.toList.length) heq
  simp only [toList_key, words_push, joinWords_append, List.length_append] at hlength
  have hroot : (joinWords (root h.contextId).words).length ≤ (joinWords h.words).length := by
    show (joinWords [h.contextId]).length ≤ (joinWords ([h.contextId] ++ _)).length
    rw [joinWords_append, List.length_append]
    exact Nat.le_add_right _ _
  have hstep : 0 < (joinWords s.words).length := by
    cases s
    all_goals
      rw [Segment.words, joinWords_cons, List.length_append, List.length_cons]
      omega
  omega

end Handle

end NetIntent
