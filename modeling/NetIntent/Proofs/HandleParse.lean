import NetIntent.Proofs.HandleKey

namespace NetIntent

/-!
# Keys and handles are inverse to each other

A key tells its words, and the words tell the steps, although the word of a level may start a named
level, start an instruction or stand alone: it stands alone only where the key ends.

* `Segment.IsBare` — a leaf that is the word of a level;
* `Handle.Canonical` — the handles that a key can spell;
* `Handle.parseWords_append` — sound steps, none of them bare, are read without regard to what
  follows;
* `Handle.parse_key_inverse` — what is read is canonical and has the key that was read, and a
  handle is read back from its key just if it is canonical.
-/

/-! ### The pieces of a text -/

namespace Text

/-- No piece of a cut text has the separator. -/
theorem notMem_of_mem_pieces {sep : Char} {text piece : List Char} (h : piece ∈ pieces sep text) :
    sep ∉ piece := by
  induction text generalizing piece with
  | nil =>
    rw [pieces, List.mem_singleton] at h
    simp [h]
  | cons c rest ih =>
    rw [pieces] at h
    split at h
    · -- a separator ends an empty piece
      rcases List.mem_cons.1 h with rfl | hrest
      · simp
      · exact ih hrest
    · rename_i hc
      split at h
      · rename_i hnil
        exact absurd hnil (pieces_ne_nil _ _)
      · rename_i first more heq
        rcases List.mem_cons.1 h with rfl | hmore
        · have hfirst := ih (heq ▸ List.mem_cons_self)
          simp [hfirst, Ne.symm hc]
        · exact ih (heq ▸ List.mem_cons_of_mem _ hmore)

end Text

namespace Handle

/-- The words between the slashes of a text spell the text again. -/
theorem joinWords_pieces (text : List Char) :
    joinWords ((Text.pieces '/' text).map String.ofList) = text ++ ['/'] := by
  induction text with
  | nil => simp [Text.pieces, joinWords]
  | cons c rest ih =>
    rw [Text.pieces]
    split
    -- A slash ends a piece.
    · rename_i hc
      rw [List.map_cons, joinWords_cons, ih, hc]
      rfl
    -- Any other character belongs to the first piece of the rest.
    · split
      · rename_i hnil
        exact absurd hnil (Text.pieces_ne_nil _ _)
      · rename_i first more heq
        rw [heq, List.map_cons, joinWords_cons] at ih
        rw [List.map_cons, joinWords_cons]
        simpa using ih

/-- The pieces between slashes are words. -/
theorem isWord_of_mem_pieces {text : List Char} {word : String}
    (h : word ∈ (Text.pieces '/' text).map String.ofList) : IsWord word := by
  obtain ⟨piece, hpiece, rfl⟩ := List.mem_map.1 h
  rw [IsWord, String.toList_ofList]
  exact Text.notMem_of_mem_pieces hpiece

/-! ### The words of a key -/

/-- A key has a body just if it begins as all keys do and ends with a slash. -/
theorem keyBody?_eq_ok_iff {key : String} {body : List Char} :
    keyBody? key = .ok body ↔ key.toList = contextPrefix.toList ++ (body ++ ['/']) := by
  have hlength : ∀ rest : List Char,
      (contextPrefix.toList ++ rest).drop contextPrefix.toList.length = rest :=
    fun _ => List.drop_left
  constructor
  · intro h
    unfold keyBody? at h
    split at h
    · rename_i hbegins
      obtain ⟨rest, hrest⟩ := Text.beginsWith_iff.1 hbegins
      rw [← hrest, hlength] at h
      dsimp only at h
      -- What follows has to end in a slash.
      split at h
      · rename_i hlast
        obtain ⟨init, rfl⟩ := List.getLast?_eq_some_iff.1 hlast
        simp only [List.dropLast_concat, Except.ok.injEq] at h
        rw [← hrest, h]
      · cases h
    · cases h
  · intro h
    have hbegins : Text.beginsWith contextPrefix key = true :=
      Text.beginsWith_iff.2 ⟨_, h.symm⟩
    rw [keyBody?, if_pos hbegins, h, hlength]
    simp

/-- What a key is read as depends on its words alone. -/
theorem parseKey_words {id : String} {words : List String} (hid : IsWord id)
    (hwords : ∀ w ∈ words, IsWord w) :
    parseKey (String.ofList (contextPrefix.toList ++ joinWords (id :: words)))
      = if id = "" then .error .emptyId else (parseWords words).map (⟨id, ·⟩) := by
  -- The text before the last slash has just these words between its slashes.
  obtain ⟨body, hbody⟩ : ∃ body, joinWords (id :: words) = body ++ ['/'] := by
    obtain ⟨init, last, hlast⟩ := (List.eq_nil_or_concat' (id :: words)).resolve_left (by simp)
    refine ⟨joinWords init ++ last.toList, ?_⟩
    rw [hlast, joinWords_append, joinWords_cons]
    simp [joinWords]
  have hpieces : (Text.pieces '/' body).map String.ofList = id :: words := by
    refine joinWords_inj (fun w hw => isWord_of_mem_pieces hw) ?_ ?_
    · exact List.forall_mem_cons.2 ⟨hid, hwords⟩
    · rw [joinWords_pieces, hbody]
  have hkey : keyBody? (String.ofList (contextPrefix.toList ++ joinWords (id :: words)))
      = .ok body := by
    rw [keyBody?_eq_ok_iff, String.toList_ofList, hbody]
  rw [parseKey, hkey]
  simp only [hpieces]

/-- A text that is read as a handle is a list of words, each ended by a slash. -/
theorem words_of_parseKey {key : String} {h : Handle} (hparse : parseKey key = .ok h) :
    ∃ words, key = String.ofList (contextPrefix.toList ++ joinWords (h.contextId :: words)) ∧
      h.contextId ≠ "" ∧ IsWord h.contextId ∧ (∀ w ∈ words, IsWord w) ∧
      parseWords words = .ok h.segments := by
  unfold parseKey at hparse
  split at hparse
  · cases hparse
  · rename_i body hbody
    split at hparse
    · cases hparse
    · rename_i id words hpieces
      -- The pieces are words, and joined with slashes they are the body of the key again.
      have hwords : ∀ w ∈ id :: words, IsWord w :=
        fun w hw => isWord_of_mem_pieces (hpieces ▸ hw)
      have hkey : key = String.ofList (contextPrefix.toList ++ joinWords (id :: words)) := by
        rw [← String.toList_inj, String.toList_ofList, keyBody?_eq_ok_iff.1 hbody, ← hpieces,
          joinWords_pieces]
      split at hparse
      · cases hparse
      · rename_i hid
        cases hsteps : parseWords words with
        | error fault => rw [hsteps] at hparse; cases hparse
        | ok segments =>
          rw [hsteps] at hparse
          cases hparse
          obtain ⟨hidword, hwords⟩ := List.forall_mem_cons.1 hwords
          exact ⟨words, hkey, hid, hidword, hwords, hsteps⟩

end Handle

/-! ### Canonical handles -/

namespace Segment

/-- The texts of the step are words that keys can hold, and its level is one of the named levels. -/
def Sound : Segment → Prop
  | level l name => l ∈ namedLevels ∧ name ≠ "" ∧ Handle.IsWord name ∧ name ≠ instructionWord
  | leaf word => word ≠ "" ∧ Handle.IsWord word
  | instruction l kind => l ∈ namedLevels ∧ kind ≠ "" ∧ Handle.IsWord kind

/-- Whether a step is sound can be tested. -/
instance : DecidablePred Sound
  | level .. => inferInstanceAs (Decidable (_ ∧ _))
  | leaf _ => inferInstanceAs (Decidable (_ ∧ _))
  | instruction .. => inferInstanceAs (Decidable (_ ∧ _))

/-- The step is a leaf that is the word of a level. -/
def IsBare : Segment → Prop
  | leaf word => word ∈ namedLevels
  | _ => False

/-- Whether a step is bare can be tested. -/
instance : DecidablePred IsBare
  | leaf _ => inferInstanceAs (Decidable (_ ∈ _))
  | level .. => inferInstanceAs (Decidable False)
  | instruction .. => inferInstanceAs (Decidable False)

/-- The named levels are words. -/
theorem isWord_of_mem_namedLevels {l : String} (h : l ∈ namedLevels) : Handle.IsWord l :=
  (by decide : ∀ l ∈ namedLevels, Handle.IsWord l) l h

/-- No named level is empty. -/
theorem ne_empty_of_mem_namedLevels {l : String} (h : l ∈ namedLevels) : l ≠ "" :=
  (by decide : ∀ l ∈ namedLevels, l ≠ "") l h

/-- The words of a sound step are words without slashes. -/
theorem Sound.isWord {s : Segment} (hs : s.Sound) : ∀ w ∈ s.words, Handle.IsWord w := by
  cases s with
  | level l name => simpa [words] using ⟨isWord_of_mem_namedLevels hs.1, hs.2.2.1⟩
  | leaf word => simpa [words] using hs.2
  | instruction l kind =>
    have hword : Handle.IsWord instructionWord := by decide
    simpa [words] using ⟨isWord_of_mem_namedLevels hs.1, hword, hs.2.2⟩

end Segment

namespace Handle

/-- The handles that a key can spell: all words are sound, and the word of a level stands alone only
    at the end. -/
structure Canonical (h : Handle) : Prop where
  /-- The context id is not empty. -/
  id_ne : h.contextId ≠ ""
  /-- The context id has no slash. -/
  id_word : IsWord h.contextId
  /-- Every step is sound. -/
  sound : ∀ s ∈ h.segments, s.Sound
  /-- Only the last step may be bare. -/
  bare_last : ∀ s ∈ h.segments.dropLast, ¬ s.IsBare

/-- A handle is canonical if its id is a word, its steps are sound, and only the last may be bare.
    -/
theorem canonical_iff {h : Handle} :
    h.Canonical ↔ h.contextId ≠ "" ∧ IsWord h.contextId ∧ (∀ s ∈ h.segments, s.Sound) ∧
      ∀ s ∈ h.segments.dropLast, ¬ s.IsBare :=
  ⟨fun ⟨hne, hword, hsound, hbare⟩ => ⟨hne, hword, hsound, hbare⟩,
    fun ⟨hne, hword, hsound, hbare⟩ => ⟨hne, hword, hsound, hbare⟩⟩

/-- Whether a handle is canonical can be tested. -/
instance (h : Handle) : Decidable h.Canonical := decidable_of_iff _ canonical_iff.symm

/-- The words of a canonical handle have no slashes. -/
theorem Canonical.isWord {h : Handle} (hh : h.Canonical) : ∀ w ∈ h.words, IsWord w := by
  intro w hw
  rcases List.mem_cons.1 hw with rfl | hw
  · exact hh.id_word
  · obtain ⟨s, hs, hw⟩ := List.mem_flatMap.1 hw
    exact (hh.sound s hs).isWord w hw

/-! ### Reading steps -/

/-- The word of a level and a name are read as the named level. -/
theorem parseWords_level {l name : String} (hs : (Segment.level l name).Sound)
    (words : List String) :
    parseWords (l :: name :: words) = (parseWords words).map (.level l name :: ·) := by
  obtain ⟨hl, hne, -, hinstr⟩ := hs
  rw [parseWords.eq_def]
  simp only [if_neg (Segment.ne_empty_of_mem_namedLevels hl), if_pos hl, if_neg hinstr, if_neg hne]

/-- The word of a level, the reserved word and a kind are read as the instruction. -/
theorem parseWords_instruction {l kind : String} (hs : (Segment.instruction l kind).Sound)
    (words : List String) :
    parseWords (l :: instructionWord :: kind :: words)
      = (parseWords words).map (.instruction l kind :: ·) := by
  obtain ⟨hl, hne, -⟩ := hs
  rw [parseWords.eq_def]
  simp only [if_neg (Segment.ne_empty_of_mem_namedLevels hl), if_pos hl, if_true, if_neg hne]

/-- Another word is read as a leaf. -/
theorem parseWords_leaf {word : String} (hs : (Segment.leaf word).Sound)
    (hbare : ¬ (Segment.leaf word).IsBare) (words : List String) :
    parseWords (word :: words) = (parseWords words).map (.leaf word :: ·) := by
  have hword : word ∉ namedLevels := hbare
  rw [parseWords.eq_def]
  simp only [if_neg hs.1, if_neg hword]

/-- Sound steps, none of them bare, are read without regard to what follows. -/
theorem parseWords_append {segments : List Segment} (hsound : ∀ s ∈ segments, s.Sound)
    (hbare : ∀ s ∈ segments, ¬ s.IsBare) (words : List String) :
    parseWords (segments.flatMap Segment.words ++ words)
      = (parseWords words).map (segments ++ ·) := by
  induction segments with
  | nil => cases h : parseWords words <;> simp [h, Except.map]
  | cons s segments ih =>
    obtain ⟨hs, hsound⟩ := List.forall_mem_cons.1 hsound
    obtain ⟨hsbare, hbare⟩ := List.forall_mem_cons.1 hbare
    have hrest := ih hsound hbare
    have hcons : parseWords (s.words ++ (segments.flatMap Segment.words ++ words))
        = (parseWords (segments.flatMap Segment.words ++ words)).map (s :: ·) := by
      cases s with
      | level l name => exact parseWords_level hs _
      | leaf word => exact parseWords_leaf hs hsbare _
      | instruction l kind => exact parseWords_instruction hs _
    rw [List.flatMap_cons, List.append_assoc, hcons, hrest]
    cases parseWords words <;> rfl

/-- The steps are sound, only the last may be bare, and the words are theirs. -/
structure Spells (segments : List Segment) (words : List String) : Prop where
  words_eq : segments.flatMap Segment.words = words
  sound : ∀ s ∈ segments, s.Sound
  bare_last : ∀ s ∈ segments.dropLast, ¬ s.IsBare

/-- A step that is not bare may be spelled before others. -/
theorem Spells.cons {s : Segment} {segments : List Segment} {words : List String}
    (h : Spells segments words) (hs : s.Sound) (hbare : ¬ s.IsBare) :
    Spells (s :: segments) (s.words ++ words) where
  words_eq := by rw [List.flatMap_cons, h.words_eq]
  sound := List.forall_mem_cons.2 ⟨hs, h.sound⟩
  bare_last := by
    cases segments with
    | nil => simp
    | cons t more =>
      rw [List.dropLast_cons_of_ne_nil (List.cons_ne_nil _ _)]
      exact List.forall_mem_cons.2 ⟨hbare, h.bare_last⟩

/-- A bare leaf may be spelled as the last step. -/
theorem Spells.bare {word : String} (hword : word ∈ namedLevels) :
    Spells [.leaf word] [word] where
  words_eq := rfl
  sound := by
    simpa [Segment.Sound] using
      ⟨Segment.ne_empty_of_mem_namedLevels hword, Segment.isWord_of_mem_namedLevels hword⟩
  bare_last := by simp

/-- The words that steps spell are read as these steps. -/
theorem Spells.parseWords_eq {segments : List Segment} {words : List String}
    (h : Spells segments words) : parseWords words = .ok segments := by
  rw [← h.words_eq]
  -- A bare leaf at the end is read as such because no word follows.
  by_cases hlast : ∀ s ∈ segments, ¬ s.IsBare
  · simpa [parseWords, Except.map] using parseWords_append h.sound hlast []
  · push Not at hlast
    obtain ⟨s, hs, hsbare⟩ := hlast
    obtain ⟨init, last, rfl⟩ :=
      (List.eq_nil_or_concat' segments).resolve_left (List.ne_nil_of_mem hs)
    have hinit : ∀ t ∈ init, ¬ t.IsBare := by simpa using h.bare_last
    have hsound : ∀ t ∈ init, t.Sound := fun t ht => h.sound t (by simp [ht])
    obtain rfl : s = last := by
      rw [List.mem_append, List.mem_singleton] at hs
      exact hs.resolve_left fun hmem => hinit s hmem hsbare
    have hone : parseWords s.words = .ok [s] := by
      cases s with
      | leaf word =>
        have hword : word ∈ namedLevels := hsbare
        simp [Segment.words, parseWords, hword, Segment.ne_empty_of_mem_namedLevels hword]
      | level l name => exact hsbare.elim
      | instruction l kind => exact hsbare.elim
    rw [List.flatMap_append, parseWords_append hsound hinit, List.flatMap_singleton, hone]
    rfl

/-- Where a step is read, the rest of the words is read as the rest of the steps. -/
theorem Spells.of_map {s : Segment} {segments : List Segment} {words : List String} (hs : s.Sound)
    (hbare : ¬ s.IsBare) (hrest : ∀ {more}, parseWords words = .ok more → Spells more words)
    (hmap : (parseWords words).map (s :: ·) = .ok segments) :
    Spells segments (s.words ++ words) := by
  cases hwords : parseWords words with
  | error fault => rw [hwords] at hmap; cases hmap
  | ok more =>
    rw [hwords] at hmap
    cases hmap
    exact (hrest hwords).cons hs hbare

/-- Steps that are read spell the words they are read from. -/
theorem spells_of_parseWords {words : List String} {segments : List Segment}
    (hwords : ∀ w ∈ words, IsWord w) (hparse : parseWords words = .ok segments) :
    Spells segments words := by
  induction words using parseWords.induct generalizing segments with
  | case1 =>
    cases hparse
    exact ⟨rfl, by simp, by simp⟩
  | case2 rest => simp [parseWords.eq_def] at hparse
  | case3 word hne hword =>
    -- the word of a level at the end
    simp only [parseWords, if_neg hne, if_pos hword, Except.ok.injEq] at hparse
    subst hparse
    exact Spells.bare hword
  | case4 word hne hword => simp [parseWords.eq_def, hne, hword] at hparse
  | case5 word hne hword rest => simp [parseWords.eq_def, hne, hword] at hparse
  | case6 l hne hl kind rest hkind ih =>
    have hrest : ∀ w ∈ rest, IsWord w := fun w hw => hwords w (by simp [hw])
    have hs : (Segment.instruction l kind).Sound := ⟨hl, hkind, hwords kind (by simp)⟩
    rw [parseWords_instruction hs] at hparse
    exact Spells.of_map hs id (ih hrest) hparse
  | case7 word hne hword rest hinstr => simp [parseWords.eq_def, hne, hword, hinstr] at hparse
  | case8 l hne hl name rest hinstr hname ih =>
    have hrest : ∀ w ∈ rest, IsWord w := fun w hw => hwords w (by simp [hw])
    have hs : (Segment.level l name).Sound := ⟨hl, hname, hwords name (by simp), hinstr⟩
    rw [parseWords_level hs] at hparse
    exact Spells.of_map hs id (ih hrest) hparse
  | case9 word rest hne hword ih =>
    have hrest : ∀ w ∈ rest, IsWord w := fun w hw => hwords w (by simp [hw])
    have hs : (Segment.leaf word).Sound := ⟨hne, hwords word (by simp)⟩
    rw [parseWords_leaf hs hword] at hparse
    exact Spells.of_map hs hword (ih hrest) hparse

/-! ### Reading keys -/

/-- A handle is read from a key just if the grammar gives it. -/
theorem parse_eq_ok_iff {key : String} {h : Handle} : parse key = .ok h ↔ parseKey key = .ok h := by
  unfold parse
  cases parseKey key <;> simp [Except.mapError]

/-- A text that is read as a handle is the key of that handle, and the handle is canonical. -/
theorem canonical_of_parse {key : String} {h : Handle} (hparse : parse key = .ok h) :
    h.Canonical ∧ h.key = key := by
  obtain ⟨words, hkey, hne, hid, hwords, hsteps⟩ := words_of_parseKey (parse_eq_ok_iff.1 hparse)
  have hspells := spells_of_parseWords hwords hsteps
  refine ⟨⟨hne, hid, hspells.sound, hspells.bare_last⟩, ?_⟩
  rw [hkey, Handle.key, Handle.words, hspells.words_eq]

/-- The key of a canonical handle is read as that handle. -/
theorem Canonical.parse_key {h : Handle} (hh : h.Canonical) : parse h.key = .ok h := by
  obtain ⟨hid, hwords⟩ := List.forall_mem_cons.1 hh.isWord
  have hspells : Spells h.segments (h.segments.flatMap Segment.words) :=
    ⟨rfl, hh.sound, hh.bare_last⟩
  rw [parse_eq_ok_iff, key, Handle.words, parseKey_words hid hwords, if_neg hh.id_ne,
    hspells.parseWords_eq]
  rfl

/-- **Keys and handles are inverse to each other.** A text that is read as a handle is the key of
    that handle, which is then canonical; and of all handles, just the canonical ones are read back
    from their keys. -/
theorem parse_key_inverse :
    (∀ (key : String) (h : Handle), parse key = .ok h → h.Canonical ∧ h.key = key) ∧
    ∀ h : Handle, parse h.key = .ok h ↔ h.Canonical := by
  constructor
  · intro key h hparse
    exact canonical_of_parse hparse
  · intro h
    constructor
    · intro hparse
      exact (canonical_of_parse hparse).1
    · intro hh
      exact hh.parse_key

/-- A status below an app is read back from its key. With the word of a level as a leaf before it,
    the two words of the key are read as one named level. -/
theorem parse_key_inverse_statusOfApp :
    (parse "/context/7/app/network-intents/status/"
        = .ok (((root "7").child "app" "network-intents").leaf "status") ∧
      (((root "7").child "app" "network-intents").leaf "status").Canonical ∧
      (((root "7").child "app" "network-intents").leaf "status").key
        = "/context/7/app/network-intents/status/") ∧
    parse (((root "7").leaf "app").leaf "status").key = .ok ((root "7").child "app" "status") ∧
    ¬ parse (((root "7").leaf "app").leaf "status").key
      = .ok (((root "7").leaf "app").leaf "status") := by
  have hparse : parse "/context/7/app/network-intents/status/"
      = .ok (((root "7").child "app" "network-intents").leaf "status") := by decide +kernel
  refine ⟨⟨hparse, parse_key_inverse.1 _ _ hparse⟩, by decide +kernel, ?_⟩
  rw [parse_key_inverse.2]
  decide +kernel

end Handle

end NetIntent
