import NetIntent.Json.Literal
import NetIntent.Json.Printer

namespace NetIntent.Json

/-!
# The compact text of a value, read back

A text between quotes is read back whole, whatever follows it. So objects of texts are told apart by
their compact texts, and arrays and objects of values that are read back are read back themselves. Where
a number ends is told only by what follows it, which is a comma, the end of an array or an object, or
nothing at all.

* `Literal.text?_escaped` — the law of a quote: reading undoes escaping;
* `quoteChars_append_inj` — no text between quotes is an initial piece of another;
* `text_object_inj` — two objects of texts with the same compact text have the same members;
* `Legible` — the compact text of a value is read back, whatever may follow a value;
* `legible_string`, `legible_int`, … — texts, constants and integers of 64 bits are legible;
* `legible_array`, `legible_ofMembers` — so are arrays and objects of legible values, one level deeper;
* `Legible.ofText?_text` — the compact text of a legible value spells that value;
* `Integral.legible` — values whose numbers are all integers of 64 bits are legible.
-/

namespace Literal

/-- What a character is read back as: control characters without a letter of their own are written
    as units. -/
def pieceOf (c : Char) : Piece :=
  if c = '\x08' ∨ c = '\x0c' ∨ c = '\n' ∨ c = '\r' ∨ c = '\t' then .char c
  else if c.toNat < 32 then .unit c.toNat
  else .char c

/-- Two hexadecimal digits are read back as the number they were written for. -/
theorem hexUnit?_hexChar {n : Nat} (h : n < 32) :
    hexUnit? '0' '0' (hexChar (n / 16)) (hexChar (n % 16)) = some n := by
  have hall : ∀ n : Fin 32,
      hexUnit? '0' '0' (hexChar (n.val / 16)) (hexChar (n.val % 16)) = some n.val := by decide
  exact hall ⟨n, h⟩

/-- One escaped character is read back as one piece. -/
theorem pieces?_escape (c : Char) (cs : List Char) :
    pieces? (escape c ++ cs) = (pieces? cs).map fun (ps, rest) => (pieceOf c :: ps, rest) := by
  -- First the characters with an escape of their own, then the other control characters.
  by_cases hquote : c = '"'
  · subst hquote; simp [escape, pieces?, escaped?, pieceOf]
  by_cases hslash : c = '\\'
  · subst hslash; simp [escape, pieces?, escaped?, pieceOf]
  by_cases hb : c = '\x08'
  · subst hb; simp [escape, pieces?, escaped?, pieceOf]
  by_cases hf : c = '\x0c'
  · subst hf; simp [escape, pieces?, escaped?, pieceOf]
  by_cases hn : c = '\n'
  · subst hn; simp [escape, pieces?, escaped?, pieceOf]
  by_cases hr : c = '\r'
  · subst hr; simp [escape, pieces?, escaped?, pieceOf]
  by_cases ht : c = '\t'
  · subst ht; simp [escape, pieces?, escaped?, pieceOf]
  by_cases hctl : c.toNat < 32
  · simp [escape, pieces?, pieceOf, hexUnit?_hexChar hctl, hquote, hslash, hb, hf, hn, hr, ht,
      hctl]
  · simp [escape, pieces?, pieceOf, hquote, hslash, hb, hf, hn, hr, ht, hctl]

/-- Escaped characters are read back up to the closing quote. -/
theorem pieces?_flatMap_escape (cs rest : List Char) :
    pieces? (cs.flatMap escape ++ '"' :: rest) = some (cs.map pieceOf, rest) := by
  induction cs with
  | nil => simp [pieces?]
  | cons c cs ih =>
    rw [List.flatMap_cons, List.append_assoc, pieces?_escape, ih]
    rfl

/-- A character stands for itself in a text, or for a small number that has to be escaped. -/
theorem pieceOf_eq (c : Char) : pieceOf c = .char c ∨ pieceOf c = .unit c.toNat ∧ c.toNat < 32 := by
  unfold pieceOf
  split
  · exact .inl rfl
  · split
    · rename_i hctl
      exact .inr ⟨rfl, hctl⟩
    · exact .inl rfl

/-- A unit that is no half of a character stands for one, whatever follows it. -/
theorem characters?_unit {n : Nat} (h : n < 0xD800) (ps : List Piece) :
    characters? (.unit n :: ps) = (characters? ps).map (Char.ofNat n :: ·) := by
  have hhigh : ¬ (0xD800 ≤ n ∧ n < 0xDC00) := by omega
  have hlow : ¬ (0xDC00 ≤ n ∧ n < 0xE000) := by omega
  have hhalf : ¬ (0xD800 ≤ n ∧ n < 0xE000) := by omega
  cases ps with
  | nil => simp [characters?, hhalf]
  | cons p ps =>
    cases p with
    | char d => simp [characters?, hhalf]
    | unit m => rw [characters?, if_neg hhigh, if_neg hlow]

/-- The pieces of characters spell these characters: no unit among them is half of a character. -/
theorem characters?_map_pieceOf (cs : List Char) : characters? (cs.map pieceOf) = some cs := by
  induction cs with
  | nil => rfl
  | cons c cs ih =>
    rw [List.map_cons]
    rcases pieceOf_eq c with hchar | ⟨hunit, hlt⟩
    · rw [hchar, characters?, ih]
      rfl
    · -- a control character is no half of a surrogate pair
      have hlow : c.toNat < 0xD800 := by omega
      rw [hunit, characters?_unit hlow, ih, Char.ofNat_toNat]
      rfl

/-- A quoted text is read back whole, whatever follows it. -/
theorem text?_escaped (cs rest : List Char) :
    text? (cs.flatMap escape ++ '"' :: rest) = some (some (String.ofList cs), rest) := by
  simp [text?, pieces?_flatMap_escape, characters?_map_pieceOf]

end Literal

/-! ### Telling objects of texts apart -/

/-- No text between quotes is an initial piece of another. -/
theorem quoteChars_append_inj {s s' : String} {rest rest' : List Char}
    (h : quoteChars s.toList ++ rest = quoteChars s'.toList ++ rest') : s = s' ∧ rest = rest' := by
  simp only [quoteChars, List.cons_append, List.append_assoc, List.cons.injEq, true_and] at h
  -- Reading both sides gives the text and what follows it.
  have hread := congrArg Literal.text? h
  rw [Literal.text?_escaped, Literal.text?_escaped] at hread
  simpa using hread

/-- The members of an object whose values are texts. -/
def textMembers (fields : List (String × String)) : List (String × Json) :=
  fields.map fun f => (f.1, .string f.2)

/-- One member of an object of texts and what follows it. -/
theorem commaJoin_memberChars_cons (f : String × String) (fields : List (String × String)) :
    commaJoin (memberChars (textMembers (f :: fields)))
      = quoteChars f.1.toList ++ ':' :: (quoteChars f.2.toList ++
          match fields with
          | [] => []
          | g :: more => ',' :: commaJoin (memberChars (textMembers (g :: more)))) := by
  cases fields with
  | nil => simp [textMembers, memberChars, commaJoin, chars]
  | cons g more => simp [textMembers, memberChars, commaJoin, chars]

/-- Joined members of texts tell which fields they are. -/
theorem commaJoin_memberChars_inj {fields fields' : List (String × String)}
    (h : commaJoin (memberChars (textMembers fields)) ++ ['\x7d']
      = commaJoin (memberChars (textMembers fields')) ++ ['\x7d']) : fields = fields' := by
  induction fields generalizing fields' with
  | nil =>
    cases fields' with
    | nil => rfl
    | cons g more =>
      rw [commaJoin_memberChars_cons] at h
      simp [textMembers, memberChars, commaJoin, quoteChars] at h
  | cons f fields ih =>
    cases fields' with
    | nil =>
      rw [commaJoin_memberChars_cons] at h
      simp [textMembers, memberChars, commaJoin, quoteChars] at h
    | cons g more =>
      rw [commaJoin_memberChars_cons, commaJoin_memberChars_cons] at h
      simp only [List.append_assoc, List.cons_append] at h
      obtain ⟨hkey, h⟩ := quoteChars_append_inj h
      obtain ⟨hvalue, h⟩ := quoteChars_append_inj (List.cons.inj h).2
      have hfg : f = g := Prod.ext hkey hvalue
      -- what follows the member is a comma and more members, or the end of the object
      cases fields with
      | nil =>
        cases more with
        | nil => rw [hfg]
        | cons => simp at h
      | cons =>
        cases more with
        | nil => simp at h
        | cons => rw [hfg, ih (List.cons.inj h).2]

/-- Two objects of texts with the same compact text have the same members. -/
theorem text_object_inj {fields fields' : List (String × String)}
    (h : (Json.object (textMembers fields)).text = (Json.object (textMembers fields')).text) :
    fields = fields' := by
  have hchars := String.ofList_injective h
  simp only [chars, List.cons.injEq, true_and] at hchars
  exact commaJoin_memberChars_inj hchars

/-! ### Texts, arrays and objects, read back -/

namespace Literal

/-- The characters begin as a value does: neither with a blank nor with the end of an array. -/
def Opens (cs : List Char) : Prop :=
  ∃ c rest, cs = c :: rest ∧ c ∉ [' ', '\n', '\t', '\r', ']']

/-- More may follow characters that open a value. -/
theorem Opens.append {cs : List Char} (h : Opens cs) (rest : List Char) : Opens (cs ++ rest) := by
  obtain ⟨c, cs, rfl, hc⟩ := h
  exact ⟨c, cs ++ rest, rfl, hc⟩

/-- The characters may follow a value: they are none, or begin with a comma or with the end of an
    array or an object. -/
def Follows (cs : List Char) : Prop := ∀ c ∈ cs.head?, c ∈ [',', ']', '\x7d']

/-- Nothing at all may follow a value. -/
theorem follows_nil : Follows [] := nofun

/-- A comma or an end may follow a value, and then anything. -/
theorem follows_cons {c : Char} (h : c ∈ [',', ']', '\x7d']) (rest : List Char) :
    Follows (c :: rest) := by
  rintro _ ⟨⟩
  exact h

/-- A quoted text is read, and the rest is left. -/
theorem value?_text (fuel : Nat) (s : String) (rest : List Char) :
    value? (fuel + 1) (quoteChars s.toList ++ rest) = some (.string s, rest) := by
  simp [value?, skipBlanks, quoteChars, text?_escaped]

/-- An array is read as its items are. -/
theorem value?_array {fuel : Nat} {cs : List Char} (h : Opens cs) :
    value? (fuel + 1) ('[' :: cs) = (items? fuel cs).map fun (vs, rest) => (.array vs, rest) := by
  obtain ⟨c, cs, rfl, hc⟩ := h
  simp only [List.mem_cons, List.not_mem_nil, or_false, not_or] at hc
  simp [value?, skipBlanks, hc]

/-- The last item is followed by the end of the array. -/
theorem items?_last {fuel : Nat} {cs rest : List Char} {v : Literal}
    (h : value? fuel cs = some (v, ']' :: rest)) : items? (fuel + 1) cs = some ([v], rest) := by
  simp [items?, h, skipBlanks]

/-- After an item and a comma come the other items. -/
theorem items?_next {fuel : Nat} {cs rest rest' : List Char} {v : Literal} {vs : List Literal}
    (h : value? fuel cs = some (v, ',' :: rest)) (hnext : items? fuel rest = some (vs, rest')) :
    items? (fuel + 1) cs = some (v :: vs, rest') := by
  simp [items?, h, hnext, skipBlanks]

/-- An object is read as its members are. -/
theorem value?_object {fuel : Nat} {cs : List Char} :
    value? (fuel + 1) ('\x7b' :: '"' :: cs)
      = (members? fuel ('"' :: cs)).map fun (ms, rest) => (.object ms, rest) := by
  simp [value?, skipBlanks]

variable {fuel : Nat} {k : String} {cs rest rest' : List Char} {v : Literal}

/-- The last member is followed by the end of the object. -/
theorem members?_last (h : value? fuel cs = some (v, '\x7d' :: rest)) :
    members? (fuel + 1) (quoteChars k.toList ++ ':' :: cs) = some ([(some k, v)], rest) := by
  simp [members?, h, skipBlanks, quoteChars, text?_escaped]

/-- After a member and a comma come the other members. -/
theorem members?_next {ms : List (Option String × Literal)}
    (h : value? fuel cs = some (v, ',' :: rest)) (hnext : members? fuel rest = some (ms, rest')) :
    members? (fuel + 1) (quoteChars k.toList ++ ':' :: cs) = some ((some k, v) :: ms, rest') := by
  simp [members?, h, hnext, skipBlanks, quoteChars, text?_escaped]

end Literal

/-- The compact text of the value is read back, whatever may follow it, where values may nest at least
    so deep. -/
structure Legible (v : Json) (depth : Nat) : Prop where
  opens : Literal.Opens v.chars
  spelled : ∃ literal : Literal,
    (∀ fuel rest, Literal.Follows rest → 2 * v.chars.length ≤ fuel →
      Literal.value? fuel (v.chars ++ rest) = some (literal, rest)) ∧
    ∀ d, depth ≤ d → literal.read? d = some v

/-- A value is read back also where values may nest deeper. -/
theorem Legible.mono {v : Json} {depth depth' : Nat} (h : v.Legible depth) (hle : depth ≤ depth') :
    v.Legible depth' where
  opens := h.opens
  spelled := by
    obtain ⟨literal, hvalue, hread⟩ := h.spelled
    exact ⟨literal, hvalue, fun d hd => hread d (Nat.le_trans hle hd)⟩

/-- A value without parts is legible if it is read back in one step. -/
theorem legible_of_value? {v : Json} (depth : Nat) (literal : Literal)
    (hopens : Literal.Opens v.chars)
    (hvalue : ∀ fuel rest, Literal.Follows rest →
      Literal.value? (fuel + 1) (v.chars ++ rest) = some (literal, rest))
    (hread : ∀ d, literal.read? d = some v) : v.Legible depth where
  opens := hopens
  spelled := by
    refine ⟨literal, fun fuel rest hrest hfuel => ?_, fun d _ => hread d⟩
    obtain ⟨c, cs, hcs, -⟩ := hopens
    rw [hcs, List.length_cons] at hfuel
    obtain ⟨fuel, rfl⟩ : ∃ n, fuel = n + 1 := ⟨fuel - 1, by omega⟩
    exact hvalue fuel rest hrest

/-- A text is legible at any depth. -/
theorem legible_string (s : String) (depth : Nat) : (Json.string s).Legible depth :=
  legible_of_value? depth (.string s) ⟨'"', _, rfl, by decide⟩
    (fun fuel rest _ => Literal.value?_text fuel s rest) fun _ => rfl

section Items

variable {depth : Nat}

/-- The joined items of an array open a value. -/
theorem opens_itemChars {v : Json} (h : v.Legible depth) (items : List Json) :
    Literal.Opens (commaJoin (itemChars (v :: items))) := by
  cases items with
  | nil => exact h.opens
  | cons w items => exact h.opens.append _

/-- Items that are not empty are read back up to the closing bracket. -/
theorem items?_itemChars {v : Json} {items : List Json} (h : ∀ w ∈ v :: items, w.Legible depth) :
    ∃ literals : List Literal,
      (∀ fuel rest, 2 * (commaJoin (itemChars (v :: items))).length + 1 ≤ fuel →
        Literal.items? fuel (commaJoin (itemChars (v :: items)) ++ ']' :: rest)
          = some (literals, rest)) ∧
      ∀ d, depth ≤ d → Literal.readItems? literals d = some (v :: items) := by
  induction items generalizing v with
  | nil =>
    obtain ⟨literal, hvalue, hread⟩ := (h v List.mem_cons_self).spelled
    refine ⟨[literal], fun fuel rest hfuel => ?_, fun d hd => ?_⟩
    · obtain ⟨fuel, rfl⟩ : ∃ n, fuel = n + 1 := ⟨fuel - 1, by omega⟩
      simp only [itemChars, commaJoin] at hfuel ⊢
      have hends : Literal.Follows (']' :: rest) := Literal.follows_cons (by decide) rest
      exact Literal.items?_last (hvalue fuel (']' :: rest) hends (by omega))
    · simp [Literal.readItems?, hread d hd]
  | cons w items ih =>
    -- The first value ends at the comma, and the rest is read with the fuel that is left.
    obtain ⟨hv, hitems⟩ := List.forall_mem_cons.1 h
    obtain ⟨literal, hvalue, hread⟩ := hv.spelled
    obtain ⟨literals, hnext, hreads⟩ := ih hitems
    refine ⟨literal :: literals, fun fuel rest hfuel => ?_, fun d hd => ?_⟩
    · obtain ⟨fuel, rfl⟩ : ∃ n, fuel = n + 1 := ⟨fuel - 1, by omega⟩
      have hjoin : commaJoin (itemChars (v :: w :: items))
          = v.chars ++ ',' :: commaJoin (itemChars (w :: items)) := rfl
      rw [hjoin, List.length_append, List.length_cons] at hfuel
      rw [hjoin, List.append_assoc]
      exact Literal.items?_next (hvalue fuel _ (Literal.follows_cons (by decide) _) (by omega))
        (hnext fuel rest (by omega))
    · simp [Literal.readItems?, hread d hd, hreads d hd]

/-- An array is one level deeper than its items. -/
theorem legible_array {items : List Json} (h : ∀ v ∈ items, v.Legible depth) :
    (Json.array items).Legible (depth + 1) where
  opens := ⟨'[', _, rfl, by decide⟩
  spelled := by
    cases items with
    | nil =>
      refine ⟨.array [], fun fuel rest _ hfuel => ?_, fun d hd => ?_⟩
      · obtain ⟨fuel, rfl⟩ : ∃ n, fuel = n + 1 := ⟨fuel - 1, by simp [chars] at hfuel; omega⟩
        simp [chars, itemChars, commaJoin, Literal.value?, Literal.skipBlanks]
      · obtain ⟨d, rfl⟩ : ∃ n, d = n + 1 := ⟨d - 1, by omega⟩
        rfl
    | cons v items =>
      -- One unit of fuel and one level of depth are spent on the brackets.
      obtain ⟨literals, hitems, hreads⟩ := items?_itemChars h
      refine ⟨.array literals, fun fuel rest _ hfuel => ?_, fun d hd => ?_⟩
      · have hchars : (Json.array (v :: items)).chars
            = '[' :: (commaJoin (itemChars (v :: items)) ++ [']']) := rfl
        rw [hchars, List.length_cons, List.length_append, List.length_singleton] at hfuel
        obtain ⟨fuel, rfl⟩ : ∃ n, fuel = n + 1 := ⟨fuel - 1, by omega⟩
        have hopens := (opens_itemChars (h v List.mem_cons_self) items).append (']' :: rest)
        rw [hchars, List.cons_append, List.append_assoc, List.singleton_append,
          Literal.value?_array hopens, hitems fuel rest (by omega)]
        rfl
      · obtain ⟨d, rfl⟩ : ∃ n, d = n + 1 := ⟨d - 1, by omega⟩
        rw [Literal.read?, hreads d (by omega)]
        rfl

end Items

section Members

variable {depth : Nat}

/-- Members that are not none are read back up to the closing brace. -/
theorem members?_memberChars {m : String × Json} {members : List (String × Json)}
    (h : ∀ e ∈ m :: members, e.2.Legible depth) :
    ∃ literals : List (Option String × Literal),
      (∀ fuel rest, 2 * (commaJoin (memberChars (m :: members))).length + 1 ≤ fuel →
        Literal.members? fuel (commaJoin (memberChars (m :: members)) ++ '\x7d' :: rest)
          = some (literals, rest)) ∧
      ∀ d, depth ≤ d → Literal.readMembers? literals d = some (m :: members) := by
  induction members generalizing m with
  | nil =>
    obtain ⟨literal, hvalue, hread⟩ := (h m List.mem_cons_self).spelled
    refine ⟨[(some m.1, literal)], fun fuel rest hfuel => ?_, fun d hd => ?_⟩
    · obtain ⟨fuel, rfl⟩ : ∃ n, fuel = n + 1 := ⟨fuel - 1, by omega⟩
      have hjoin : commaJoin (memberChars [m]) = quoteChars m.1.toList ++ ':' :: m.2.chars := rfl
      rw [hjoin, List.length_append, List.length_cons] at hfuel
      rw [hjoin, List.append_assoc, List.cons_append]
      exact Literal.members?_last (hvalue fuel _ (Literal.follows_cons (by decide) _) (by omega))
    · simp [Literal.readMembers?, hread d hd]
  | cons n members ih =>
    -- A member ends at the comma, as an item of an array does.
    obtain ⟨hm, hmembers⟩ := List.forall_mem_cons.1 h
    obtain ⟨literal, hvalue, hread⟩ := hm.spelled
    obtain ⟨literals, hnext, hreads⟩ := ih hmembers
    refine ⟨(some m.1, literal) :: literals, fun fuel rest hfuel => ?_, fun d hd => ?_⟩
    · obtain ⟨fuel, rfl⟩ : ∃ n, fuel = n + 1 := ⟨fuel - 1, by omega⟩
      have hjoin : commaJoin (memberChars (m :: n :: members))
          = (quoteChars m.1.toList ++ ':' :: m.2.chars) ++
            ',' :: commaJoin (memberChars (n :: members)) := rfl
      rw [hjoin, List.length_append, List.length_append, List.length_cons, List.length_cons] at hfuel
      rw [hjoin, List.append_assoc, List.append_assoc, List.cons_append]
      exact Literal.members?_next (hvalue fuel _ (Literal.follows_cons (by decide) _) (by omega))
        (hnext fuel rest (by omega))
    · simp [Literal.readMembers?, hread d hd, hreads d hd]

/-- An object is one level deeper than the values of its members. -/
theorem legible_object {members : List (String × Json)} (h : ∀ e ∈ members, e.2.Legible depth) :
    (Json.object members).Legible (depth + 1) where
  opens := ⟨'\x7b', _, rfl, by decide⟩
  spelled := by
    cases members with
    | nil =>
      refine ⟨.object [], fun fuel rest _ hfuel => ?_, fun d hd => ?_⟩
      · obtain ⟨fuel, rfl⟩ : ∃ n, fuel = n + 1 := ⟨fuel - 1, by simp [chars] at hfuel; omega⟩
        simp [chars, memberChars, commaJoin, Literal.value?, Literal.skipBlanks]
      · obtain ⟨d, rfl⟩ : ∃ n, d = n + 1 := ⟨d - 1, by omega⟩
        rfl
    | cons m members =>
      obtain ⟨literals, hmembers, hreads⟩ := members?_memberChars h
      refine ⟨.object literals, fun fuel rest _ hfuel => ?_, fun d hd => ?_⟩
      · have hchars : (Json.object (m :: members)).chars
            = '\x7b' :: (commaJoin (memberChars (m :: members)) ++ ['\x7d']) := rfl
        rw [hchars, List.length_cons, List.length_append, List.length_singleton] at hfuel
        obtain ⟨fuel, rfl⟩ : ∃ n, fuel = n + 1 := ⟨fuel - 1, by omega⟩
        -- A member begins with the quote of its name.
        obtain ⟨cs, hquote⟩ : ∃ cs, commaJoin (memberChars (m :: members)) ++ '\x7d' :: rest
            = '"' :: cs := by cases members <;> exact ⟨_, rfl⟩
        rw [hchars, List.cons_append, List.append_assoc, List.singleton_append, hquote,
          Literal.value?_object, ← hquote, hmembers fuel rest (by omega)]
        rfl
      · obtain ⟨d, rfl⟩ : ∃ n, d = n + 1 := ⟨d - 1, by omega⟩
        rw [Literal.read?, hreads d (by omega)]
        rfl

/-- The compact text of a legible value spells a literal of that value. -/
theorem Legible.exists_literal {v : Json} (h : v.Legible depth) :
    ∃ literal, Literal.ofText? v.text = some literal ∧
      ∀ d, depth ≤ d → literal.read? d = some v := by
  obtain ⟨literal, hvalue, hread⟩ := h.spelled
  refine ⟨literal, ?_, hread⟩
  have hrun := hvalue (2 * v.chars.length + 2) [] Literal.follows_nil (by omega)
  rw [List.append_nil] at hrun
  simp [Literal.ofText?, text, hrun, Literal.skipBlanks]

/-- The compact text of a legible value that nests no deeper than allowed spells that value. -/
theorem Legible.ofText?_text {v : Json} (h : v.Legible depth) (hdepth : depth ≤ Literal.maxDepth) :
    ofText? v.text = some v.normalize := by
  obtain ⟨literal, hliteral, hread⟩ := h.exists_literal
  rw [ofText?, hliteral, Option.bind_some, hread _ hdepth]
  rfl

/-- Sorting adds no member. -/
theorem mem_sortMembers {e : String × Json} {members : List (String × Json)}
    (h : e ∈ sortMembers members) : e ∈ members := by
  have hfold : ∀ (members done : List (String × Json)),
      e ∈ members.foldl (fun done m => OrderedMap.insertEntry m.1 m.2 done) done →
      e ∈ members ∨ e ∈ done := by
    intro members
    induction members with
    | nil => exact fun done h => .inr h
    | cons m members ih =>
      intro done h
      rcases ih _ h with h | h
      · exact .inl (List.mem_cons_of_mem _ h)
      · exact (OrderedMap.mem_insertEntry h).imp_left fun heq => List.mem_cons.2 (.inl heq)
  exact (hfold members [] h).resolve_right List.not_mem_nil

/-- An object of sorted members is as legible as the values of its members. -/
theorem legible_ofMembers {members : List (String × Json)} (h : ∀ e ∈ members, e.2.Legible depth) :
    (Json.ofMembers members).Legible (depth + 1) :=
  legible_object fun e he => h e (mem_sortMembers he)

end Members

/-! ### Constants and integers, read back -/

namespace Literal

/-- Digits are added up as long as the number they make is within the bound. -/
theorem accumulate_of_le {bound n : Nat} {ds : List Char} (h : Nat.ofDigitChars 10 ds n ≤ bound) :
    accumulate bound n ds = (Nat.ofDigitChars 10 ds n, []) := by
  induction ds generalizing n with
  | nil => rfl
  | cons c ds ih =>
    have hcons : Nat.ofDigitChars 10 (c :: ds) n
        = Nat.ofDigitChars 10 ds (n * 10 + digit c) := by
      rw [Nat.ofDigitChars_cons, Nat.mul_comm]
      rfl
    rw [hcons] at h ⊢
    -- the digits that follow only add to the number
    have hgrows : n * 10 + digit c ≤ Nat.ofDigitChars 10 ds (n * 10 + digit c) := by
      rw [Nat.ofDigitChars_eq_ofDigitChars_zero]
      exact Nat.le_add_right_of_le (Nat.le_mul_of_pos_left _ (Nat.pow_pos (by decide)))
    rw [accumulate, if_pos (Nat.le_trans hgrows h), ih h]

/-- A number is written with digits only. -/
theorem isDigit_natChars {n : Nat} : ∀ c ∈ natChars n, c.isDigit = true :=
  fun _ => Nat.isDigit_of_mem_toDigits (by decide) (by decide)

/-- A number has a first digit. -/
theorem natChars_eq_cons (n : Nat) : ∃ c cs, natChars n = c :: cs ∧ c.isDigit = true := by
  obtain ⟨c, cs, hcs⟩ := List.exists_cons_of_ne_nil (Nat.toDigits_ne_nil (n := n) (b := 10))
  exact ⟨c, cs, hcs, isDigit_natChars c (by rw [natChars, hcs]; exact List.mem_cons_self)⟩

/-- A number opens a value. -/
theorem opens_natChars (n : Nat) : Opens (natChars n) := by
  obtain ⟨c, cs, hcs, hdigit⟩ := natChars_eq_cons n
  refine ⟨c, cs, hcs, fun hc => ?_⟩
  simp only [List.mem_cons, List.not_mem_nil, or_false] at hc
  rcases hc with rfl | rfl | rfl | rfl | rfl <;> exact absurd hdigit (by decide)

/-- Only zero begins with the digit zero. -/
theorem eq_zero_of_head?_natChars {n : Nat} (h : (natChars n).head? = some '0') : n = 0 := by
  induction n using Nat.strongRecOn with
  | ind n ih =>
    by_cases hlt : n < 10
    · have hdigit : ∀ m : Fin 10, [Nat.digitChar m].head? = some '0' → m.val = 0 := by decide
      rw [natChars, Nat.toDigits_of_lt_base hlt] at h
      exact hdigit ⟨n, hlt⟩ h
    · have hsplit := Nat.toDigits_of_base_le (b := 10) (by decide) (Nat.le_of_not_lt hlt)
      obtain ⟨c, cs, hcs, -⟩ := natChars_eq_cons (n / 10)
      rw [natChars] at hcs
      rw [natChars, hsplit, hcs] at h
      have hzero := ih (n / 10) (by omega) (by rw [natChars, hcs]; exact h)
      omega

/-- The digits of a natural are read as an integer part, and nothing of what follows is. -/
theorem number?_natChars (negative : Bool) (n : Nat) {rest : List Char} (h : Follows rest) :
    number? negative (natChars n ++ rest)
      = some (.number (integer negative (natChars n)), rest) := by
  -- A natural number is printed without needless zeros.
  have hplain : ¬ ((natChars n).isEmpty ∨
      1 < (natChars n).length ∧ (natChars n).head? = some '0') := by
    rintro (hempty | ⟨hlong, hzero⟩)
    · exact Nat.toDigits_ne_nil (List.isEmpty_iff.1 hempty)
    · rw [eq_zero_of_head?_natChars hzero] at hlong
      exact absurd hlong (by decide)
  rw [number?, List.takeWhile_append_of_pos isDigit_natChars,
    List.dropWhile_append_of_pos isDigit_natChars]
  cases rest with
  | nil =>
    simp only [List.takeWhile_nil, List.dropWhile_nil, List.append_nil]
    rw [if_neg hplain]
  | cons c rest =>
    have hc := h c rfl
    simp only [List.mem_cons, List.not_mem_nil, or_false] at hc
    -- What may follow the number is no digit of it.
    have hdigit : ¬ c.isDigit = true := by rcases hc with rfl | rfl | rfl <;> decide
    rw [List.takeWhile_cons_of_neg hdigit, List.dropWhile_cons_of_neg hdigit, List.append_nil,
      if_neg hplain]
    rcases hc with rfl | rfl | rfl <;> rfl

/-- The digits of a number that is not too large are read as this number. -/
theorem integer_natChars {n : Nat} (h : n ≤ maxUnsigned) :
    integer false (natChars n) = some (.int n) := by
  have hvalue : Nat.ofDigitChars 10 (natChars n) 0 = n := Nat.ofDigitChars_ten_toDigits
  have hread := accumulate_of_le (Nat.le_trans (Nat.le_of_eq hvalue) h)
  simp [integer, hread, hvalue]

/-- A negative integer of 64 bits is read back, as there is no negative zero among them. -/
theorem integer_natChars_neg {n : Nat} (hn : n ≠ 0) (h : n ≤ Nat.pow 2 63) :
    integer true (natChars n) = some (.int (-n)) := by
  have hvalue : Nat.ofDigitChars 10 (natChars n) 0 = n := Nat.ofDigitChars_ten_toDigits
  have hle : n ≤ maxUnsigned := Nat.le_trans h (by decide)
  have hread := accumulate_of_le (Nat.le_trans (Nat.le_of_eq hvalue) hle)
  simp only [integer, hread, hvalue]
  simp [hn, Nat.not_lt.2 h]

/-- What begins with a digit is read as a number. -/
theorem value?_digit {c : Char} (hc : c.isDigit = true) (fuel : Nat) (cs : List Char) :
    value? (fuel + 1) (c :: cs) = number? false (c :: cs) := by
  have hskip : skipBlanks (c :: cs) = c :: cs := by
    rw [skipBlanks, List.dropWhile_cons_of_neg]
    intro hblank
    simp only [Bool.or_eq_true, decide_eq_true_eq] at hblank
    rcases hblank with ((rfl | rfl) | rfl) | rfl <;> exact absurd hc (by decide)
  rw [value?, hskip]
  -- no other kind of value begins with a digit
  split <;> first | rfl | (rename_i heq; cases heq; exact absurd hc (by decide))

/-- A natural of 64 bits is read back. -/
theorem value?_natChars {n : Nat} (h : n ≤ maxUnsigned) (fuel : Nat) {rest : List Char}
    (hrest : Follows rest) :
    value? (fuel + 1) (natChars n ++ rest) = some (.number (some (.int n)), rest) := by
  obtain ⟨c, cs, hcs, hdigit⟩ := natChars_eq_cons n
  have hopen : natChars n ++ rest = c :: (cs ++ rest) := by rw [hcs, List.cons_append]
  rw [hopen, value?_digit hdigit, ← hopen, number?_natChars false n hrest, integer_natChars h]

/-- A negative integer of 64 bits is read back. -/
theorem value?_negative {n : Nat} (hn : n ≠ 0) (h : n ≤ Nat.pow 2 63) (fuel : Nat)
    {rest : List Char} (hrest : Follows rest) :
    value? (fuel + 1) ('-' :: natChars n ++ rest) = some (.number (some (.int (-n))), rest) := by
  have hminus : value? (fuel + 1) ('-' :: natChars n ++ rest)
      = number? true (natChars n ++ rest) := by simp [value?, skipBlanks]
  rw [hminus, number?_natChars true n hrest, integer_natChars_neg hn h]

end Literal

/-- The value null is legible at any depth. -/
theorem legible_null (depth : Nat) : Json.null.Legible depth :=
  legible_of_value? depth .null ⟨'n', _, rfl, by decide⟩
    (fun fuel rest _ => by simp [chars, Literal.value?, Literal.skipBlanks]) fun _ => rfl

/-- A truth value is legible at any depth. -/
theorem legible_bool (b : Bool) (depth : Nat) : (Json.bool b).Legible depth := by
  cases b with
  | true =>
    exact legible_of_value? depth (.bool true) ⟨'t', _, rfl, by decide⟩
      (fun fuel rest _ => by simp [chars, Literal.value?, Literal.skipBlanks]) fun _ => rfl
  | false =>
    exact legible_of_value? depth (.bool false) ⟨'f', _, rfl, by decide⟩
      (fun fuel rest _ => by simp [chars, Literal.value?, Literal.skipBlanks]) fun _ => rfl

/-- Integers of 64 bits are legible, with a sign or without. -/
theorem legible_int {n : Int} (hlow : -Int.pow 2 63 ≤ n) (hhigh : n < Int.pow 2 64) (depth : Nat) :
    (Json.number (.int n)).Legible depth := by
  have hlowest : Int.pow 2 63 = 9223372036854775808 := rfl
  have hhighest : Int.pow 2 64 = 18446744073709551616 := rfl
  cases n with
  | ofNat n =>
    have hn : n ≤ Literal.maxUnsigned := by
      have hmax : Literal.maxUnsigned = 18446744073709551615 := rfl
      rw [Int.ofNat_eq_natCast] at hhigh
      omega
    exact legible_of_value? depth (.number (some (.int n))) (Literal.opens_natChars n)
      (fun fuel rest hrest => Literal.value?_natChars hn fuel hrest) fun _ => rfl
  | negSucc n =>
    have hn : n + 1 ≤ Nat.pow 2 63 := by
      have hmin : Nat.pow 2 63 = 9223372036854775808 := rfl
      omega
    exact legible_of_value? depth (.number (some (.int (Int.negSucc n)))) ⟨'-', _, rfl, by decide⟩
      (fun fuel rest hrest => Literal.value?_negative (Nat.succ_ne_zero n) hn fuel hrest)
      fun _ => rfl

/-! ### Values of integers, read back -/

mutual

/-- How deep the arrays and objects in a value nest. -/
def depth : Json → Nat
  | .array items => depthOfItems items + 1
  | .object members => depthOfMembers members + 1
  | .null | .bool _ | .number _ | .string _ => 0

/-- How deep the deepest of the items nests. -/
def depthOfItems : List Json → Nat
  | [] => 0
  | v :: rest => max (depth v) (depthOfItems rest)

/-- How deep the deepest of the members nests. -/
def depthOfMembers : List (String × Json) → Nat
  | [] => 0
  | (_, v) :: rest => max (depth v) (depthOfMembers rest)

end

/-- An item is not deeper than the deepest of all. -/
theorem depth_le_of_mem_items {v : Json} {items : List Json} (h : v ∈ items) :
    v.depth ≤ depthOfItems items := by
  induction items with
  | nil => exact absurd h List.not_mem_nil
  | cons w items ih =>
    rw [depthOfItems]
    rcases List.mem_cons.1 h with rfl | h
    · exact Nat.le_max_left _ _
    · exact Nat.le_trans (ih h) (Nat.le_max_right _ _)

/-- The value of a member is not deeper than the deepest of all. -/
theorem depth_le_of_mem_members {m : String × Json} {members : List (String × Json)}
    (h : m ∈ members) : m.2.depth ≤ depthOfMembers members := by
  induction members with
  | nil => exact absurd h List.not_mem_nil
  | cons n members ih =>
    rw [depthOfMembers]
    rcases List.mem_cons.1 h with rfl | h
    · exact Nat.le_max_left _ _
    · exact Nat.le_trans (ih h) (Nat.le_max_right _ _)

/-- All numbers in the value are integers of 64 bits, with a sign or without. -/
inductive Integral : Json → Prop
  | null : Integral .null
  | bool (b : Bool) : Integral (.bool b)
  | number {n : Int} (low : -Int.pow 2 63 ≤ n) (high : n < Int.pow 2 64) :
      Integral (.number (.int n))
  | string (s : String) : Integral (.string s)
  | array {items : List Json} (h : ∀ v ∈ items, Integral v) : Integral (.array items)
  | object {members : List (String × Json)} (h : ∀ m ∈ members, Integral m.2) :
      Integral (.object members)

attribute [simp] Integral.null Integral.bool Integral.string

/-- A whole number is integral if it fits into 64 bits, with a sign or without one. -/
@[simp] theorem integral_int {n : Int} :
    (Json.number (.int n)).Integral ↔ -Int.pow 2 63 ≤ n ∧ n < Int.pow 2 64 :=
  ⟨fun | .number low high => ⟨low, high⟩, fun h => .number h.1 h.2⟩

/-- An array is integral if its items are. -/
@[simp] theorem integral_array {items : List Json} :
    (Json.array items).Integral ↔ ∀ v ∈ items, v.Integral :=
  ⟨fun | .array h => h, .array⟩

/-- An object is integral if the values of its members are. -/
@[simp] theorem integral_object {members : List (String × Json)} :
    (Json.object members).Integral ↔ ∀ m ∈ members, m.2.Integral :=
  ⟨fun | .object h => h, .object⟩

/-- Where all numbers are integers of 64 bits, the compact text of a value is read back, if values may
    nest as deep as this one does. -/
theorem Integral.legible {v : Json} (h : v.Integral) : v.Legible v.depth := by
  induction h with
  | null => exact legible_null _
  | bool b => exact legible_bool b _
  | number low high => exact legible_int low high _
  | string s => exact legible_string s _
  | array _ ih => exact legible_array fun v hv => (ih v hv).mono (depth_le_of_mem_items hv)
  | object _ ih => exact legible_object fun m hm => (ih m hm).mono (depth_le_of_mem_members hm)

end NetIntent.Json
