import NetIntent.Proofs.ContextReport

namespace NetIntent

/-!
# Nodes that are added to a context

The arguments of a new node are checked so that its key can be read back. The level of an
instruction is checked as a name only: with a word that is no level, the node is stored under the
key of three leaves, and found as the last of them.

* `RunContext.Addition`, `perform` — the ways to add a node below another one;
* `Op.Upserts` — an operation that stores one value if it is accepted, with one rule for each way to
  check before;
* `Addition.Proper`, `perform_upserts` — the arguments that are accepted;
* `Addition.readAs`, `readAs_cases` — the handle that is read from the key of the new node;
* `RunContext.additions_read_back` — a node is found as itself, unless it is such an instruction.
-/

/-! ### Operations that store one value -/

namespace Op

variable {α : Type} {op : Op α} {accepted accepted' : Prop} {key : String} {value : Json} {a : α}

/-- If it is accepted, the operation stores a value at a key, whatever there is, and has the result;
    else it fails before it does anything. -/
structure Upserts (op : Op α) (accepted : Prop) (key : String) (value : Json) (result : α) :
    Prop where
  stores : accepted → op = (putNode key value >>= fun _ => pure result)
  fails : ¬ accepted → ∃ e, op = throw e

/-- To store a value, and then to have a result, is the plain case. -/
theorem upserts_store (key : String) (value : Json) (a : α) :
    (putNode key value >>= fun _ => pure a : Op α).Upserts True key value a :=
  ⟨fun _ => rfl, fun hnot => absurd trivial hnot⟩

/-- To store a value is the case whose result says nothing. -/
theorem upserts_put (key : String) (value : Json) :
    (putNode key value).Upserts True key value () :=
  ⟨fun _ => (bind_pure_unit (m := Op)).symm, fun hnot => absurd trivial hnot⟩

/-- The condition for being accepted may be put in other words. -/
theorem Upserts.congr (h : op.Upserts accepted key value a) (hiff : accepted ↔ accepted') :
    op.Upserts accepted' key value a :=
  ⟨fun haccepted => h.stores (hiff.2 haccepted), fun hnot => h.fails (mt hiff.1 hnot)⟩

/-- A check comes before. -/
theorem Upserts.of_bind {r : Except Failure Unit} {next : Unit → Op α}
    (h : (next ()).Upserts accepted key value a) :
    (Op.of r >>= next).Upserts (r = .ok () ∧ accepted) key value a := by
  cases r with
  | error e => exact ⟨fun haccepted => absurd haccepted.1 nofun, fun _ => ⟨e, rfl⟩⟩
  | ok u => exact h.congr (and_iff_right rfl).symm

/-- A condition under which it is refused comes before. -/
theorem Upserts.guard (h : op.Upserts accepted key value a) (refused : Prop) [Decidable refused]
    (e : Failure) :
    (if refused then throw e else op).Upserts (¬ refused ∧ accepted) key value a := by
  by_cases hrefused : refused
  · rw [if_pos hrefused]
    exact ⟨fun haccepted => absurd hrefused haccepted.1, fun _ => ⟨e, rfl⟩⟩
  · rw [if_neg hrefused]
    exact h.congr (and_iff_right hrefused).symm

/-- Whatever the world, a value is stored, or the contexts are as before. -/
theorem putNode_stores (key : String) (value : Json) (w : World) :
    (putNode key value).Ensures w fun r w' =>
      (∃ e, r = .error e ∧ w'.contexts = w.contexts) ∨
        r = .ok () ∧ w'.contexts = w.contexts.insert key (.value value) := by
  unfold Ensures putNode onContexts run
  dsimp only
  split
  · -- a fault answers the call
    exact .inl ⟨_, rfl, rfl⟩
  · split
    · exact .inl ⟨_, rfl, rfl⟩
    · exact .inr ⟨rfl, rfl⟩

/-- Whatever the store answers, the operation stores its one value, or fails and changes no context.
    -/
theorem Upserts.ensures (h : op.Upserts accepted key value a) (w : World) :
    op.Ensures w fun r w' =>
      (∃ e, r = .error e ∧ w'.contexts = w.contexts) ∨
        accepted ∧ r = .ok a ∧ w'.contexts = w.contexts.insert key (.value value) := by
  by_cases haccepted : accepted
  · rw [h.stores haccepted]
    refine (putNode_stores key value w).bind ?_ ?_
    · intro u w' hout
      rcases hout with ⟨e, he, -⟩ | ⟨-, hcontexts⟩
      · cases he
      · exact ensures_pure (.inr ⟨haccepted, rfl, hcontexts⟩)
    · intro e w' hout
      rcases hout with ⟨e', -, hcontexts⟩ | ⟨he, -⟩
      · exact .inl ⟨e, rfl, hcontexts⟩
      · cases he
  · obtain ⟨e, he⟩ := h.fails haccepted
    rw [he]
    exact ensures_throw (.inl ⟨e, rfl, rfl⟩)

/-- While the stores answer, what is accepted succeeds. -/
theorem Upserts.run_eq (h : op.Upserts accepted key value a) (haccepted : accepted) {w : World}
    (hw : w.Undisturbed) :
    op.run w = (.ok a, w.withContexts (w.contexts.insert key (.value value))) := by
  rw [h.stores haccepted, run_bind_ok (run_onContexts hw _ _ _)]
  rfl

end Op

open Op

namespace RunContext

/-- A run context accepts just the handles of its own id. -/
theorem check_eq_ok_iff {c : RunContext} {h : Handle} :
    c.check h = .ok () ↔ c.id? = some h.contextId := by
  unfold check
  split <;> simp [*]

/-- A node to add below another one. -/
inductive Addition where
  /-- A named node of a level. -/
  | level (level name : String)
  /-- A node of one word. -/
  | word (word : String) (value : Json)
  /-- A resource. -/
  | resource (name : String) (value : Json)
  /-- An instruction of some kind for a level. -/
  | instruction (level kind : String) (value : Json)

namespace Addition

/-- Add the node. -/
def perform (c : RunContext) (h : Handle) : Addition → Op Handle
  | level l name => c.addLevel h l name
  | word w value => c.addOneLevel h w value
  | resource name value => c.addResource h name value
  | instruction l kind value => c.addInstruction h l kind value

/-- The step to the node. -/
def step : Addition → Segment
  | level l name => .level l name
  | word w _ => .leaf w
  | resource name _ => .level "resource" name
  | instruction l kind _ => .instruction l kind

/-- The value of the node. -/
def value : Addition → Json
  | level _ name => .string name
  | word _ value => value
  | resource _ value => value
  | instruction _ _ value => value

/-- The arguments are accepted. -/
def Proper : Addition → Prop
  | level l name => l ∈ namedLevels ∧ Handle.IsName name
  | word w value => Handle.IsName w ∧ w ∉ namedLevels ∧ value ≠ .null
  | resource name value => Handle.IsName name ∧ value ≠ .null
  | instruction l kind value => Handle.IsName l ∧ Handle.IsName kind ∧ value ≠ .null

/-- Arguments can be tested for being proper. -/
instance : DecidablePred Proper
  | level .. => inferInstanceAs (Decidable (_ ∧ _))
  | word .. => inferInstanceAs (Decidable (_ ∧ _))
  | resource .. => inferInstanceAs (Decidable (_ ∧ _))
  | instruction .. => inferInstanceAs (Decidable (_ ∧ _))

/-- If it is an instruction, its level is one of the named levels. -/
def OfLevel : Addition → Prop
  | instruction l _ _ => l ∈ namedLevels
  | _ => True

/-- An addition can be tested for whether its level is a named one. -/
instance : DecidablePred OfLevel
  | instruction .. => inferInstanceAs (Decidable (_ ∈ _))
  | level .. => inferInstanceAs (Decidable True)
  | word .. => inferInstanceAs (Decidable True)
  | resource .. => inferInstanceAs (Decidable True)

/-- The handle that is read from the key of the node: for an instruction of no named level, three
    leaves. -/
def readAs (h : Handle) : Addition → Handle
  | instruction l kind _ =>
    if l ∈ namedLevels then h.instruction l kind else ((h.leaf l).leaf instructionWord).leaf kind
  | a => h.push a.step

/-! ### What is accepted -/

variable {h : Handle} {a : Addition}

/-- A node of proper arguments is stored, and its handle is the result. -/
theorem perform_upserts (c : RunContext) (h : Handle) (a : Addition) :
    (a.perform c h).Upserts (c.id? = some h.contextId ∧ a.Proper) (h.push a.step).key a.value
      (h.push a.step) := by
  have hstore := upserts_store (h.push a.step).key a.value (h.push a.step)
  -- one rule for each check of the operation, from the last one back to that of the handle
  cases a with
  | level l name =>
    simp only [perform, addLevel, throw_bind]
    refine ((hstore.of_bind.guard _ _).of_bind).congr ?_
    simp [check_eq_ok_iff, Handle.validateName_eq_ok_iff, Proper]
  | word w value =>
    simp only [perform, addOneLevel, throw_bind]
    refine (((hstore.guard _ _).guard _ _).of_bind.of_bind).congr ?_
    simp [check_eq_ok_iff, Handle.validateName_eq_ok_iff, Proper]
  | resource name value =>
    simp only [perform, addResource, throw_bind]
    refine ((hstore.guard _ _).of_bind.of_bind).congr ?_
    simp [check_eq_ok_iff, Handle.validateName_eq_ok_iff, Proper]
  | instruction l kind value =>
    simp only [perform, addInstruction, throw_bind]
    refine ((hstore.guard _ _).of_bind.of_bind.of_bind).congr ?_
    simp [check_eq_ok_iff, Handle.validateName_eq_ok_iff, Proper]

/-! ### What is read of the key -/

/-- Two kinds of nodes: those that are read as themselves, and instructions of no named level. -/
theorem readAs_cases (h : Handle) (a : Addition) :
    a.OfLevel ∧ a.readAs h = h.push a.step ∨
      ∃ l kind value, a = .instruction l kind value ∧ l ∉ namedLevels ∧
        a.readAs h = ((h.leaf l).leaf instructionWord).leaf kind := by
  cases a with
  | instruction l kind value =>
    by_cases hl : l ∈ namedLevels
    · exact .inl ⟨hl, if_pos hl⟩
    · exact .inr ⟨l, kind, value, rfl, hl, if_neg hl⟩
  | level l name => exact .inl ⟨trivial, rfl⟩
  | word w value => exact .inl ⟨trivial, rfl⟩
  | resource name value => exact .inl ⟨trivial, rfl⟩

/-- Either way, the words of the key are the same. -/
theorem key_readAs (h : Handle) (a : Addition) : (a.readAs h).key = (h.push a.step).key := by
  have hwords : (a.readAs h).words = (h.push a.step).words := by
    rcases readAs_cases h a with ⟨-, hread⟩ | ⟨l, kind, value, rfl, -, hread⟩
    · rw [hread]
    · rw [hread]
      simp [Handle.leaf, Handle.words_push, Segment.words, step]
  rw [Handle.key, Handle.key, hwords]

/-- Just the instructions of no named level are read as something else. -/
theorem readAs_eq_iff (h : Handle) (a : Addition) : a.readAs h = h.push a.step ↔ a.OfLevel := by
  rcases readAs_cases h a with ⟨hlevel, hread⟩ | ⟨l, kind, value, rfl, hl, hread⟩
  · exact iff_of_true hread hlevel
  · -- three leaves are no instruction
    refine iff_of_false ?_ hl
    rw [hread]
    simp [Handle.leaf, Handle.push, step]

/-- It lies beneath the node to which the new one was added. -/
theorem isWithin_readAs (h : Handle) (a : Addition) : (a.readAs h).isWithin h = true := by
  rcases readAs_cases h a with ⟨-, hread⟩ | ⟨l, kind, value, -, -, hread⟩
  · rw [hread]
    exact Handle.isWithin_push h _
  · rw [hread]
    simp [Handle.isWithin, Handle.leaf, Handle.push, List.isPrefixOf_iff_prefix]

/-- The step of a proper addition can be written in a key and read back. -/
theorem sound_step (ha : a.Proper) (hlevel : a.OfLevel) : a.step.Sound := by
  cases a with
  | level l name => exact ha
  | word w value => exact ⟨ha.1.1, ha.1.2.1⟩
  | resource name value => exact ⟨by decide, ha.1⟩
  | instruction l kind value => exact ⟨hlevel, ha.2.1.1, ha.2.1.2.1⟩

/-- Under a parent that does not end in a bare leaf, what is read of a proper addition is canonical.
    -/
theorem canonical_readAs (hh : h.Canonical) (hend : ¬ h.EndsBare) (ha : a.Proper) :
    (a.readAs h).Canonical := by
  rcases readAs_cases h a with ⟨hlevel, hread⟩ | ⟨l, kind, value, rfl, hl, hread⟩
  · rw [hread]
    exact hh.push hend (sound_step ha hlevel)
  · obtain ⟨⟨hlne, hlword, -⟩, ⟨hkne, hkword, -⟩, -⟩ := ha
    have hlsound : (Segment.leaf l).Sound := ⟨hlne, hlword⟩
    have hksound : (Segment.leaf kind).Sound := ⟨hkne, hkword⟩
    -- Neither the word that is no level nor the reserved one is bare.
    have hlend : ¬ (h.leaf l).EndsBare := mt Handle.not_endsBare_push.1 hl
    have hmiddleEnd : ¬ ((h.leaf l).leaf instructionWord).EndsBare :=
      mt Handle.not_endsBare_push.1 (by decide)
    rw [hread]
    exact ((hh.push hend hlsound).push hlend (by decide)).push hmiddleEnd hksound

end Addition

/-- After a node was added: it holds its value, no other key changed, and the new key is read as
    some handle, with which it is found. -/
structure Added (a : Addition) (h : Handle) (s s' : ContextStore) : Prop where
  holds : s'.get? (h.push a.step).key = some (.value a.value)
  others : ∀ key, key ≠ (h.push a.step).key → s'.get? key = s.get? key
  parse : Handle.parse (h.push a.step).key = .ok (a.readAs h)
  /-- The key is read as the node itself, unless this is an instruction of no named level. -/
  parse_iff : Handle.parse (h.push a.step).key = .ok (h.push a.step) ↔ a.OfLevel
  /-- The nodes at the parent and beneath it can be listed, and the handle that is read of the new
      key is among them: the node itself, unless this is an instruction of no named level. -/
  listed : ∀ (w : World) (c : RunContext), w.Undisturbed → w.contexts = s' →
    c.id? = some h.contextId → ∃ handles, (c.handles h).run w = (.ok handles, w) ∧
      a.readAs h ∈ handles ∧ (h.push a.step ∈ handles ↔ a.OfLevel)

open Addition in
/-- A node of accepted arguments is added, once its key is in the store. -/
theorem added_insert {a : Addition} {h : Handle} {s : ContextStore} (hh : h.Canonical)
    (hend : ¬ h.EndsBare) (hs : s.LegibleIn h.contextId) (ha : a.Proper) :
    Added a h s (s.insert (h.push a.step).key (.value a.value)) := by
  have hread := canonical_readAs hh hend ha
  have hparse : Handle.parse (h.push a.step).key = .ok (a.readAs h) := by
    rw [← key_readAs, hread.parse_key]
  have hparse_iff : Handle.parse (h.push a.step).key = .ok (h.push a.step) ↔ a.OfLevel := by
    rw [hparse, Except.ok.injEq, readAs_eq_iff]
  refine ⟨by simp, ?_, hparse, hparse_iff, ?_⟩
  · intro key hkey
    rw [OrderedMap.get?_insert, if_neg hkey]
  · intro w c hw hcontexts hc
    -- the new key can be read, so that all keys beneath the parent still can
    have hlegible := hs.insert hparse (.value a.value)
    rw [← hcontexts] at hlegible
    obtain ⟨handles, hsub⟩ := hlegible.exists_subtree hh hend
    have hkey : (h.push a.step).key ∈ w.contexts.keys := by
      rw [hcontexts]
      exact OrderedMap.mem_keys_iff.2 ⟨.value a.value, by simp⟩
    refine ⟨handles, run_handles hw hc hsub, ?_, ?_⟩
    · exact (hsub.mem_iff _).2 ⟨⟨_, hkey, hparse⟩, isWithin_readAs h a⟩
    · rw [hsub.mem_iff, and_iff_left (Handle.isWithin_push h a.step), ContextStore.hasNode_iff,
        and_iff_right hkey, ← hparse_iff]
      exact ⟨fun hchild => hchild.parse_key, fun hchild => (Handle.canonical_of_parse hchild).1⟩

/-- **Added nodes are read back, except for instructions of no level.** Let the keys of a context be
    legible, and the parent be a canonical handle of it that does not end in a bare leaf. Whatever
    the arguments and the world, if a node cannot be added, the contexts are as before. If its
    handle is the result, the node holds the value, every other key keeps its value, and the key is
    read and listed as the node itself just if this is not an instruction of a word that is no
    level; such an instruction is read and listed as three leaves. And while the stores answer, a
    node is added just if its arguments are proper. -/
theorem additions_read_back {w : World} {c : RunContext} {h : Handle} (a : Addition)
    (hc : c.id? = some h.contextId) (hh : h.Canonical) (hend : ¬ h.EndsBare)
    (hs : w.contexts.LegibleIn h.contextId) :
    (a.perform c h).Ensures w (fun r w' =>
      (∀ e, r = .error e → w'.contexts = w.contexts) ∧
      ∀ child, r = .ok child → child = h.push a.step ∧ Added a h w.contexts w'.contexts) ∧
    (w.Undisturbed → ((∃ child, ((a.perform c h).run w).1 = .ok child) ↔ a.Proper)) := by
  have hupserts := a.perform_upserts c h
  constructor
  -- Whatever fails, the store is as it was, or it has the one value more.
  · refine (hupserts.ensures w).mono fun r w' hout => ?_
    rcases hout with ⟨e, rfl, hcontexts⟩ | ⟨⟨-, ha⟩, rfl, hcontexts⟩
    · exact ⟨fun _ _ => hcontexts, nofun⟩
    · refine ⟨nofun, fun child hchild => ⟨(Except.ok.inj hchild).symm, ?_⟩⟩
      rw [hcontexts]
      exact added_insert hh hend hs ha
  · intro hw
    constructor
    · intro hok
      obtain ⟨child, hchild⟩ := hok
      -- An addition that is not proper would have been refused.
      rcases hupserts.ensures w with ⟨e, he, -⟩ | ⟨⟨-, ha⟩, -⟩
      · rw [he] at hchild
        cases hchild
      · exact ha
    · intro ha
      exact ⟨_, congrArg Prod.fst (hupserts.run_eq ⟨hc, ha⟩ hw)⟩

/-- An app that is there already is added again: it keeps its status. -/
theorem additions_read_back_siblings :
    ((Addition.level "app" "net1").perform ⟨some "1"⟩ (Handle.root "1")).Ensures World.siblings
      (fun r w' => r = .ok ((Handle.root "1").child "app" "net1") ∧
        Added (.level "app" "net1") (Handle.root "1") World.siblings.contexts w'.contexts ∧
        w'.contexts.get? "/context/1/app/net1/status/" = some (.value .null)) := by
  have hs := World.siblings_legible.legibleIn "1"
  obtain ⟨-, hok⟩ := (additions_read_back (w := World.siblings) (c := ⟨some "1"⟩)
    (h := Handle.root "1") (.level "app" "net1") rfl (by decide) (by decide +kernel) hs).1
  have hadded := (hok ((Handle.root "1").child "app" "net1") (by decide)).2
  refine ⟨by decide, hadded, ?_⟩
  rw [hadded.others _ (by decide)]
  decide

/-- An instruction of a word that is no level is stored, but neither read nor listed as itself. -/
theorem instruction_not_read_back :
    let h := Handle.root "1"
    let out := (RunContext.addInstruction ⟨some "1"⟩ h "service" "order" (.string "x")).run
      World.siblings
    h.Canonical ∧ ¬ h.EndsBare ∧ World.siblings.contexts.LegibleIn "1" ∧
    out.1 = .ok (h.instruction "service" "order") ∧
    Handle.parse (h.instruction "service" "order").key
      = .ok (((h.leaf "service").leaf "instruction").leaf "order") ∧
    ∃ handles, (RunContext.handles ⟨some "1"⟩ h).run out.2 = (.ok handles, out.2) ∧
      h.instruction "service" "order" ∉ handles := by
  intro h out
  have hs := World.siblings_legible.legibleIn "1"
  have hadded := added_insert (a := .instruction "service" "order" (.string "x")) (h := h)
    (by decide) (by decide +kernel) hs (by decide +kernel)
  obtain ⟨handles, hrun, -, hlisted⟩ := hadded.listed out.2 ⟨some "1"⟩ ⟨rfl, rfl, rfl⟩ rfl rfl
  exact ⟨by decide, by decide +kernel, hs, rfl, by decide +kernel, handles, hrun,
    mt hlisted.1 (by decide)⟩

end RunContext

end NetIntent
