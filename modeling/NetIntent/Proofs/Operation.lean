import NetIntent.Proofs.Records
import NetIntent.World

namespace NetIntent

/-!
# What an operation ensures

Any call of a store may fail. What an operation ensures is therefore said of every outcome: of its
result, failure or not, and of the world it leaves.

* `World.Faithful` — calls fail without effect, and what is read is what is stored;
* `World.Quiet` — nothing changed, except that faults were used up;
* `Op.Ensures` — the outcome of an operation has a property, with one rule for each way to combine
  operations;
* `Op.Answers`, `Op.Reads` — the operation changes nothing, and its outcome, or only its result,
  agrees with the world;
* `Op.Atomic` — the operation changes the documents once, as its last step, or nothing at all;
* `Op.Puts` — the operation stores a list of nodes, one after the other, up to its failure.
-/

/-- No fault answers in the place of a store: a call has its effect, or fails without one. -/
def World.Faithful (w : World) : Prop := ∀ f ∈ w.faults, f.effect = .fail

/-- The second world is the first one, except that faults may have been used up. -/
def World.Quiet (w w' : World) : Prop :=
  ∃ faults : Faults, (∀ f ∈ faults, f.effect = .fail) ∧ w' = { w with faults := faults }

/-- The world without its faults: what can be read of it. -/
def World.calm (w : World) : World := { w with faults := [] }

namespace World

/-- The world with other contexts. -/
def withContexts (w : World) (s : ContextStore) : World := { w with contexts := s }

/-- The world with other documents. -/
def withDocuments (w : World) (d : DocumentStore) : World := { w with documents := d }

/-- Other contexts are put in the place of the stored ones. -/
@[simp] theorem withContexts_contexts (w : World) (s : ContextStore) :
    (w.withContexts s).contexts = s := rfl

/-- With other contexts the documents are the same. -/
@[simp] theorem withContexts_documents (w : World) (s : ContextStore) :
    (w.withContexts s).documents = w.documents := rfl

/-- Other documents are put in the place of the stored ones. -/
@[simp] theorem withDocuments_documents (w : World) (d : DocumentStore) :
    (w.withDocuments d).documents = d := rfl

/-- The world after a context id was taken. -/
def minting (w : World) : World := { w with minted := w.minted + 1 }

/-- Taking an id leaves the contexts alone. -/
@[simp] theorem minting_contexts (w : World) : w.minting.contexts = w.contexts := rfl

/-- Taking an id leaves the documents alone. -/
@[simp] theorem minting_documents (w : World) : w.minting.documents = w.documents := rfl

/-- Taking an id takes no time. -/
@[simp] theorem minting_now (w : World) : w.minting.now = w.now := rfl

variable {w w' w'' : World}

/-- A world whose faults only fail calls is quietly itself. -/
theorem Faithful.quiet (h : w.Faithful) : w.Quiet w := ⟨w.faults, h, rfl⟩

/-- After a quiet step the faults still only fail calls. -/
theorem Quiet.faithful (h : w.Quiet w') : w'.Faithful := by
  obtain ⟨faults, hf, rfl⟩ := h
  exact hf

/-- Quiet steps follow one another. -/
theorem Quiet.trans (h : w.Quiet w') (h' : w'.Quiet w'') : w.Quiet w'' := by
  obtain ⟨faults, hf, rfl⟩ := h
  obtain ⟨faults', hf', rfl⟩ := h'
  exact ⟨faults', hf', rfl⟩

/-- What can be read of a world is the same after a quiet step. -/
theorem Quiet.calm (h : w.Quiet w') : w'.calm = w.calm := by
  obtain ⟨faults, -, rfl⟩ := h
  rfl

/-- A world has its contexts without the faults, too. -/
@[simp] theorem calm_contexts (w : World) : w.calm.contexts = w.contexts := rfl

/-- A world has its documents without the faults, too. -/
@[simp] theorem calm_documents (w : World) : w.calm.documents = w.documents := rfl

/-- It is the same time without the faults. -/
@[simp] theorem calm_now (w : World) : w.calm.now = w.now := rfl

/-- A quiet step changes no document. -/
theorem Quiet.documents (h : w.Quiet w') : w'.documents = w.documents := by
  obtain ⟨faults, -, rfl⟩ := h
  rfl

/-- No time passes on the clock in a quiet step. -/
theorem Quiet.now (h : w.Quiet w') : w'.now = w.now := by
  obtain ⟨faults, -, rfl⟩ := h
  rfl

/-- A quiet step changes no context. -/
theorem Quiet.contexts (h : w.Quiet w') : w'.contexts = w.contexts := by
  obtain ⟨faults, -, rfl⟩ := h
  rfl

/-- What a quiet step does not change may be changed before it or after it. -/
theorem Quiet.withContexts (h : w.Quiet w') (s : ContextStore) :
    (w.withContexts s).Quiet (w'.withContexts s) := by
  obtain ⟨faults, hf, rfl⟩ := h
  exact ⟨faults, hf, rfl⟩

/-- A quiet step stays one if an id is taken before it and after it. -/
theorem Quiet.minting (h : w.Quiet w') : w.minting.Quiet w'.minting := by
  obtain ⟨faults, hf, rfl⟩ := h
  exact ⟨faults, hf, rfl⟩

/-- The next id is the same after a quiet step. -/
theorem Quiet.nextId (h : w.Quiet w') :
    w'.contextId w'.minted = w.contextId w.minted := by
  obtain ⟨faults, -, rfl⟩ := h
  rfl

/-- As with contexts, other documents may be stored before a quiet step or after it. -/
theorem Quiet.withDocuments (h : w.Quiet w') (d : DocumentStore) :
    (w.withDocuments d).Quiet (w'.withDocuments d) := by
  obtain ⟨faults, hf, rfl⟩ := h
  exact ⟨faults, hf, rfl⟩

end World

/-- What operations are about: the two stores, and the supply of context ids. -/
structure Stores where
  documents : DocumentStore
  contexts : ContextStore
  contextId : Nat → String
  minted : Nat

/-- The context id that is taken next. -/
def Stores.nextId (s : Stores) : String := s.contextId s.minted

/-- The stores of a world. -/
def World.stores (w : World) : Stores := ⟨w.documents, w.contexts, w.contextId, w.minted⟩

/-- The documents are those of the world. -/
@[simp] theorem World.stores_documents (w : World) : w.stores.documents = w.documents := rfl

/-- The contexts are those of the world. -/
@[simp] theorem World.stores_contexts (w : World) : w.stores.contexts = w.contexts := rfl

/-- As many ids were taken as in the world. -/
@[simp] theorem World.stores_minted (w : World) : w.stores.minted = w.minted := rfl

/-- The next id is that of the world. -/
@[simp] theorem World.stores_nextId (w : World) : w.stores.nextId = w.contextId w.minted := rfl

/-- With other contexts the stores are the same but for these. -/
@[simp] theorem World.stores_withContexts (w : World) (s : ContextStore) :
    (w.withContexts s).stores = { w.stores with contexts := s } := rfl

/-- With other documents the stores are the same but for these. -/
@[simp] theorem World.stores_withDocuments (w : World) (d : DocumentStore) :
    (w.withDocuments d).stores = { w.stores with documents := d } := rfl

/-- When an id is taken only the number of them changes. -/
@[simp] theorem World.stores_minting (w : World) :
    w.minting.stores = { w.stores with minted := w.minted + 1 } := rfl

/-- A quiet step leaves the stores as they are. -/
theorem World.Quiet.stores {w w' : World} (h : w.Quiet w') : w'.stores = w.stores := by
  obtain ⟨faults, -, rfl⟩ := h
  rfl

/-- The failure is that of a call of a store. -/
def Failure.OfStore (e : Failure) : Prop := ∃ method details, e = .store method details

/-- A list of faults that only fail calls stays one, and answers no call otherwise. -/
theorem Faults.consult_of_fail (call : StoreCall) {faults : Faults}
    (h : ∀ f ∈ faults, f.effect = .fail) :
    ((faults.consult call).1 = none ∨ (faults.consult call).1 = some .fail) ∧
      ∀ f ∈ (faults.consult call).2, f.effect = .fail := by
  induction faults with
  | nil => exact ⟨.inl rfl, by simp [consult]⟩
  | cons f rest ih =>
    obtain ⟨hf, hrest⟩ := List.forall_mem_cons.1 h
    obtain ⟨heffect, hafter⟩ := ih hrest
    unfold consult
    split
    · split
      · -- the fault answers the call
        exact ⟨.inr (congrArg some hf), List.forall_mem_cons.2 ⟨hf, hrest⟩⟩
      · -- it lets the call pass
        exact ⟨heffect, List.forall_mem_cons.2 ⟨hf, hafter⟩⟩
    · exact ⟨heffect, List.forall_mem_cons.2 ⟨hf, hafter⟩⟩

namespace Op

variable {α β : Type} {w : World}

/-- The outcome of an operation in a world has a property. -/
def Ensures (op : Op α) (w : World) (post : Except Failure α → World → Prop) : Prop :=
  post (op.run w).1 (op.run w).2

/-! ### Rules -/

/-- Nothing comes after a failure. -/
@[simp] theorem throw_bind (e : Failure) (next : α → Op β) : (throw e >>= next : Op β) = throw e :=
  rfl

/-- An outcome that is a result is passed on to the next operation. -/
@[simp] theorem of_ok_bind (a : α) (next : α → Op β) : (Op.of (.ok a) >>= next : Op β) = next a :=
  rfl

/-- An operation that is refused under some condition comes after the check of it. -/
theorem guard_bind (refused : Prop) [Decidable refused] (e : Failure) (next : Unit → Op β) :
    ((if refused then throw e else pure () : Op Unit) >>= next)
      = if refused then throw e else next () := by
  split <;> rfl

section Rules

variable {op : Op α} {next : α → Op β} {post post' mid : Except Failure α → World → Prop}
  {final : Except Failure β → World → Prop}

/-- What is ensured may be weakened. -/
theorem Ensures.mono (h : op.Ensures w post) (himp : ∀ r w', post r w' → post' r w') :
    op.Ensures w post' :=
  himp _ _ h

/-- A result is ensured to be what it is. -/
theorem ensures_pure {a : α} (h : post (.ok a) w) : (pure a : Op α).Ensures w post := h

/-- A failure is ensured to be what it is. -/
theorem ensures_throw {e : Failure} (h : post (.error e) w) : (throw e : Op α).Ensures w post := h

/-- An outcome that is known is ensured to be what it is. -/
theorem ensures_of {r : Except Failure α} (h : post r w) : (Op.of r).Ensures w post := h

/-- After an operation comes the next one, unless it failed. -/
theorem Ensures.bind (h : op.Ensures w mid)
    (hok : ∀ a w', mid (.ok a) w' → (next a).Ensures w' final)
    (herror : ∀ e w', mid (.error e) w' → final (.error e) w') :
    (op >>= next).Ensures w final := by
  unfold Ensures at h ⊢
  rw [run_bind]
  generalize op.run w = out at h
  obtain ⟨r, w'⟩ := out
  cases r with
  | error e => exact herror e w' h
  | ok a => exact hok a w' h

/-- The time is that of the world. -/
theorem ensures_now {next : Timestamp → Op β} (h : (next w.now).Ensures w final) :
    (Op.now >>= next).Ensures w final := h

/-- Taking an id gives the next one of the supply. -/
@[simp] theorem run_mintId : mintId.run w = (.ok (w.contextId w.minted), w.minting) := rfl

/-- After an attempt comes the next operation, whatever the outcome. -/
theorem Ensures.attempt_bind {next : Except Failure α → Op β} (h : op.Ensures w mid)
    (hnext : ∀ r w', mid r w' → (next r).Ensures w' final) :
    (op.attempt >>= next).Ensures w final := by
  unfold Ensures at h ⊢
  rw [run_bind, run_attempt]
  exact hnext _ _ h

end Rules

/-! ### Operations that change nothing -/

/-- The operation changes nothing, and its outcome agrees with the world. -/
def Answers (op : Op α) (agrees : World → Except Failure α → Prop) : Prop :=
  ∀ w, w.Faithful → op.Ensures w fun r w' => w.Quiet w' ∧ agrees w.calm r

/-- The operation changes nothing, and a result of it agrees with the world. -/
def Reads (op : Op α) (agrees : World → α → Prop) : Prop :=
  op.Answers fun w r => ∀ a, r = .ok a → agrees w a

section Reads

variable {op : Op α} {next : α → Op β} {P Q : World → α → Prop} {R : α → World → β → Prop}

/-- What is read may be said with less. -/
theorem Reads.mono (h : op.Reads P) (himp : ∀ w a, P w a → Q w a) : op.Reads Q :=
  fun w hw => (h w hw).mono fun _ _ hr => ⟨hr.1, fun a ha => himp _ a (hr.2 a ha)⟩

/-- A result that agrees with every world is read. -/
theorem reads_pure {a : α} (h : ∀ w, P w a) : (pure a : Op α).Reads P :=
  fun _ hw => ensures_pure ⟨hw.quiet, fun _ hb => Except.ok.inj hb ▸ h _⟩

/-- A failure reads nothing, so anything is true of its result. -/
theorem reads_throw (e : Failure) : (throw e : Op α).Reads P :=
  fun _ hw => ensures_throw ⟨hw.quiet, fun _ h => by cases h⟩

/-- An outcome that is known is read from nowhere. -/
theorem reads_of (r : Except Failure α) : (Op.of r).Reads fun _ a => r = .ok a :=
  fun _ hw => ensures_of ⟨hw.quiet, fun _ h => h⟩

/-- Of two operations that read, the second may use what the first one read. -/
theorem Reads.bind (h : op.Reads P) (hnext : ∀ a, (next a).Reads (R a)) :
    (op >>= next).Reads fun w b => ∃ a, P w a ∧ R a w b := by
  intro w hw
  refine (h w hw).bind ?_ fun e w' he => ⟨he.1, fun _ h => by cases h⟩
  intro a w' hout
  obtain ⟨hquiet, ha⟩ := hout
  refine (hnext a w' hquiet.faithful).mono ?_
  intro r w'' hout
  obtain ⟨hquiet', hb⟩ := hout
  refine ⟨hquiet.trans hquiet', fun b hr => ⟨a, ha a rfl, ?_⟩⟩
  -- Nothing changed in between, so that both read the same.
  rw [← hquiet.calm]
  exact hb b hr

/-- What was read first may be used for what is read next. -/
theorem Reads.step {Q : World → β → Prop} (h : op.Reads P)
    (hnext : ∀ a, (next a).Reads fun w b => P w a → Q w b) : (op >>= next).Reads Q :=
  (h.bind hnext).mono fun _ _ ⟨_, ha, hb⟩ => hb ha

/-- An attempt to read succeeds, with the outcome as its result. -/
theorem Answers.attempt {agrees : World → Except Failure α → Prop} (h : op.Answers agrees) :
    op.attempt.Reads agrees := by
  intro w hw
  obtain ⟨hquiet, hr⟩ := h w hw
  refine ⟨hquiet, fun r hr' => ?_⟩
  rw [← Except.ok.inj hr']
  exact hr

end Reads

/-- The operation changes nothing, whatever it reads. -/
def ReadOnly (op : Op α) : Prop := op.Reads fun _ _ => True

section ReadOnly

variable {op : Op α} {next : α → Op β}

/-- An operation whose outcome agrees with the world changes nothing. -/
theorem Answers.readOnly {agrees : World → Except Failure α → Prop} (h : op.Answers agrees) :
    op.ReadOnly :=
  fun w hw => (h w hw).mono fun _ _ hr => ⟨hr.1, fun _ _ => trivial⟩

/-- A result changes nothing. -/
theorem readOnly_pure (a : α) : (pure a : Op α).ReadOnly := reads_pure fun _ => trivial

/-- A failure changes nothing. -/
theorem readOnly_throw (e : Failure) : (throw e : Op α).ReadOnly := reads_throw e

/-- An outcome that is known changes nothing. -/
theorem readOnly_of (r : Except Failure α) : (Op.of r).ReadOnly := (reads_of r).readOnly

/-- Two operations that change nothing make one that does not. -/
theorem ReadOnly.bind (h : op.ReadOnly) (hnext : ∀ a, (next a).ReadOnly) :
    (op >>= next).ReadOnly :=
  (Reads.bind h hnext).mono fun _ _ _ => trivial

/-- An attempt of an operation changes nothing if that does not. -/
theorem ReadOnly.attempt (h : op.ReadOnly) : op.attempt.ReadOnly := by
  have hanswers : op.Answers fun _ r => ∀ a, r = .ok a → True := h
  exact hanswers.attempt.readOnly

end ReadOnly

/-! ### Operations that change the documents once -/

/-- The operation fails and changes nothing, or it succeeds and changes the documents as said. -/
def Atomic (op : Op α) (change : World → DocumentStore → Prop) : Prop :=
  ∀ w, w.Faithful → op.Ensures w fun r w' =>
    (∃ e, r = .error e ∧ w.Quiet w') ∨
      ∃ a d, r = .ok a ∧ change w.calm d ∧ (w.withDocuments d).Quiet w'

section Atomic

variable {op : Op α} {next : α → Op β} {P : World → α → Prop}
  {change change' : World → DocumentStore → Prop} {changes : α → World → DocumentStore → Prop}

/-- What is said of the change may be weakened. -/
theorem Atomic.mono (h : op.Atomic change) (himp : ∀ w d, change w d → change' w d) :
    op.Atomic change' := by
  refine fun w hw => (h w hw).mono fun r w' hr => hr.imp_right ?_
  rintro ⟨a, d, ha, hchange, hquiet⟩
  exact ⟨a, d, ha, himp _ d hchange, hquiet⟩

/-- A failure makes no change. -/
theorem atomic_throw (e : Failure) : (throw e : Op α).Atomic change :=
  fun _ hw => ensures_throw (.inl ⟨e, rfl, hw.quiet⟩)

/-- A change after something that only reads. -/
theorem Reads.bind_atomic (h : op.Reads P) (hnext : ∀ a, (next a).Atomic (changes a)) :
    (op >>= next).Atomic fun w d => ∃ a, P w a ∧ changes a w d := by
  intro w hw
  refine (h w hw).bind ?_ fun e w' he => .inl ⟨e, rfl, he.1⟩
  intro a w' hout
  obtain ⟨hquiet, ha⟩ := hout
  refine (hnext a w' hquiet.faithful).mono ?_
  intro r w'' hout
  rcases hout with ⟨e, rfl, hquiet'⟩ | ⟨b, d, rfl, hchange, hquiet'⟩
  · exact .inl ⟨e, rfl, hquiet.trans hquiet'⟩
  · refine .inr ⟨b, d, rfl, ⟨a, ha a rfl, ?_⟩, (hquiet.withDocuments d).trans hquiet'⟩
    rw [← hquiet.calm]
    exact hchange

/-- A change before a result that is known. -/
theorem Atomic.bind_pure (h : op.Atomic change) (b : β) :
    (op >>= fun _ => pure b : Op β).Atomic change := by
  intro w hw
  refine (h w hw).bind ?_ ?_
  · intro a w' hout
    rcases hout with ⟨e, he, -⟩ | ⟨a', d, -, hchange, hquiet⟩
    · cases he
    · exact ensures_pure (.inr ⟨b, d, rfl, hchange, hquiet⟩)
  · intro e w' hout
    rcases hout with ⟨e', -, hquiet⟩ | ⟨a', d, he, -⟩
    · exact .inl ⟨e, rfl, hquiet⟩
    · cases he

end Atomic

/-! ### Calls of the stores -/

/-- A call of the context store fails as such, without effect, or has its effect. -/
theorem onContexts_ensures {call : StoreCall} {instead : FaultEffect → Option α}
    (hinstead : instead .fail = none)
    (effect : ContextStore → Except Failure α × ContextStore) (hw : w.Faithful) :
    (onContexts call instead effect).Ensures w fun r w' =>
      (∃ e, r = .error e ∧ e.OfStore ∧ w.Quiet w') ∨
        (r = (effect w.contexts).1 ∧ (w.withContexts (effect w.contexts).2).Quiet w') := by
  obtain ⟨hfault, hafter⟩ := Faults.consult_of_fail call hw
  unfold Ensures run onContexts
  rcases hfault with hnone | hfail
  · simp only [hnone]
    split
    · -- the store is closed
      exact .inl ⟨_, rfl, ⟨_, _, rfl⟩, _, hafter, rfl⟩
    · exact .inr ⟨rfl, _, hafter, rfl⟩
  · simp only [hfail, hinstead, Option.elim_none]
    exact .inl ⟨_, rfl, ⟨_, _, rfl⟩, _, hafter, rfl⟩

/-- A call of the document store whose key is one fails as such, without effect, or has its
    effect. -/
theorem onDocuments_ensures {call : StoreCall} {instead : FaultEffect → Option α}
    (hinstead : instead .fail = none) (effect : DocumentStore → α × DocumentStore)
    (hw : w.Faithful) :
    (onDocuments call instead (.ok effect)).Ensures w fun r w' =>
      (∃ e, r = .error e ∧ e.OfStore ∧ w.Quiet w') ∨
        (r = .ok (effect w.documents).1 ∧
          (w.withDocuments (effect w.documents).2).Quiet w') := by
  obtain ⟨hfault, hafter⟩ := Faults.consult_of_fail call hw
  unfold Ensures run onDocuments
  rcases hfault with hnone | hfail
  · simp only [hnone]
    split
    · exact .inl ⟨_, rfl, ⟨_, _, rfl⟩, _, hafter, rfl⟩
    · exact .inr ⟨rfl, _, hafter, rfl⟩
  · simp only [hfail, hinstead, Option.elim_none]
    exact .inl ⟨_, rfl, ⟨_, _, rfl⟩, _, hafter, rfl⟩

/-- A key that is one is understood as such by every call of the document store. -/
theorem onKey_toJson (key : DocumentKey)
    (effect : DocumentKey → DocumentStore → α × DocumentStore) :
    onKey key.toJson effect = .ok (effect key) := by
  rw [onKey, DocumentKey.ofJson_toJson]
  rfl

/-- What is read at a key is what is stored there; and reading fails only as the store does, or
    because what is stored is no value. -/
theorem getNode_outcome (key : String) :
    (getNode key).Answers fun w r =>
      (∀ v, r = .ok v → w.contexts.get? key = v.map Cell.value) ∧
        ∀ e, r = .error e → e.OfStore ∨ e = malformed key ∧ w.contexts.get? key = some .unreadable := by
  intro w hw
  refine (onContexts_ensures rfl _ hw).mono fun r w' h => ?_
  rcases h with ⟨e, rfl, hstore, hquiet⟩ | ⟨hr, hquiet⟩
  · exact ⟨hquiet, nofun, fun e' he => .inl (Except.error.inj he ▸ hstore)⟩
  · split at hr
    · -- nothing is stored at the key
      rename_i hnone
      rw [hnone] at hquiet
      refine ⟨hquiet, fun a ha => ?_, fun _ h => by cases hr.symm.trans h⟩
      rw [← Except.ok.inj (hr.symm.trans ha)]
      exact hnone
    · rename_i v hv
      rw [hv] at hquiet
      refine ⟨hquiet, fun a ha => ?_, fun _ h => by cases hr.symm.trans h⟩
      rw [← Except.ok.inj (hr.symm.trans ha)]
      exact hv
    · -- what is stored is no value
      rename_i hunreadable
      rw [hunreadable] at hquiet
      have hfailed : r = .error (malformed key) := hr
      rw [hfailed]
      exact ⟨hquiet, nofun, fun e he => .inr ⟨(Except.error.inj he).symm, hunreadable⟩⟩

/-- A node is read as it is stored, or not at all. -/
theorem getNode_reads (key : String) :
    (getNode key).Reads fun w v => w.contexts.get? key = v.map Cell.value :=
  fun w hw => (getNode_outcome key w hw).mono fun _ _ h => ⟨h.1, h.2.1⟩

/-- The keys are those of a scan. -/
theorem nodeKeys_reads (piece : String) :
    (nodeKeys piece).Reads fun w keys => keys = (w.contexts.scan piece).map (·.1) := by
  intro w hw
  refine (onContexts_ensures rfl _ hw).mono fun r w' h => ?_
  rcases h with ⟨e, rfl, -, hquiet⟩ | ⟨rfl, hquiet⟩
  · exact ⟨hquiet, fun _ h => by cases h⟩
  · exact ⟨hquiet, fun _ h => (Except.ok.inj h).symm⟩

/-- The values that are found are those of the stored documents that the pattern covers. -/
theorem findDocuments_reads (store : String) (pattern : DocumentKey) (tag : String) :
    (findDocuments store pattern.toJson tag).Reads fun w values =>
      values = w.documents.find store pattern tag := by
  intro w hw
  unfold findDocuments
  rw [onKey_toJson]
  refine (onDocuments_ensures rfl _ hw).mono fun r w' h => ?_
  rcases h with ⟨e, rfl, -, hquiet⟩ | ⟨rfl, hquiet⟩
  · exact ⟨hquiet, fun _ h => by cases h⟩
  · exact ⟨hquiet, fun _ h => (Except.ok.inj h).symm⟩

/-- Inserting stores the one value at once, or nothing. -/
theorem insertDocument_atomic (store : String) (key : DocumentKey) (tag : String) (value : Json) :
    (insertDocument store key.toJson tag value).Atomic fun w d =>
      d = w.documents.insert store key tag value := by
  intro w hw
  unfold insertDocument
  rw [onKey_toJson]
  refine (onDocuments_ensures rfl _ hw).mono fun r w' h => ?_
  rcases h with ⟨e, rfl, -, hquiet⟩ | ⟨rfl, hquiet⟩
  · exact .inl ⟨e, rfl, hquiet⟩
  · exact .inr ⟨_, _, rfl, rfl, hquiet⟩

/-- Removing takes the one document at once, or nothing. -/
theorem removeDocument_atomic (store : String) (key : DocumentKey) :
    (removeDocument store key.toJson).Atomic fun w d => d = w.documents.remove store key := by
  intro w hw
  unfold removeDocument
  rw [onKey_toJson]
  refine (onDocuments_ensures rfl _ hw).mono fun r w' h => ?_
  rcases h with ⟨e, rfl, -, hquiet⟩ | ⟨rfl, hquiet⟩
  · exact .inl ⟨e, rfl, hquiet⟩
  · exact .inr ⟨_, _, rfl, rfl, hquiet⟩

/-- To look whether there is a synchronizer changes nothing. -/
theorem requireSynchronizer_readOnly : requireSynchronizer.ReadOnly := by
  intro w hw
  cases hs : w.synchronizer with
  | none =>
    have hrun : requireSynchronizer.run w
        = (.error (.rsyncUnavailable Synchronizer.serviceName), w) := by
      simp [requireSynchronizer, run, hs]
    rw [Ensures, hrun]
    exact ⟨hw.quiet, fun _ h => by cases h⟩
  | some s =>
    have hrun : requireSynchronizer.run w = (.ok (), w) := by
      simp [requireSynchronizer, run, hs]
    rw [Ensures, hrun]
    exact ⟨hw.quiet, fun _ _ => trivial⟩

/-- A request is one of the synchronizer that is there. -/
theorem run_ask {s : Synchronizer} (hs : w.synchronizer = some s) (request : Request) (id : String)
    (cancellation : Cancellation) :
    (ask request id cancellation).run w
      = ((s.ask request id w.limitMs w.elapsedMs cancellation).1, { w with
          synchronizer := some (s.ask request id w.limitMs w.elapsedMs cancellation).2.2,
          elapsedMs := (s.ask request id w.limitMs w.elapsedMs cancellation).2.1 }) := by
  simp [ask, run, hs]

/-- Without a synchronizer every request is refused. -/
theorem run_ask_of_none (hs : w.synchronizer = none) (request : Request) (id : String)
    (cancellation : Cancellation) :
    (ask request id cancellation).run w
      = (.error (.rsyncUnavailable Synchronizer.serviceName), w) := by
  simp [ask, run, hs]

/-- A request leaves the stores alone, whatever the answer. -/
theorem ask_ensures (request : Request) (id : String) (cancellation : Cancellation) :
    (ask request id cancellation).Ensures w fun _ w' =>
      w'.stores = w.stores ∧ w'.faults = w.faults ∧ w'.now = w.now := by
  cases hs : w.synchronizer with
  | none =>
    rw [Ensures, run_ask_of_none hs]
    exact ⟨rfl, rfl, rfl⟩
  | some s =>
    rw [Ensures, run_ask hs]
    exact ⟨rfl, rfl, rfl⟩

/-- Storing a node stores it, or fails and changes nothing. -/
theorem putNode_ensures (key : String) (value : Json) (hw : w.Faithful) :
    (putNode key value).Ensures w fun r w' =>
      (∃ e, r = .error e ∧ e.OfStore ∧ w.Quiet w') ∨
        (r = .ok () ∧ (w.withContexts (w.contexts.insert key (.value value))).Quiet w') :=
  onContexts_ensures rfl _ hw

/-- Removing nodes removes all of them, or fails and changes nothing. -/
theorem deleteNodes_ensures (piece : String) (hw : w.Faithful) :
    (deleteNodes piece).Ensures w fun r w' =>
      (∃ e, r = .error e ∧ e.OfStore ∧ w.Quiet w') ∨
        (r = .ok (w.contexts.scan piece).length ∧
          (w.withContexts (w.contexts.eraseScan piece)).Quiet w') :=
  onContexts_ensures rfl _ hw

end Op

/-! ### Storing nodes one after the other -/

/-- The store with nodes stored one after the other. -/
def ContextStore.withNodes (s : ContextStore) (nodes : List (Handle × Json)) : ContextStore :=
  s.insertAll (nodes.map fun n => (n.1.key, .value n.2))

/-- Nodes may be stored in two goes. -/
theorem ContextStore.withNodes_append (s : ContextStore) (nodes more : List (Handle × Json)) :
    s.withNodes (nodes ++ more) = (s.withNodes nodes).withNodes more := by
  rw [withNodes, List.map_append, OrderedMap.insertAll_append]
  rfl

namespace Op

variable {α β : Type}

/-- The operation stores nodes one after the other up to its failure. If it has a result, that is
    the given one, all nodes are stored, and the checks were passed. -/
def Puts (op : Op α) (nodes : List (Handle × Json)) (result : α) (checks : Prop) : Prop :=
  ∀ w, w.Faithful → op.Ensures w fun r w' => ∃ n,
    (w.withContexts (w.contexts.withNodes (nodes.take n))).Quiet w' ∧
      ∀ a, r = .ok a → a = result ∧ nodes.length ≤ n ∧ checks

section Puts

variable {op : Op α} {next : α → Op β} {nodes more : List (Handle × Json)} {a : α} {b : β}
  {checks checks' : Prop}

/-- What was checked by then may be said with less. -/
theorem Puts.mono (h : op.Puts nodes a checks) (himp : checks → checks') :
    op.Puts nodes a checks' :=
  fun w hw => (h w hw).mono fun _ _ ⟨n, hquiet, hok⟩ =>
    ⟨n, hquiet, fun a ha => ⟨(hok a ha).1, (hok a ha).2.1, himp (hok a ha).2.2⟩⟩

/-- A result stores no node. -/
theorem puts_pure (a : α) : (pure a : Op α).Puts [] a True :=
  fun w hw => ensures_pure ⟨0, hw.quiet, fun _ h => ⟨(Except.ok.inj h).symm, by simp, trivial⟩⟩

/-- An operation that reads, with a result known in advance. -/
theorem Reads.puts (h : op.Reads fun _ b => b = a ∧ checks) : op.Puts [] a checks := by
  intro w hw
  refine (h w hw).mono fun r w' ⟨hquiet, hok⟩ => ⟨0, hquiet, fun b hb => ?_⟩
  exact ⟨(hok b hb).1, by simp, (hok b hb).2⟩

/-- Storing a node is one of the nodes to store. -/
theorem putNode_puts (h : Handle) (value : Json) :
    (putNode h.key value).Puts [(h, value)] () True := by
  intro w hw
  refine (putNode_ensures h.key value hw).mono fun r w' hr => ?_
  rcases hr with ⟨e, rfl, -, hquiet⟩ | ⟨rfl, hquiet⟩
  · exact ⟨0, hquiet, fun _ h => by cases h⟩
  · exact ⟨1, hquiet, fun _ _ => ⟨rfl, by simp, trivial⟩⟩

/-- The nodes of two operations are stored one after the other. -/
theorem Puts.bind (h : op.Puts nodes a checks) (hnext : (next a).Puts more b checks') :
    (op >>= next).Puts (nodes ++ more) b (checks ∧ checks') := by
  intro w hw
  refine (h w hw).bind ?_ ?_
  · intro a' w' hout
    obtain ⟨n, hquiet, hok⟩ := hout
    obtain ⟨rfl, hlen, hchecks⟩ := hok a' rfl
    -- The first operation stored all of its nodes, and the second one goes on after them.
    rw [List.take_of_length_le hlen] at hquiet
    refine (hnext w' hquiet.faithful).mono ?_
    intro r w'' hout
    obtain ⟨m, hquiet', hok'⟩ := hout
    refine ⟨nodes.length + m, ?_, fun b' hb => ?_⟩
    · rw [List.take_length_add_append, ContextStore.withNodes_append]
      have hcontexts : w'.contexts = w.contexts.withNodes nodes := hquiet.contexts
      rw [hcontexts] at hquiet'
      exact (hquiet.withContexts _).trans hquiet'
    · obtain ⟨hb, hlen', hchecks'⟩ := hok' b' hb
      exact ⟨hb, by rw [List.length_append]; omega, hchecks, hchecks'⟩
  · -- the first operation failed, and its part of the list is all that there is
    intro e w' hout
    obtain ⟨n, hquiet, -⟩ := hout
    refine ⟨min n nodes.length, ?_, fun _ h => by cases h⟩
    rw [List.take_append_of_le_length (Nat.min_le_right _ _)]
    by_cases hn : n ≤ nodes.length
    · rwa [Nat.min_eq_left hn]
    · have hall : nodes.take n = nodes := List.take_of_length_le (by omega)
      rw [hall] at hquiet
      rwa [Nat.min_eq_right (by omega), List.take_length]

/-- The same for a list of nodes that is put together from both. What the first operation checks may
    be used for the second one. -/
theorem Puts.step {all : List (Handle × Json)} (h : op.Puts nodes a checks)
    (hall : all = nodes ++ more) (hnext : (next a).Puts more b (checks → checks')) :
    (op >>= next).Puts all b checks' := by
  rw [hall]
  exact (h.bind hnext).mono fun hchecks => hchecks.2 hchecks.1

/-- A check before anything is stored. -/
theorem of_bind_puts {r : Except Failure Unit} {next : Unit → Op β} {checks : Prop}
    (h : (next ()).Puts more b checks) : (Op.of r >>= next).Puts more b (r = .ok () ∧ checks) := by
  cases r with
  | error e => exact fun w hw => ensures_throw ⟨0, hw.quiet, nofun⟩
  | ok u => exact h.mono fun hchecks => ⟨rfl, hchecks⟩

/-- A check before the operation is one of the checks that were passed by then. -/
theorem guard_puts (refused : Prop) [Decidable refused] (e : Failure) {op : Op β}
    (h : op.Puts more b checks) :
    (if refused then throw e else op).Puts more b (¬ refused ∧ checks) := by
  split
  · exact fun w hw => ensures_throw ⟨0, hw.quiet, nofun⟩
  · rename_i hnot
    exact h.mono fun hchecks => ⟨hnot, hchecks⟩

end Puts

end Op

end NetIntent
