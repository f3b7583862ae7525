import NetIntent.Proofs.AllOrNothing
import NetIntent.Proofs.Undisturbed

namespace NetIntent

/-!
# Requests over a run

A request to install is made once a context is complete and recorded, a request to uninstall before
a termination is recorded. So the requests of the synchronizer, the ledgers and the contexts tell
the same story, whatever fails between them.

* `World.begun`, `World.accepted` — the requests that began, and those that were accepted;
* `Asked` — what comes of a request;
* `Op.Silent` — the operation makes no request;
* `Deployment.conclude` — terminating from the request on;
* `Action.Reaches` — an operation comes to a request, in some world;
* `History.requests_in_order` — when requests are made, and what follows from their acceptance.
-/

open Op

/-! ### What the synchronizer was asked -/

namespace World

/-- The requests that began to run, in order. -/
def begun (w : World) : List (Request × String) := w.synchronizer.elim [] Synchronizer.begun

/-- The ids of the requests of one sort that were accepted, in order. -/
def accepted (w : World) : Request → List String
  | .install => w.synchronizer.elim [] Synchronizer.installed
  | .uninstall => w.synchronizer.elim [] Synchronizer.uninstalled

variable {w w' : World}

/-- What began to run is recorded by the synchronizer alone. -/
theorem begun_congr (h : w'.synchronizer = w.synchronizer) : w'.begun = w.begun := by
  rw [begun, begun, h]

/-- What was accepted is recorded by the synchronizer alone. -/
theorem accepted_congr (h : w'.synchronizer = w.synchronizer) : w'.accepted = w.accepted := by
  funext request
  cases request <;> simp only [accepted, h]

/-- New circumstances leave the requests that began to run. -/
@[simp] theorem begun_under (w : World) (c : Circumstances) : (w.under c).begun = w.begun := by
  simp only [begun, under]
  cases w.synchronizer <;> rfl

/-- New circumstances leave the requests that were accepted. -/
@[simp] theorem accepted_under (w : World) (c : Circumstances) :
    (w.under c).accepted = w.accepted := by
  funext request
  cases request <;> simp only [accepted, under] <;> cases w.synchronizer <;> rfl

/-- A quiet change leaves the synchronizer as it was. -/
theorem Quiet.synchronizer (h : w.Quiet w') : w'.synchronizer = w.synchronizer := by
  obtain ⟨faults, -, rfl⟩ := h
  rfl

end World

/-- What comes of a request. -/
inductive Asked (w : World) (request : Request) (id : String) : Except Failure Unit → World → Prop
  /-- It does not begin, since it was given up before or there is no synchronizer. -/
  | dropped {e : Failure} {w' : World} (hsync : w'.synchronizer = w.synchronizer) :
      Asked w request id (.error e) w'
  /-- It begins and is not accepted. -/
  | failed {e : Failure} {w' : World} (hbegun : w'.begun = w.begun ++ [(request, id)])
      (haccepted : w'.accepted = w.accepted) : Asked w request id (.error e) w'
  /-- It begins and is accepted. -/
  | accepted {w' : World} (hbegun : w'.begun = w.begun ++ [(request, id)])
      (haccepted : ∀ q, w'.accepted q = w.accepted q ++ if q = request then [id] else []) :
      Asked w request id (.ok ()) w'

namespace Asked

variable {w w' : World} {request q : Request} {id : String} {r : Except Failure Unit}

/-- A request is accepted just if it succeeds. -/
theorem accepted_self (h : Asked w request id r w') :
    w'.accepted request = w.accepted request ++ (r.map fun _ => id).toOption.toList := by
  cases h with
  | dropped hsync =>
    rw [World.accepted_congr hsync]
    exact (List.append_nil _).symm
  | failed hbegun haccepted =>
    rw [haccepted]
    exact (List.append_nil _).symm
  | accepted hbegun haccepted =>
    rw [haccepted, if_pos rfl]
    rfl

/-- A request of one sort leaves the accepted ones of the other sort. -/
theorem accepted_of_ne (h : Asked w request id r w') (hq : q ≠ request) :
    w'.accepted q = w.accepted q := by
  cases h with
  | dropped hsync => rw [World.accepted_congr hsync]
  | failed hbegun haccepted => rw [haccepted]
  | accepted hbegun haccepted => rw [haccepted, if_neg hq, List.append_nil]

end Asked

namespace Synchronizer

variable (s : Synchronizer) (request : Request) (id : String)

/-- A request is dropped before it begins, or it is recorded as begun, and as accepted if it is. -/
theorem ask_cases (limitMs start : Nat) (cancellation : Cancellation) :
    (∃ e time, s.ask request id limitMs start cancellation = (.error e, time, s)) ∨
      (∃ e time, s.ask request id limitMs start cancellation
        = (.error e, time, s.begin request id)) ∨
      ∃ time, s.ask request id limitMs start cancellation
        = (.ok (), time, (s.begin request id).accept request id) := by
  unfold ask
  split
  · exact .inl ⟨_, _, rfl⟩
  · refine .inr ?_
    dsimp only
    split
    · exact .inl ⟨_, _, rfl⟩
    · exact .inl ⟨_, _, rfl⟩
    · -- there is a reply in time, which may be any
      rename_i time reply _ _
      cases reply with
      | accepted => exact .inr ⟨time, rfl⟩
      | _ => exact .inl ⟨_, _, rfl⟩

end Synchronizer

/-- A request is dropped, fails or is accepted, whatever the synchronizer answers and whenever the
    token is cancelled. -/
theorem Op.ask_asked (request : Request) (id : String) (cancellation : Cancellation) (w : World) :
    (ask request id cancellation).Ensures w (Asked w request id) := by
  unfold Ensures
  cases hs : w.synchronizer with
  | none =>
    rw [run_ask_of_none hs]
    exact .dropped rfl
  | some s =>
    rw [run_ask hs]
    -- What is recorded depends on how far the request comes.
    rcases s.ask_cases request id w.limitMs w.elapsedMs cancellation with
      ⟨e, time, hask⟩ | ⟨e, time, hask⟩ | ⟨time, hask⟩
    · rw [hask]
      exact .dropped hs.symm
    · rw [hask]
      refine .failed ?_ ?_
      · simp [World.begun, hs, Synchronizer.begin]
      · funext q
        cases q <;> simp [World.accepted, hs, Synchronizer.begin]
    · rw [hask]
      refine .accepted ?_ ?_
      · cases request <;> simp [World.begun, hs, Synchronizer.begin, Synchronizer.accept]
      · intro q
        cases request <;> cases q <;>
          simp [World.accepted, hs, Synchronizer.begin, Synchronizer.accept]

/-! ### Operations that make no request -/

namespace Op

variable {α β : Type} {op : Op α} {w : World}

/-- The operation leaves the synchronizer alone. -/
def Silent (op : Op α) : Prop :=
  ∀ w, w.Faithful → op.Ensures w fun _ w' => w'.synchronizer = w.synchronizer

/-- An operation that changes nothing asks for nothing. -/
theorem ReadOnly.silent (h : op.ReadOnly) : op.Silent :=
  fun w hw => (h w hw).mono fun _ _ hr => hr.1.synchronizer

/-- A change of the documents asks for nothing. -/
theorem Atomic.silent {change : World → DocumentStore → Prop} (h : op.Atomic change) :
    op.Silent := by
  intro w hw
  refine (h w hw).mono fun r w' hr => ?_
  rcases hr with ⟨e, -, hquiet⟩ | ⟨a, d, -, -, hquiet⟩
  · exact hquiet.synchronizer
  · exact hquiet.synchronizer

/-- An operation asks for the same when its result is not needed. -/
theorem Silent.void (h : op.Silent) : op.void.Silent := by
  intro w hw
  refine (h w hw).bind ?_ ?_
  · exact fun _ _ hsync => ensures_pure hsync
  · exact fun _ _ hsync => hsync

end Op

/-- The registration of a cluster asks for nothing. -/
theorem createCluster_silent (p : String) (c : Cluster) (content : ClusterContent) :
    (createCluster p c content).Silent := by
  intro w hw
  refine (createCluster_ensures p c content hw).mono fun r w' h => ?_
  rcases h with ⟨-, hquiet⟩ | ⟨-, -, -, ⟨-, d, hquiet, -⟩ | ⟨-, hquiet⟩⟩
  · exact hquiet.synchronizer
  · exact hquiet.synchronizer
  · exact hquiet.synchronizer

/-- The deletion of a cluster asks for nothing. -/
theorem deleteCluster_silent (p c : String) : (deleteCluster p c).Silent := by
  intro w hw
  refine (deleteCluster_ensures p c hw).mono fun r w' h => ?_
  rcases h with ⟨-, hquiet⟩ | ⟨l, live, -, ⟨-, done, -, hquiet⟩ | ⟨-, hquiet⟩⟩
  · exact hquiet.synchronizer
  · exact hquiet.synchronizer
  · exact hquiet.synchronizer

/-! ### Operations that make a request -/

namespace Deployment

variable {w : World} {p c : String}

/-- Applying asks for nothing until its context is recorded. -/
theorem commit_silent (p c : String) : (commit p c).Silent := by
  intro w hw
  refine (commit_ensures p c hw).mono fun r w' h => ?_
  cases h with
  | refused hdraft hquiet => exact hquiet.synchronizer
  | undone hdraft hs hquiet => exact hquiet.synchronizer
  | left hdraft hquiet => exact hquiet.synchronizer
  | recorded hsurvey hwordy hquiet => exact hquiet.synchronizer

/-- Terminating from the request on: it is recorded, and the context is deleted if possible. -/
def conclude (p c : String) (l : Ledger) (context : AppContext) : Op Unit := do
  record p c l .terminated l.lastId
  let _ ← context.delete.attempt
  return ()

/-- Terminating is a reading, a request, and a conclusion. -/
theorem terminate_eq (p c : String) (cancellation : Cancellation) :
    terminate p c cancellation = (do
      let (l, context) ← retrieve p c
      Op.ask .uninstall l.lastId cancellation
      conclude p c l context : Op Unit) := by
  simp only [retrieve, bind_assoc, pure_bind]
  rfl

/-- What comes after an accepted termination asks for nothing. -/
theorem conclude_silent (p c : String) (l : Ledger) (id : String) :
    (conclude p c l (AppContext.ofId id)).Silent := by
  intro w hw
  refine (record_atomic p c l .terminated l.lastId w hw).bind ?_ ?_
  · intro u w₁ hout
    rcases hout with ⟨e, he, -⟩ | ⟨a, d, -, -, hquiet⟩
    · cases he
    · refine (AppContext.delete_ensures id hquiet.faithful).attempt_bind fun r w₂ hout => ?_
      rcases hout with ⟨e, -, hquiet₂, -⟩ | ⟨-, -, hquiet₂⟩
      · exact ensures_pure (hquiet₂.synchronizer.trans hquiet.synchronizer)
      · exact ensures_pure (hquiet₂.synchronizer.trans hquiet.synchronizer)
  · intro e w₁ hout
    rcases hout with ⟨e', -, hquiet⟩ | ⟨a, d, he, -⟩
    · exact hquiet.synchronizer
    · cases he

/-- What applying comes to, as the synchronizer sees it. -/
inductive Applying (w : World) (p c : String) : Except Failure String → World → Prop
  /-- There is no request. -/
  | refused {e : Failure} {w' : World} (hsync : w'.synchronizer = w.synchronizer) :
      Applying w p c (.error e) w'
  /-- The request decides on the answer, and comes last. -/
  | asked {id : String} {w₁ w₂ : World} {r : Except Failure Unit}
      (hcommit : (commit p c).run w = (.ok id, w₁)) (hsync : w₁.synchronizer = w.synchronizer)
      (hasked : Asked w₁ .install id r w₂) (hstores : w₂.stores = w₁.stores) :
      Applying w p c (r.map fun _ => id) w₂

/-- Applying comes to one request at most, and to none before the context is recorded. -/
theorem apply_applying (p c : String) (cancellation : Cancellation) (hw : w.Faithful) :
    (apply p c cancellation).Ensures w (Applying w p c) := by
  have hsilent := commit_silent p c w hw
  rw [Ensures] at hsilent ⊢
  rcases hcommit : (commit p c).run w with ⟨r₁, w₁⟩
  rw [hcommit] at hsilent
  cases r₁ with
  | error e =>
    rw [run_apply_of_error hcommit]
    exact .refused hsilent
  | ok id =>
    have hasked := ask_asked .install id cancellation w₁
    have hstores := ask_ensures (w := w₁) .install id cancellation
    rw [Ensures] at hasked hstores
    rcases hask : (Op.ask .install id cancellation).run w₁ with ⟨r, w₂⟩
    rw [hask] at hasked hstores
    -- The result of the request is that of the whole operation.
    have happly : (apply p c cancellation).run w = (r.map fun _ => id, w₂) := by
      rw [apply, run_bind_ok hcommit, run_bind, hask]
      cases r <;> rfl
    rw [happly]
    exact .asked hcommit hsilent hasked hstores.1

/-- The request of an application is accepted just if the application succeeds. -/
theorem Applying.accepted {r : Except Failure String} {w' : World} (h : Applying w p c r w') :
    w'.accepted .install = w.accepted .install ++ r.toOption.toList := by
  cases h with
  | refused hsync =>
    rw [World.accepted_congr hsync]
    exact (List.append_nil _).symm
  | asked hcommit hsync hasked hstores =>
    rw [← World.accepted_congr hsync]
    exact hasked.accepted_self

/-- What terminating comes to, as the synchronizer sees it. -/
inductive Terminating (w : World) (p c : String) : Except Failure Unit → World → Prop
  /-- There is no request. -/
  | refused {e : Failure} {w' : World} (hsync : w'.synchronizer = w.synchronizer)
      (hstores : w'.stores = w.stores) : Terminating w p c (.error e) w'
  /-- The request is not accepted, and nothing is recorded. -/
  | declined {l : Ledger} {context : AppContext} {e : Failure} {w₁ w₂ : World}
      (hretrieve : (retrieve p c).run w = (.ok (l, context), w₁))
      (hsync : w₁.synchronizer = w.synchronizer) (hasked : Asked w₁ .uninstall l.lastId (.error e) w₂)
      (hstores : w₂.stores = w.stores) : Terminating w p c (.error e) w₂
  /-- The request is accepted before anything is recorded. -/
  | accepted {l : Ledger} {context : AppContext} {r : Except Failure Unit} {w₁ w₂ w₃ : World}
      (hretrieve : (retrieve p c).run w = (.ok (l, context), w₁))
      (hsync : w₁.synchronizer = w.synchronizer)
      (hasked : Asked w₁ .uninstall l.lastId (.ok ()) w₂)
      (hsync₃ : w₃.synchronizer = w₂.synchronizer) : Terminating w p c r w₃

/-- Terminating comes to one request at most, and to none before the ledger and the context are
    read. -/
theorem terminate_terminating (p c : String) (cancellation : Cancellation) (hw : w.Faithful) :
    (terminate p c cancellation).Ensures w (Terminating w p c) := by
  have hreads := retrieve_reads p c w hw
  rw [Ensures] at hreads ⊢
  rcases hretrieve : (retrieve p c).run w with ⟨r₁, w₁⟩
  rw [hretrieve] at hreads
  obtain ⟨hquiet, hfound⟩ := hreads
  rw [terminate_eq, run_bind, hretrieve]
  cases r₁ with
  | error e => exact .refused hquiet.synchronizer hquiet.stores
  | ok found =>
    obtain ⟨l, context⟩ := found
    obtain ⟨-, -, hcontext, -⟩ := hfound (l, context) rfl
    obtain rfl : context = AppContext.ofId l.lastId := hcontext
    have hasked := ask_asked .uninstall l.lastId cancellation w₁
    have hask := ask_ensures (w := w₁) .uninstall l.lastId cancellation
    rw [Ensures] at hasked hask
    rcases hrun : (Op.ask .uninstall l.lastId cancellation).run w₁ with ⟨r₂, w₂⟩
    rw [hrun] at hasked hask
    obtain ⟨hstores, hfaults, -⟩ := hask
    -- The answer decides whether the termination goes on.
    simp only [run_bind, hrun]
    cases r₂ with
    | error e => exact .declined hretrieve hquiet.synchronizer hasked (hstores.trans hquiet.stores)
    | ok u =>
      have hw₂ : w₂.Faithful := by
        rw [World.Faithful, hfaults]
        exact hquiet.faithful
      exact .accepted hretrieve hquiet.synchronizer hasked (conclude_silent p c l l.lastId w₂ hw₂)

end Deployment

/-! ### Each step makes one request at most -/

/-- The operation comes to a request about a context of a cluster, and this is the world then. -/
inductive Action.Reaches (w : World) (p c : String) : Action → Request → String → World → Prop
  /-- A context was built and recorded. -/
  | install {cancellation : Cancellation} {id : String} {w₁ : World}
      (h : (Deployment.commit p c).run w = (.ok id, w₁)) :
      Reaches w p c (.apply p c cancellation) .install id w₁
  /-- The last context was loaded. -/
  | uninstall {cancellation : Cancellation} {l : Ledger} {context : AppContext} {w₁ : World}
      (h : (Deployment.retrieve p c).run w = (.ok (l, context), w₁)) :
      Reaches w p c (.terminate p c cancellation) .uninstall l.lastId w₁

/-- The requests of an operation: none, or the one that it comes to. -/
inductive Action.Asks (a : Action) (w : World) : World → Prop
  | silent {w' : World} (hsync : w'.synchronizer = w.synchronizer) : Asks a w w'
  | asked {p c id : String} {request : Request} {r : Except Failure Unit} {w₁ w₂ w' : World}
      (hreaches : a.Reaches w p c request id w₁) (hsync₁ : w₁.synchronizer = w.synchronizer)
      (hasked : Asked w₁ request id r w₂) (hsync₂ : w'.synchronizer = w₂.synchronizer)
      (hstores : request = .install → w'.stores = w₁.stores) : Asks a w w'

/-- The id that is returned, if the operation applies intents and succeeds. -/
def Action.returned? (a : Action) (w : World) : Option String :=
  match a with
  | .apply p c cancellation => ((Deployment.apply p c cancellation).run w).1.toOption
  | _ => none

section Actions

variable {w : World}

/-- Every operation asks for nothing, or for one thing in a world that it comes to. -/
theorem Action.asks (a : Action) (hw : w.Faithful) :
    a.perform.Ensures w fun _ w' => a.Asks w w' := by
  -- Only applying and terminating come to a request.
  have hsilent : ∀ {op : Op Unit}, op.Silent → op.Ensures w fun _ w' => a.Asks w w' :=
    fun h => (h w hw).mono fun _ _ hsync => .silent hsync
  cases a with
  | createProvider p => exact hsilent (createProvider_atomic p).silent.void
  | deleteProvider p => exact hsilent (deleteProvider_atomic p).silent.void
  | createCluster p c content => exact hsilent (createCluster_silent p c content).void
  | deleteCluster p c => exact hsilent (deleteCluster_silent p c).void
  | createNetwork n p c mayExist => exact hsilent (Intent.create_atomic n p c mayExist).silent.void
  | deleteNetwork n p c =>
    exact hsilent (Intent.delete_atomic (α := Network) n p c).silent.void
  | createProviderNetwork n p c mayExist =>
    exact hsilent (Intent.create_atomic n p c mayExist).silent.void
  | deleteProviderNetwork n p c =>
    exact hsilent (Intent.delete_atomic (α := ProviderNetwork) n p c).silent.void
  | apply p c cancellation =>
    refine void_ensures ((Deployment.apply_applying p c cancellation hw).mono fun r w' h => ?_)
    cases h with
    | refused hsync => exact .silent hsync
    | asked hcommit hsync hasked hstores =>
      exact .asked (.install hcommit) hsync hasked rfl fun _ => hstores
  | terminate p c cancellation =>
    refine void_ensures
      ((Deployment.terminate_terminating p c cancellation hw).mono fun r w' h => ?_)
    cases h with
    | refused hsync hstores => exact .silent hsync
    | declined hretrieve hsync hasked hstores =>
      exact .asked (.uninstall hretrieve) hsync hasked rfl nofun
    | accepted hretrieve hsync hasked hsync₃ =>
      exact .asked (.uninstall hretrieve) hsync hasked hsync₃ nofun
  | look lookup => exact hsilent lookup.readOnly.silent

/-- No other operation than applying asks to install anything. -/
theorem Action.Asks.accepted_install {a : Action} {w' : World} (h : a.Asks w w')
    (ha : ∀ p c cancellation, a ≠ .apply p c cancellation) :
    w'.accepted .install = w.accepted .install := by
  cases h with
  | silent hsync => rw [World.accepted_congr hsync]
  | asked hreaches hsync₁ hasked hsync₂ hstores =>
    cases hreaches with
    | install => exact absurd rfl (ha _ _ _)
    | uninstall =>
      rw [World.accepted_congr hsync₂, hasked.accepted_of_ne (q := .install) (by decide),
        World.accepted_congr hsync₁]

/-- The requests to install that are accepted are those of the applications that succeed. -/
theorem Action.accepted_install (a : Action) (hw : w.Faithful) :
    a.perform.Ensures w fun _ w' =>
      w'.accepted .install = w.accepted .install ++ (a.returned? w).toList := by
  by_cases ha : ∃ p c cancellation, a = .apply p c cancellation
  · obtain ⟨p, c, cancellation, rfl⟩ := ha
    refine void_ensures ?_
    have happly : ((Deployment.apply p c cancellation).run w).2.accepted .install
        = w.accepted .install ++ ((Deployment.apply p c cancellation).run w).1.toOption.toList :=
      (Deployment.apply_applying p c cancellation hw).accepted
    exact happly
  · push Not at ha
    refine (a.asks hw).mono fun r w' h => ?_
    rw [h.accepted_install ha]
    cases a with
    | apply p c cancellation => exact absurd rfl (ha p c cancellation)
    | _ => exact (List.append_nil _).symm

end Actions

/-! ### When requests are made -/

/-- The state in which a request may be made. The ledger of the cluster ends in the application of
    the context; a context that is to be installed is complete, and one that is to be uninstalled
    has its root. -/
structure Stores.Ready (s : Stores) (p c : String) (request : Request) (id : String) : Prop where
  applied : ∃ l, s.documents.ledger? p c = some l ∧ l.current = .ok .applied ∧ l.lastId = id
  complete : request = .install →
    ∃ networks providerNetworks, s.Shows p c id networks providerNetworks
  rooted : request = .uninstall → s.contexts.Rooted id

/-- A request is made in a state that is ready for it. One to install is about an id that was just
    taken from the supply. -/
theorem Action.Reaches.ready {a : Action} {w w₁ : World} {p c id : String} {request : Request}
    (h : a.Reaches w p c request id w₁) (hw : w.Faithful) (hs : w.stores.Installed)
    (hids : ValidIds w.contextId) (hnow : w.now.IsValid) :
    w₁.stores.Ready p c request id ∧
      (request = .install → id = w.contextId w.minted ∧ w₁.minted = w.minted + 1) := by
  cases h with
  | install hcommit =>
    -- The context is recorded before its installation is asked for.
    have hcommitted := Deployment.commit_ensures p c hw
    rw [Ensures, hcommit] at hcommitted
    have hcompleted := hcommitted.completed hs hids hnow
    obtain ⟨l, -, -, hl⟩ := hcompleted.ledger
    refine ⟨⟨⟨_, hl, Ledger.current_append .., Ledger.lastId_append ..⟩,
      fun _ => hcompleted.shown, fun h => ?_⟩, fun _ => ?_⟩
    · cases h
    · cases hcommitted with
      | recorded hsurvey hwordy hquiet => exact ⟨rfl, congrArg Stores.minted hquiet.stores⟩
  | @uninstall _ l context _ hretrieve =>
    -- The ledger and the root are read before, and nothing is changed.
    have hreads := Deployment.retrieve_reads p c w hw
    rw [Ensures, hretrieve] at hreads
    obtain ⟨hquiet, hfound⟩ := hreads
    obtain ⟨hl, hcurrent, -, hrooted, -⟩ := hfound (l, context) rfl
    rw [hquiet.stores]
    refine ⟨⟨⟨l, hl hs.chronicled.sound.filed, hcurrent, rfl⟩, fun h => ?_, fun _ => hrooted⟩,
      fun h => ?_⟩
    · cases h
    · cases h

/-- The actions in the ledger of a cluster, if it has one. -/
def DocumentStore.actions (d : DocumentStore) (p c : String) : List (LedgerState × String) :=
  (d.ledger? p c).elim [] Ledger.actions

/-- Terminating records nothing, or the synchronizer has accepted to uninstall the last context. -/
theorem Deployment.Terminating.stores_eq_or {w w' : World} {p c : String}
    {r : Except Failure Unit} (h : Deployment.Terminating w p c r w') (hw : w.Faithful)
    (hfiled : w.documents.Filed) :
    w'.stores = w.stores ∨ ∃ l, w.documents.ledger? p c = some l ∧
      w'.accepted .uninstall = w.accepted .uninstall ++ [l.lastId] := by
  cases h with
  | refused hsync hstores => exact .inl hstores
  | declined hretrieve hsync hasked hstores => exact .inl hstores
  | @accepted l context _ w₁ w₂ _ hretrieve hsync hasked hsync₃ =>
    have hreads := retrieve_reads p c w hw
    rw [Ensures, hretrieve] at hreads
    refine .inr ⟨l, (hreads.2 (l, context) rfl).1 hfiled, ?_⟩
    rw [World.accepted_congr hsync₃, hasked.accepted_self, World.accepted_congr hsync]
    rfl

namespace History

variable {ids : Nat → String} {synchronizer : Option Synchronizer}

/-- A termination is recorded only by an operation whose request to uninstall was accepted. -/
theorem accepted_of_terminated (h : History) (s : Step) (hs : h.stores.documents.Sound)
    {p c id : String}
    (hcount : (h.stores.documents.actions p c).count (.terminated, id)
      < ((h.step s).stores.documents.actions p c).count (.terminated, id)) :
    (∃ cancellation, s.action = .terminate p c cancellation) ∧
      (h.step s).world.accepted .uninstall = h.world.accepted .uninstall ++ [id] := by
  obtain ⟨r, -, hchange⟩ := h.change s hs.filed
  have hledger := hchange.ledger hs p c
  rw [DocumentStore.actions, DocumentStore.actions] at hcount
  generalize hbefore : h.stores.documents.ledger? p c = before at hledger hcount
  generalize hafter : (h.step s).stores.documents.ledger? p c = after at hledger hcount
  cases hledger with
  | kept => exact absurd hcount (Nat.lt_irrefl _)
  | begun ha hname => simp [Ledger.actions, Ledger.append] at hcount
  | applied ha hsurvey hwordy hstores => simp at hcount
  | removed ha hidle hgone hcontexts => simp at hcount
  | @terminated l cancellation time ha hcurrent =>
    refine ⟨⟨cancellation, ha⟩, ?_⟩
    -- The new entry is about the last context.
    obtain rfl : l.lastId = id := by
      by_contra hne
      simp [hne] at hcount
    have hw := h.world.faithful_under s.circumstances
    have hout : s.action.perform.Ensures (h.world.under s.circumstances) fun _ w' =>
        w'.stores = h.stores ∨ ∃ l, h.stores.documents.ledger? p c = some l ∧
          w'.accepted .uninstall = h.world.accepted .uninstall ++ [l.lastId] := by
      rw [ha, ← World.accepted_under h.world s.circumstances]
      exact void_ensures ((Deployment.terminate_terminating p c cancellation hw).mono
        fun r w' hterm => hterm.stores_eq_or hw hs.filed)
    rcases hout with hsame | ⟨l', hl', haccepted⟩
    · -- but the ledger has changed
      have hsame : (h.step s).stores = h.stores := hsame
      rw [hsame, hbefore] at hafter
      exact absurd (Option.some.inj hafter).symm (Ledger.append_ne _ _ _ _)
    · obtain rfl : l = l' := Option.some.inj (hbefore.symm.trans hl')
      exact haccepted

/-- The ids that a run returns: those of its applications that succeed, in order. -/
def returned (h : History) : List Step → List String
  | [] => []
  | s :: steps =>
    (s.action.returned? (h.world.under s.circumstances)).toList ++ (h.step s).returned steps

/-- A step adds the id that it returns to the accepted requests to install, if it returns one. -/
theorem accepted_step (h : History) (s : Step) :
    (h.step s).world.accepted .install
      = h.world.accepted .install
        ++ (s.action.returned? (h.world.under s.circumstances)).toList := by
  have hout := s.action.accepted_install (h.world.faithful_under s.circumstances)
  rw [World.accepted_under] at hout
  exact hout

/-- The requests to install that are accepted in a run are those whose ids it returns. -/
theorem accepted_foldl (h : History) (steps : List Step) :
    (steps.foldl step h).world.accepted .install
      = h.world.accepted .install ++ h.returned steps := by
  induction steps generalizing h with
  | nil => exact (List.append_nil _).symm
  | cons s steps ih => rw [List.foldl_cons, ih, accepted_step, returned, List.append_assoc]

/-- What the next operation asks for: nothing, or one thing in a state that is ready for it. -/
inductive Requests (h : History) (s : Step) : Prop
  /-- No request begins. -/
  | silent (hbegun : (h.step s).world.begun = h.world.begun)
  /-- A request begins, in a world that the operation comes to. -/
  | asked {p c id : String} {request : Request} {w : World}
      (hreaches : s.action.Reaches (h.world.under s.circumstances) p c request id w)
      (hready : w.stores.Ready p c request id)
      (hbegun : (h.step s).world.begun = h.world.begun ++ [(request, id)])
      (hfresh : request = .install →
        id = h.stores.nextId ∧ (h.step s).stores.minted = h.stores.minted + 1)

/-- In a history whose contexts are recorded, each request is ready when it begins. -/
theorem requests (h : History) (s : Step) (hs : h.stores.Installed)
    (hids : ValidIds h.stores.contextId) : h.Requests s := by
  have hw := h.world.faithful_under s.circumstances
  have hasks : s.action.Asks (h.world.under s.circumstances) (h.step s).world :=
    s.action.asks hw
  cases hasks with
  | silent hsync =>
    refine .silent ?_
    rw [World.begun_congr hsync, World.begun_under]
  | asked hreaches hsync₁ hasked hsync₂ hstores =>
    obtain ⟨hready, hfresh⟩ := hreaches.ready hw hs hids s.circumstances.now.2
    have hbefore := (World.begun_congr hsync₁).trans (World.begun_under h.world s.circumstances)
    have hafter := World.begun_congr hsync₂
    have hminted : ∀ hinstall, (h.step s).stores.minted = h.stores.minted + 1 := fun hinstall =>
      (congrArg Stores.minted (hstores hinstall)).trans (hfresh hinstall).2
    -- What counts as a request is one that begins, accepted or not.
    cases hasked with
    | dropped hsync => exact .silent (by rw [hafter, World.begun_congr hsync, hbefore])
    | failed hbegun haccepted =>
      refine .asked hreaches hready (by rw [hafter, hbegun, hbefore]) fun hinstall => ?_
      exact ⟨(hfresh hinstall).1, hminted hinstall⟩
    | accepted hbegun haccepted =>
      refine .asked hreaches hready (by rw [hafter, hbegun, hbefore]) fun hinstall => ?_
      exact ⟨(hfresh hinstall).1, hminted hinstall⟩

/-- Each context was asked to be installed once at most, and not before its id was taken. -/
structure Orderly (h : History) : Prop where
  installed : h.stores.Installed
  taken : ∀ id, (.install, id) ∈ h.world.begun →
    ∃ n < h.stores.minted, id = h.stores.contextId n
  once : ∀ id, h.world.begun.count (.install, id) ≤ 1

/-- One more step leaves the requests in order. -/
theorem Orderly.step {h : History} (hh : h.Orderly) (hids : ValidIds h.stores.contextId)
    (s : Step) : (h.step s).Orderly := by
  obtain ⟨r, -, hchange⟩ := h.change s hh.installed.chronicled.sound.filed
  obtain ⟨hsupply, hle⟩ := hchange.minted
  have hinstalled := hh.installed.change hids hchange
  cases h.requests s hh.installed hids with
  | silent hbegun =>
    refine ⟨hinstalled, ?_, ?_⟩
    · rw [hbegun, hsupply]
      intro id hid
      obtain ⟨n, hn, rfl⟩ := hh.taken id hid
      exact ⟨n, by omega, rfl⟩
    · rw [hbegun]
      exact hh.once
  | @asked p c id request w hreaches hready hbegun hfresh =>
    refine ⟨hinstalled, ?_, ?_⟩
    · rw [hbegun, hsupply]
      intro other hother
      rcases List.mem_append.1 hother with hold | hnew
      · obtain ⟨n, hn, rfl⟩ := hh.taken other hold
        exact ⟨n, by omega, rfl⟩
      · obtain ⟨hrequest, rfl⟩ := Prod.mk.inj (List.mem_singleton.1 hnew)
        obtain ⟨rfl, hminted⟩ := hfresh hrequest.symm
        exact ⟨h.stores.minted, by omega, rfl⟩
    · intro other
      rw [hbegun, List.count_append]
      by_cases hnew : (request, id) = (.install, other)
      · -- the id was taken just now, and so it was not asked for before
        obtain ⟨rfl, rfl⟩ := Prod.mk.inj hnew
        obtain ⟨rfl, -⟩ := hfresh rfl
        have hnone : h.world.begun.count (.install, h.stores.nextId) = 0 := by
          refine List.count_eq_zero.2 fun hmem => ?_
          obtain ⟨n, hn, heq⟩ := hh.taken _ hmem
          have hsame : h.stores.minted = n := hids.fresh heq
          omega
        simp [hnone]
      · have hzero : [(request, id)].count (.install, other) = 0 :=
          List.count_eq_zero.2 fun hmem => hnew (List.mem_singleton.1 hmem).symm
        rw [hzero]
        exact hh.once other

/-- The requests of every run are in order, by induction on its steps. -/
theorem orderly_after (hids : ValidIds ids)
    (hfresh : ∀ s ∈ synchronizer, s.begun = []) (steps : List Step) :
    (after ids synchronizer steps).Orderly ∧
      (after ids synchronizer steps).stores.contextId = ids := by
  refine after_induction (P := fun h => h.Orderly ∧ h.stores.contextId = ids) ?_ ?_ steps
  · have hbegun : (start ids synchronizer).world.begun = [] := by
      cases synchronizer with
      | none => rfl
      | some s => exact hfresh s rfl
    refine ⟨⟨Stores.Installed.empty ids, ?_, ?_⟩, rfl⟩
    · simp [hbegun]
    · simp [hbegun]
  · intro h s hbefore
    obtain ⟨hh, hsupply⟩ := hbefore
    obtain ⟨r, -, hchange⟩ := h.change s hh.installed.chronicled.sound.filed
    exact ⟨hh.step (hsupply ▸ hids) s, hchange.minted.1.trans hsupply⟩

/-- **Requests over a run.** Whatever fails on the way, each operation makes one request at most,
    and does so when the ledger of the cluster ends in the application of the context: to install
    the context when it is complete, and once at most; to uninstall it when its root is stored. A
    termination is recorded only by an operation whose request to uninstall was accepted, and the
    requests to install that were accepted are those whose ids were returned, in order. -/
theorem requests_in_order (hids : ValidIds ids)
    (hfresh : ∀ s ∈ synchronizer, s.begun = [] ∧ s.installed = []) (steps : List Step) :
    (∀ s, (after ids synchronizer steps).Requests s) ∧
    (∀ id, (after ids synchronizer steps).world.begun.count (.install, id) ≤ 1) ∧
    (∀ s p c id, ((after ids synchronizer steps).stores.documents.actions p c).count
          (.terminated, id)
        < (((after ids synchronizer steps).step s).stores.documents.actions p c).count
          (.terminated, id) →
      (∃ cancellation, s.action = .terminate p c cancellation) ∧
        ((after ids synchronizer steps).step s).world.accepted .uninstall
          = (after ids synchronizer steps).world.accepted .uninstall ++ [id]) ∧
    (after ids synchronizer steps).world.accepted .install
      = (start ids synchronizer).returned steps := by
  obtain ⟨h, hsupply⟩ := orderly_after hids (fun s hs => (hfresh s hs).1) steps
  have hvalid : ValidIds (after ids synchronizer steps).stores.contextId := by
    rw [hsupply]
    exact hids
  refine ⟨?_, h.once, ?_, ?_⟩
  · intro s
    exact requests _ s h.installed hvalid
  · intro s p c id hcount
    exact accepted_of_terminated _ s h.installed.chronicled.sound hcount
  · have hnone : (start ids synchronizer).world.accepted .install = [] := by
      cases synchronizer with
      | none => rfl
      | some s => exact (hfresh s rfl).2
    rw [after, accepted_foldl, hnone, List.nil_append]

/-- A run in which an application is given up before its request, its termination cannot be recorded
    at first, and another application succeeds. -/
def retriedTermination : List Step :=
  [⟨.createProvider ⟨{ name := "p" }⟩, {}⟩,
    ⟨.createCluster "p" ⟨{ name := "c" }⟩ {}, {}⟩,
    ⟨.apply "p" "c" .atOnce, {}⟩,
    ⟨.terminate "p" "c" .never,
      { outages := [{ method := .insert, holds := Registry.ledgerTag }] }⟩,
    ⟨.terminate "p" "c" .never, {}⟩,
    ⟨.apply "p" "c" .never, {}⟩,
    ⟨.terminate "p" "c" .never, { answer := .hang }⟩]

/-- The uninstallation is asked for twice before it can be recorded; the application that was given up
    asks for nothing. -/
theorem requests_in_order_retriedTermination :
    ((after unaryId (some {}) retriedTermination).world.begun
        = [(.uninstall, "a"), (.uninstall, "a"), (.install, "aa"), (.uninstall, "aa")] ∧
      (after unaryId (some {}) retriedTermination).stores.documents.actions "p" "c"
        = [(.created, ""), (.applied, "a"), (.terminated, "a"), (.applied, "aa")]) ∧
    (∀ s, (after unaryId (some {}) retriedTermination).Requests s) ∧
    (after unaryId (some {}) retriedTermination).world.accepted .install
      = (start unaryId (some {})).returned retriedTermination := by
  have hfresh : ∀ s ∈ some ({} : Synchronizer), s.begun = [] ∧ s.installed = [] := by simp
  obtain ⟨hrequests, -, -, hreturned⟩ :=
    requests_in_order unaryId_valid hfresh retriedTermination
  exact ⟨by decide +kernel, hrequests, hreturned⟩

end History

end NetIntent
