import NetIntent.Proofs.Locality

namespace NetIntent

/-!
# Clusters are independent

All clusters share one store of documents and one of contexts. Still an operation on one of them
neither sees nor changes another one, so that two operations on different clusters can be exchanged.
Only the ids of new contexts are taken in the order of the operations.

* `ClusterAction` — the operations on one cluster, with their results;
* `ClusterAction.perform_matches` — each of them works in the area of its cluster;
* `Circumstances.Steadfast` — requests are answered the same whether or not time has passed before;
* `ClusterAction.exchanges` — two operations that work in areas that are apart can be exchanged;
* `ClusterAction.apart_of_place` — the areas of different clusters are apart;
* `Reached.clusters_independent` — so it is with operations on different clusters.
-/

open Op Registry

/-! ### Operations on one cluster -/

/-- An operation on one cluster, with the type of its result. Reports are about the last context of
    the ledger. -/
inductive ClusterAction : Type → Type
  | createCluster (p : String) (c : Cluster) (content : ClusterContent) : ClusterAction Cluster
  | deleteCluster (p c : String) : ClusterAction Unit
  | createNetwork (n : Network) (p c : String) (mayExist : Bool) : ClusterAction Network
  | deleteNetwork (n p c : String) : ClusterAction Unit
  | createProviderNetwork (n : ProviderNetwork) (p c : String) (mayExist : Bool) :
      ClusterAction ProviderNetwork
  | deleteProviderNetwork (n p c : String) : ClusterAction Unit
  | apply (p c : String) (cancellation : Cancellation) : ClusterAction String
  | terminate (p c : String) (cancellation : Cancellation) : ClusterAction Unit
  | status (p c : String) (q : StatusQuery) (hq : q.contextId = "") : ClusterAction StatusReport

namespace ClusterAction

variable {α β : Type}

/-- What an operation does. -/
def perform : ClusterAction α → Op α
  | createCluster p c content => NetIntent.createCluster p c content
  | deleteCluster p c => NetIntent.deleteCluster p c
  | createNetwork n p c mayExist => Intent.create n p c mayExist
  | deleteNetwork n p c => Intent.delete Network n p c
  | createProviderNetwork n p c mayExist => Intent.create n p c mayExist
  | deleteProviderNetwork n p c => Intent.delete ProviderNetwork n p c
  | apply p c cancellation => Deployment.apply p c cancellation
  | terminate p c cancellation => Deployment.terminate p c cancellation
  | status p c q _ => Deployment.status p c q

/-- The provider and the name of the cluster. -/
def place : ClusterAction α → String × String
  | createCluster p c _ => (p, c.metadata.name)
  | deleteCluster p c | createNetwork _ p c _ | deleteNetwork _ p c
  | createProviderNetwork _ p c _ | deleteProviderNetwork _ p c | apply p c _ | terminate p c _
  | status p c _ _ => (p, c)

/-- The cluster, and the contexts of some ids. -/
def area (x : ClusterAction α) (ids : List String) : Area := ⟨x.place.1, x.place.2, ids⟩

/-- When the request of an operation is given up. -/
def cancellation : ClusterAction α → Cancellation
  | apply _ _ cancellation | terminate _ _ cancellation => cancellation
  | _ => .never

/-- How many ids an operation takes from the supply. -/
def taken (x : ClusterAction α) (w : World) : Nat :=
  match x with
  | apply p c _ => Deployment.taken p c w
  | _ => 0

/-- The result of an operation under its circumstances, and the world afterwards. -/
def run (x : ClusterAction α) (w : World) (c : Circumstances) : Except Failure α × World :=
  x.perform.run (w.under c)

variable (x : ClusterAction α) {w w' : World} {ids : List String}

/-- What an operation does depends on the area of its cluster only, and stays in it. -/
theorem perform_matches (hw : World.Alike (x.area ids) w w') (hkeeps : w.stores.Keeps (x.area ids))
    (hanswers : w.AnswersAlike x.cancellation w')
    (hnext : x.taken w ≠ 0 → w.stores.nextId = w'.stores.nextId ∧ w.stores.nextId ∈ ids) :
    x.perform.Matches (x.area ids) (x.taken w) w w' := by
  cases x with
  | createCluster p c content => exact createCluster_matches c content hw
  | deleteCluster p c => exact deleteCluster_matches hw hkeeps
  | createNetwork n p c mayExist => exact Intent.create_matches n mayExist hw
  | deleteNetwork n p c => exact Intent.delete_matches n hw
  | createProviderNetwork n p c mayExist => exact Intent.create_matches n mayExist hw
  | deleteProviderNetwork n p c => exact Intent.delete_matches n hw
  | apply p c cancellation => exact Deployment.apply_matches cancellation hw hkeeps hanswers hnext
  | terminate p c cancellation => exact Deployment.terminate_matches cancellation hw hkeeps hanswers
  | status p c q hq => exact Deployment.status_matches hq hw hkeeps

/-- How many ids are taken does not depend on the supply. -/
theorem taken_congr (hw : w.Undisturbed) (hw' : w'.Undisturbed)
    (hdocuments : w.documents = w'.documents)
    (hsync : w.synchronizer.isSome = w'.synchronizer.isSome) : x.taken w = x.taken w' := by
  cases x with
  | apply p c cancellation =>
    have hfound : ∀ pattern tag, FoundAlike (fun v v' : World => v.documents = v'.documents ∧
        v.synchronizer.isSome = v'.synchronizer.isSome) pattern tag := fun _ _ _ _ h => h.1 ▸ rfl
    obtain ⟨r, hrun, hrun'⟩ := (Deployment.survey_looks (fun _ _ => hfound (clusterKey p c) _)
      (fun _ _ h => h.2) (fun _ _ => hfound _ _) fun _ _ => hfound _ _).same w w' hw hw'
        ⟨hdocuments, hsync⟩
    rw [taken, taken, Deployment.taken, Deployment.taken, hrun, hrun']
  | _ => rfl

/-- An operation takes one id from the supply, or none. -/
theorem taken_cases (w : World) : x.taken w = 0 ∨ x.taken w = 1 := by
  cases x with
  | apply p c cancellation =>
    rw [taken, Deployment.taken]
    split
    · exact .inr rfl
    · exact .inl rfl
  | _ => exact .inl rfl

end ClusterAction

/-! ### Requests at other times -/

/-- For a while after a point in time, requests are answered as they would be at that point. -/
def Circumstances.Steadfast (c : Circumstances) (cancellation : Cancellation) (start span : Nat) :
    Prop :=
  ∀ (s : Synchronizer) (request : Request) (id : String) (time : Nat), s.answer = c.answer →
    start ≤ time → time ≤ start + span →
      (s.ask request id c.limitMs time cancellation).1
        = (s.ask request id c.limitMs start cancellation).1

/-- Requests that are not given up at a point in time are always answered the same. -/
theorem Circumstances.steadfast_of_untimed (c : Circumstances) {cancellation : Cancellation}
    (h : ∀ time, cancellation ≠ .atTime time) (start span : Nat) :
    c.Steadfast cancellation start span := by
  intro s request id time _ _ _
  have hask : ∀ start, (s.ask request id c.limitMs start cancellation).1
      = if cancellation = .atOnce then .error (.cancelled request.name)
        else (s.ask request id c.limitMs 0 .never).1 := by
    intro start
    cases cancellation with
    | never =>
      rw [if_neg nofun]
      unfold Synchronizer.ask
      -- nothing in it is compared with the time
      cases h : (s.begin request id).answer.within c.limitMs with
      | mk waitMs reply => cases reply <;> simp [Cancellation.precedes, Cancellation.outcome, h]
    | atOnce => rfl
    | atTime time => exact absurd rfl (h time)
  rw [hask, hask]

/-- Under steadfast circumstances it does not matter that another request was made before. -/
theorem Circumstances.Steadfast.answersAlike {c : Circumstances} {cancellation : Cancellation}
    {w w' : World} {span : Nat} (h : c.Steadfast cancellation w.elapsedMs span)
    (hsync : w.synchronizer.isSome = w'.synchronizer.isSome)
    (htime : w.elapsedMs ≤ w'.elapsedMs ∧ w'.elapsedMs ≤ w.elapsedMs + span) :
    (w.under c).AnswersAlike cancellation (w'.under c) := by
  intro request id
  cases hs : w.synchronizer with
  | none =>
    have hs' : w'.synchronizer = none := by simpa [hs] using hsync.symm
    rw [run_ask_of_none (w := w.under c) (by simp [World.under, hs]),
      run_ask_of_none (w := w'.under c) (by simp [World.under, hs'])]
  | some s =>
    obtain ⟨s', hs'⟩ : ∃ s', w'.synchronizer = some s' :=
      Option.isSome_iff_exists.1 (hsync ▸ by simp [hs])
    have hunder : (w.under c).synchronizer = some { s with answer := c.answer } := by
      simp [World.under, hs]
    have hunder' : (w'.under c).synchronizer = some { s' with answer := c.answer } := by
      simp [World.under, hs']
    -- The client answers alike at all times of the span, whatever it was asked before.
    rw [run_ask hunder, run_ask hunder']
    refine (h { s with answer := c.answer } request id _ rfl htime.1 htime.2).symm.trans ?_
    exact Synchronizer.ask_answer request id _ _ cancellation rfl

/-! ### Two operations -/

/-- The world with another supply of context ids. -/
def World.withSupply (w : World) (ids : Nat → String) : World := { w with contextId := ids }

/-- The supply has nothing to do with the order in which an area is kept. -/
theorem Stores.Keeps.withSupply {A : Area} {w : World} (h : w.stores.Keeps A) (ids : Nat → String) :
    (w.withSupply ids).stores.Keeps A :=
  ⟨h.tidy, h.named, h.ids, h.last, h.gone⟩

namespace World

variable {A B : Area} {w w' : World} {c c' : Circumstances} {taken : Nat}

/-- The supply has nothing to do with whether worlds are alike in an area. -/
theorem Alike.withSupply (h : World.Alike A w w') (ids : Nat → String) :
    (w.withSupply ids).Alike A w' :=
  ⟨⟨h.undisturbed.faults, h.undisturbed.contexts_open, h.undisturbed.documents_open⟩,
    h.undisturbed',
    ⟨h.stores.filed, h.stores.filed', h.stores.providers, h.stores.documents, h.stores.contexts⟩,
    h.synchronizer, h.now⟩

/-- An operation does not add a synchronizer, nor does it take one away. -/
theorem Within.isSome (h : (w.under c).Within A taken w') :
    w.synchronizer.isSome = w'.synchronizer.isSome := by
  rw [h.synchronizer]
  simp [World.under]

/-- The next id is as many places further as ids were taken. -/
theorem Within.nextId (h : (w.under c).Within A taken w') :
    w.contextId (w.minted + taken) = w'.stores.nextId := by
  rw [World.stores_nextId, h.contextId, h.minted]
  rfl

/-- What an operation leaves is alike in areas that are apart from the one that it works in. -/
theorem Within.alike (h : (w.under c).Within B taken w') (hapart : A.Apart B)
    (hfiled : w.documents.Filed) (hfiled' : w'.documents.Filed) (hc' : c'.Undisturbed) :
    (w.under c').Alike A (w'.under c') where
  undisturbed := w.undisturbed_under hc'
  undisturbed' := w'.undisturbed_under hc'
  stores := h.stores.alike hapart hfiled hfiled'
  synchronizer := by simpa [World.under] using h.isSome
  now := rfl

end World

namespace ClusterAction

variable {α β : Type} (x : ClusterAction α) (y : ClusterAction β) {w : World}
  {cx cy : Circumstances} {idsx idsy : List String}

/-- The operations have the same results in either order, and lead to the same stores. Where the
    second one comes first, the ids of new contexts come from the given supply. -/
structure Exchanges (w : World) (cx cy : Circumstances) (supply : Nat → String) : Prop where
  first : (x.run (y.run (w.withSupply supply) cy).2 cx).1 = (x.run w cx).1
  second : (y.run (w.withSupply supply) cy).1 = (y.run (x.run w cx).2 cy).1
  documents : ∀ store, (x.run (y.run (w.withSupply supply) cy).2 cx).2.documents.documents store
    = (y.run (x.run w cx).2 cy).2.documents.documents store
  contexts : (x.run (y.run (w.withSupply supply) cy).2 cx).2.contexts
    = (y.run (x.run w cx).2 cy).2.contexts

variable {x y}

/-- Two operations that work in areas that are apart can be exchanged, if each takes the same ids in
    both orders. -/
theorem exchanges (hfiled : w.documents.Filed) (hapart : (x.area idsx).Apart (y.area idsy))
    (hkeepsx : w.stores.Keeps (x.area idsx)) (hkeepsy : w.stores.Keeps (y.area idsy))
    (hcx : cx.Undisturbed) (hcy : cy.Undisturbed)
    (hx : cx.Steadfast x.cancellation w.elapsedMs cy.limitMs)
    (hy : cy.Steadfast y.cancellation w.elapsedMs cx.limitMs) {supply : Nat → String}
    (hidx : x.taken (w.under cx) ≠ 0 → w.stores.nextId ∈ idsx ∧
      w.stores.nextId = supply (w.minted + y.taken (w.under cy)))
    (hidy : y.taken (w.under cy) ≠ 0 → supply w.minted ∈ idsy ∧
      supply w.minted = w.contextId (w.minted + x.taken (w.under cx))) :
    x.Exchanges y w cx cy supply := by
  have hw := w.undisturbed_under hcx
  have hv := (w.withSupply supply).undisturbed_under hcy
  have htaken : y.taken ((w.withSupply supply).under cy) = y.taken (w.under cy) :=
    y.taken_congr hv (w.undisturbed_under hcy) rfl rfl
  rw [← htaken] at hidx hidy
  have hkeepsy' := hkeepsy.withSupply supply
  -- Each operation by itself works in its area.
  have hfirst := x.perform_matches (World.Alike.refl hw hfiled _) hkeepsx (.refl _ _)
    fun h => ⟨rfl, (hidx h).1⟩
  have hfirst' := y.perform_matches (World.Alike.refl hv hfiled _) hkeepsy' (.refl _ _)
    fun h => ⟨rfl, (hidy h).1⟩
  -- So each of them does the same before and after the other one.
  have hsecond' : x.perform.Matches (x.area idsx) (x.taken (w.under cx)) (w.under cx)
      ((y.run (w.withSupply supply) cy).2.under cx) := by
    refine x.perform_matches ?_ hkeepsx ?_ ?_
    · exact (hfirst'.within.alike hapart hfiled hfirst'.alike.filed hcx).withSupply w.contextId
    · exact hx.answersAlike hfirst'.within.isSome hfirst'.within.elapsed
    · intro h
      obtain ⟨hmem, hnext⟩ := hidx h
      exact ⟨hnext.trans hfirst'.within.nextId, hmem⟩
  have hsecond : y.perform.Matches (y.area idsy) (y.taken ((w.withSupply supply).under cy))
      ((w.withSupply supply).under cy) ((x.run w cx).2.under cy) := by
    refine y.perform_matches ?_ hkeepsy' ?_ ?_
    · exact (hfirst.within.alike hapart.symm hfiled hfirst.alike.filed hcy).withSupply supply
    · exact hy.answersAlike (w := w.withSupply supply) hfirst.within.isSome hfirst.within.elapsed
    · intro h
      obtain ⟨hmem, hnext⟩ := hidy h
      exact ⟨hnext.trans hfirst.within.nextId, hmem⟩
  have hwithin' : w.stores.Within (y.area idsy) (y.run (w.withSupply supply) cy).2.stores :=
    ⟨hfirst'.within.stores.documents, hfirst'.within.stores.contexts⟩
  obtain ⟨hdocuments, hcontexts⟩ := Stores.same_of_crossed hapart hfirst.within.stores
    hsecond.within'.stores hwithin' hsecond'.within'.stores hsecond'.alike hsecond.alike
  exact ⟨hsecond'.answer.symm, hsecond.answer, fun store => (hdocuments store).symm, hcontexts.symm⟩

/-! ### Different clusters -/

/-- The ids of the contexts in the ledger of the cluster. -/
def recorded (x : ClusterAction α) (s : Stores) : List String :=
  s.documents.recorded x.place.1 x.place.2

/-- An id that an operation takes is recorded. -/
theorem nextId_mem_recorded (hw : w.Undisturbed) (hsound : w.documents.Sound) (hnow : w.now.IsValid)
    (hkeeps : w.stores.Keeps (x.area idsx)) (hne : w.stores.nextId ≠ "") (htaken : x.taken w ≠ 0) :
    w.stores.nextId ∈ x.recorded (x.perform.run w).2.stores := by
  cases x with
  | apply p c cancellation =>
    exact Deployment.nextId_mem_recorded cancellation hw hsound hnow hkeeps hne htaken
  | _ => exact absurd rfl htaken

/-- The areas of two clusters are apart, with the contexts of their ledgers and a new one for each. -/
theorem apart_of_place {s : Stores} (hs : s.Chronicled) (hids : ValidIds s.contextId)
    (hplaces : x.place ≠ y.place) {i j : Nat} (hi : s.minted ≤ i) (hj : s.minted ≤ j) (hij : i ≠ j) :
    (x.area (x.recorded s ++ [s.contextId i])).Apart
      (y.area (y.recorded s ++ [s.contextId j])) := by
  -- What is recorded was taken from the supply before.
  have hold : ∀ {γ : Type} (z : ClusterAction γ), ∀ id ∈ z.recorded s,
      (∃ l, s.documents.ledger? z.place.1 z.place.2 = some l ∧ id ∈ l.appliedIds) ∧
        ∃ n < s.minted, id = s.contextId n := by
    intro γ z id hid
    obtain ⟨l, hl, hid⟩ := DocumentStore.mem_recorded_iff.1 hid
    have hid := (hs.mem_ids_iff hids.ne_empty hl).1 hid
    exact ⟨⟨l, hl, hid⟩, hs.minted _ _ l hl id hid⟩
  have hword : ∀ {γ : Type} (z : ClusterAction γ) (k : Nat),
      ∀ id ∈ z.recorded s ++ [s.contextId k], Handle.IsWord id := by
    intro γ z k id hid
    rcases List.mem_append.1 hid with hid | hid
    · obtain ⟨-, n, -, rfl⟩ := hold z id hid
      exact hids.isWord n
    · exact List.mem_singleton.1 hid ▸ hids.isWord k
  refine ⟨fun hsame => hplaces (Prod.ext hsame.1 hsame.2), hword x i, hword y j, ?_⟩
  intro id hidx hidy
  rcases List.mem_append.1 hidx with hidx | hidx <;> rcases List.mem_append.1 hidy with hidy | hidy
  · -- one context is recorded in one ledger only
    obtain ⟨⟨l, hl, hid⟩, -⟩ := hold x id hidx
    obtain ⟨⟨l', hl', hid'⟩, -⟩ := hold y id hidy
    obtain ⟨hp, hc⟩ := hs.owner _ _ l _ _ l' id hl hl' hid hid'
    exact hplaces (Prod.ext hp hc)
  · obtain ⟨-, n, hn, rfl⟩ := hold x id hidx
    have := hids.fresh (List.mem_singleton.1 hidy)
    omega
  · obtain ⟨-, n, hn, rfl⟩ := hold y id hidy
    have := hids.fresh (List.mem_singleton.1 hidx)
    omega
  · exact hij (hids.fresh ((List.mem_singleton.1 hidx).symm.trans (List.mem_singleton.1 hidy)))

/-- The area of a cluster is in order, with the contexts of its ledger and any others. -/
theorem keeps_area {s : Stores} {written : Written} (hs : s.Reporting written)
    (hids : ValidIds s.contextId) (x : ClusterAction α) (more : List String) :
    s.Keeps (x.area (x.recorded s ++ more)) := by
  refine hs.keeps hids fun l hl id hid => List.mem_append_left _ ?_
  exact DocumentStore.mem_recorded_iff.2 ⟨l, hl, hid⟩

/-- Operations on different clusters can be exchanged. Each is given an id of its own, whether or not
    it takes one. -/
theorem exchanges_of_place {written : Written} (hs : w.stores.Reporting written)
    (hids : ValidIds w.contextId) (hplaces : x.place ≠ y.place) (hcx : cx.Undisturbed)
    (hcy : cy.Undisturbed) (hx : cx.Steadfast x.cancellation w.elapsedMs cy.limitMs)
    (hy : cy.Steadfast y.cancellation w.elapsedMs cx.limitMs) {i j : Nat} (hi : w.minted ≤ i)
    (hj : w.minted ≤ j) (hij : i ≠ j) {supply : Nat → String}
    (hidx : x.taken (w.under cx) ≠ 0 → i = w.minted ∧
      w.contextId i = supply (w.minted + y.taken (w.under cy)))
    (hidy : y.taken (w.under cy) ≠ 0 → j = w.minted + x.taken (w.under cx) ∧
      supply w.minted = w.contextId j) : x.Exchanges y w cx cy supply := by
  refine exchanges hs.chronicled.sound.filed (apart_of_place hs.chronicled hids hplaces hi hj hij)
    (keeps_area hs hids x _) (keeps_area hs hids y _) hcx hcy hx hy ?_ ?_
  · intro htaken
    obtain ⟨rfl, hsame⟩ := hidx htaken
    exact ⟨List.mem_append_right _ (List.mem_singleton_self _), hsame⟩
  · intro htaken
    obtain ⟨rfl, hsame⟩ := hidy htaken
    rw [hsame]
    exact ⟨List.mem_append_right _ (List.mem_singleton_self _), rfl⟩

end ClusterAction

/-- **Clusters are independent.** After any operations with answering stores, an operation on a
    cluster changes no documents but those of the cluster and its intents, and no contexts but those
    that are in the ledger of the cluster before or afterwards. And together with an operation on
    another cluster it has the same results in either order, and leads to the same stores, if the
    answers to requests do not depend on the order. Each of the two sees the same time in both orders;
    and where both apply intents, the ids that they take are exchanged. -/
theorem Reached.clusters_independent {ids : Nat → String} {synchronizer : Option Synchronizer}
    {h : History} {written : Written} (hids : ValidIds ids)
    (hreached : Reached ids synchronizer h written) {α : Type} (x : ClusterAction α)
    {cx : Circumstances} (hcx : cx.Undisturbed) :
    h.stores.Within (x.area (x.recorded h.stores ++ x.recorded (x.run h.world cx).2.stores))
      (x.run h.world cx).2.stores ∧
    ∀ {β : Type} (y : ClusterAction β) (cy : Circumstances), x.place ≠ y.place → cy.Undisturbed →
      cx.Steadfast x.cancellation h.world.elapsedMs cy.limitMs →
      cy.Steadfast y.cancellation h.world.elapsedMs cx.limitMs →
        ∃ supply, (supply = ids ∨
          supply = ids ∘ Equiv.swap h.world.minted (h.world.minted + 1)) ∧
          x.Exchanges y h.world cx cy supply := by
  obtain ⟨hs, hsupply⟩ := hreached.reporting hids
  subst hsupply
  constructor
  · have hw := h.world.undisturbed_under hcx
    have hkept := ClusterAction.keeps_area hs hids x (x.recorded (x.run h.world cx).2.stores)
    refine (x.perform_matches (World.Alike.refl hw hs.chronicled.sound.filed _) hkept (.refl _ _)
      fun htaken => ⟨rfl, List.mem_append_right _ ?_⟩).within.stores
    exact ClusterAction.nextId_mem_recorded hw hs.chronicled.sound cx.now.2 hkept
      (hids.ne_empty _) htaken
  · intro β y cy hplaces hcy hx hy
    rcases x.taken_cases (h.world.under cx) with hxnone | hxone
    · -- the first operation takes no id
      refine ⟨_, .inl rfl, ClusterAction.exchanges_of_place hs hids hplaces hcx hcy hx hy
        (Nat.le_succ _) (Nat.le_refl _) (Nat.succ_ne_self _) (absurd hxnone) fun _ => ⟨?_, rfl⟩⟩
      rw [hxnone, Nat.add_zero]
    · rcases y.taken_cases (h.world.under cy) with hynone | hyone
      · -- the second operation takes no id
        refine ⟨_, .inl rfl, ClusterAction.exchanges_of_place hs hids hplaces hcx hcy hx hy
          (Nat.le_refl _) (Nat.le_succ _) (Nat.succ_ne_self _).symm (fun _ => ⟨rfl, ?_⟩)
          (absurd hynone)⟩
        rw [hynone, Nat.add_zero]
        rfl
      · -- both take one
        refine ⟨_, .inr rfl, ClusterAction.exchanges_of_place hs hids hplaces hcx hcy hx hy
          (Nat.le_refl _) (Nat.le_succ _) (Nat.succ_ne_self _).symm (fun _ => ⟨rfl, ?_⟩)
          fun _ => ⟨by rw [hxone], ?_⟩⟩
        · rw [hyone, Function.comp_apply, Equiv.swap_apply_right]
          rfl
        · rw [Function.comp_apply, Equiv.swap_apply_left]
          rfl

/-- A run that registers two clusters. -/
def twoClusters : List Step :=
  [⟨.createProvider ⟨{ name := "p" }⟩, {}⟩,
    ⟨.createCluster "p" ⟨{ name := "c" }⟩ {}, {}⟩,
    ⟨.createCluster "p" ⟨{ name := "k" }⟩ {}, {}⟩]

/-- Two clusters are applied in either order, with their ids exchanged. -/
theorem Reached.clusters_independent_bothApplied :
    ∃ supply, ClusterAction.Exchanges (.apply "p" "c" .never) (.apply "p" "k" .never)
        (History.after unaryId (some {}) twoClusters).world {} {} supply ∧
      ((ClusterAction.apply "p" "k" .never).run
        ((History.after unaryId (some {}) twoClusters).world.withSupply supply) {}).1 = .ok "aa" := by
  have hcalm : ({} : Circumstances).Undisturbed := ⟨rfl, rfl, rfl⟩
  have hreached : Reached unaryId (some {}) (History.after unaryId (some {}) twoClusters)
      fun _ => none :=
    Reached.start.steps twoClusters (by
      simp only [twoClusters, List.forall_mem_cons, List.not_mem_nil, false_implies, implies_true]
      exact ⟨hcalm, hcalm, hcalm, trivial⟩)
  have hsteadfast : ∀ start span, ({} : Circumstances).Steadfast .never start span :=
    Circumstances.steadfast_of_untimed _ nofun
  have hindependent := Reached.clusters_independent unaryId_valid hreached (.apply "p" "c" .never) hcalm
  obtain ⟨supply, -, hexchanged⟩ := hindependent.2 (.apply "p" "k" .never) {} (by decide) hcalm
    (hsteadfast _ _) (hsteadfast _ _)
  -- In the first order, the cluster comes second and gets the second id.
  have hsecond : ((ClusterAction.apply "p" "k" .never).run ((ClusterAction.apply "p" "c" .never).run
      (History.after unaryId (some {}) twoClusters).world {}).2 {}).1 = .ok "aa" := by
    decide +kernel
  exact ⟨supply, hexchanged, hexchanged.second.trans hsecond⟩

end NetIntent
