import NetIntent.Proofs.Run
import NetIntent.Proofs.Undisturbed

namespace NetIntent

/-!
# What operations do to the documents while the stores answer

While the stores answer, an operation that fails has changed no documents, unless it fails after the
request to install. A success changes them in one way.

* `Action.Effect` — all that one operation can do to the documents, with its answer;
* `Action.effect` — each operation does one of these.
-/

open Op Registry

/-- All that one operation does to the documents while the stores answer, with its answer. -/
inductive Action.Effect (a : Action) (d : DocumentStore) :
    Except Failure Unit → DocumentStore → Prop
  /-- It fails, and nothing is changed. -/
  | failed (e : Failure) : Effect a d (.error e) d
  /-- Something is looked up. -/
  | looked (r : Except Failure Unit) {lookup : Lookup} (ha : a = .look lookup) : Effect a d r d
  /-- A provider is registered. -/
  | provider {p : Provider} (ha : a = .createProvider p) (hvalid : p.metadata.validate = .ok ()) :
      Effect a d (.ok ())
        (d.insert Registry.store (providerKey p.metadata.name) metadataTag p.toJson)
  /-- A provider is deleted. -/
  | providerRemoved {p : String} (ha : a = .deleteProvider p) :
      Effect a d (.ok ()) (d.remove Registry.store (providerKey p))
  /-- A cluster with a new ledger is registered under a provider that is there. -/
  | begun {p : String} {c : Cluster} {content : ClusterContent} {time : Timestamp}
      (ha : a = .createCluster p c content) (hvalid : c.metadata.validate = .ok ())
      (hprovider : ∃ v, d.value? Registry.store (providerKey p) metadataTag = some v)
      (hfree : d.value? Registry.store (clusterKey p c.metadata.name) metadataTag = none)
      (htime : time.IsValid) : Effect a d (.ok ()) (d.begun p c content time)
  /-- A cluster is deleted. -/
  | removed {p c : String} (ha : a = .deleteCluster p c) :
      Effect a d (.ok ()) (d.remove Registry.store (clusterKey p c))
  /-- An intent is stored. -/
  | declared {α : Type} [Intent α] (kind : IntentKind α) (i : α) {p c : String}
      (ha : (∃ n mayExist, a = .createNetwork n p c mayExist) ∨
        ∃ n mayExist, a = .createProviderNetwork n p c mayExist) (hopen : d.Open p c) :
      Effect a d (.ok ()) (d.insert Registry.store (Intent.key α p c (Intent.name i))
        (Intent.tag α) (Intent.toJson i))
  /-- An intent is removed. -/
  | withdrawn {α : Type} [Intent α] (kind : IntentKind α) (n : String) {p c : String}
      (ha : a = .deleteNetwork n p c ∨ a = .deleteProviderNetwork n p c) :
      Effect a d (.ok ()) (d.remove Registry.store (Intent.key α p c n))
  /-- The ledger of a cluster is extended. The answer is that of the request to install, or tells
      that the intents are terminated. -/
  | recorded (r : Except Failure Unit) {p c : String} (l : Ledger)
      (ha : (∃ cancellation, a = .apply p c cancellation) ∨
        ∃ cancellation, a = .terminate p c cancellation) :
      Effect a d r (d.withLedger p c l)

section

variable {α : Type} {a : Action} {w : World} {p c : String}

/-- An operation that changes the documents once, or not at all, has the effect of that change. -/
theorem effect_of_atomic {op : Op α} {edits : World → DocumentStore → Prop} (h : op.Atomic edits)
    (hw : w.Undisturbed) (hedit : ∀ d, edits w d → a.Effect w.documents (.ok ()) d) :
    op.void.Ensures w fun r w' => a.Effect w.documents r w'.documents := by
  refine void_ensures ((h w hw.faithful).mono fun r w' hr => ?_)
  rw [hw.calm] at hr
  rcases hr with ⟨e, rfl, hquiet⟩ | ⟨b, d, rfl, hd, hquiet⟩
  · rw [hquiet.documents]
    exact .failed e
  · rw [hquiet.documents]
    exact hedit d hd

/-- A lookup has no effect on the documents. -/
theorem Lookup.effect (lookup : Lookup) (hw : w.Undisturbed) :
    lookup.perform.Ensures w fun r w' => (Action.look lookup).Effect w.documents r w'.documents := by
  refine (lookup.readOnly w hw.faithful).mono fun r w' hr => ?_
  rw [hr.1.documents]
  exact .looked r rfl

/-- Creating a cluster stores its three documents, or fails at once. -/
theorem createCluster_effect {cluster : Cluster} {content : ClusterContent}
    (ha : a = .createCluster p cluster content) (hw : w.Undisturbed) (hfiled : w.documents.Filed)
    (hnow : w.now.IsValid) :
    (createCluster p cluster content).void.Ensures w fun r w' =>
      a.Effect w.documents r w'.documents := by
  refine void_ensures ((createCluster_undisturbed p cluster content hw hfiled).mono fun r w' h => ?_)
  rcases h with ⟨⟨e, rfl⟩, rfl⟩ | ⟨rfl, hvalid, hprovider, hfree, rfl⟩
  · exact .failed e
  · exact .begun ha hvalid hprovider hfree hnow

/-- Deleting a cluster removes its document, or leaves the documents. -/
theorem deleteCluster_effect (ha : a = .deleteCluster p c) (hw : w.Undisturbed) :
    (deleteCluster p c).void.Ensures w fun r w' => a.Effect w.documents r w'.documents := by
  refine void_ensures ((deleteCluster_ensures p c hw.faithful).mono fun r w' h => ?_)
  rcases h with ⟨⟨e, rfl⟩, hquiet⟩ | ⟨l, live, -, ⟨⟨e, rfl⟩, done, -, hquiet⟩ | ⟨rfl, hquiet⟩⟩
  · rw [hquiet.documents]
    exact .failed e
  · rw [hquiet.documents]
    exact .failed e
  · rw [hquiet.documents]
    exact .removed ha

/-- Applying writes the ledger, or leaves the documents. -/
theorem Deployment.apply_effect {cancellation : Cancellation} (ha : a = .apply p c cancellation)
    (hw : w.Undisturbed) :
    (Deployment.apply p c cancellation).void.Ensures w fun r w' =>
      a.Effect w.documents r w'.documents := by
  refine void_ensures ((commit_ensures p c hw.faithful).bind ?_ ?_)
  · intro id w₁ hout
    rcases hout with _ | _ | _ | ⟨-, -, hquiet⟩
    -- The request changes no documents, whatever its answer is.
    refine (ask_ensures .install _ cancellation).bind ?_ ?_
    · intro u w₂ hout
      refine ensures_pure ?_
      rw [show w₂.documents = w₁.documents from congrArg Stores.documents hout.1, hquiet.documents]
      exact .recorded _ _ (.inl ⟨cancellation, ha⟩)
    · intro e w₂ hout
      rw [show w₂.documents = w₁.documents from congrArg Stores.documents hout.1, hquiet.documents]
      exact .recorded _ _ (.inl ⟨cancellation, ha⟩)
  · intro e w₁ hout
    rcases hout with ⟨-, hquiet⟩ | ⟨-, -, hquiet⟩ | ⟨-, hquiet⟩ | _
    all_goals
      rw [hquiet.documents]
      exact .failed _

/-- Terminating writes the ledger, or leaves the documents. -/
theorem Deployment.terminate_effect {cancellation : Cancellation}
    (ha : a = .terminate p c cancellation) (hw : w.Undisturbed) :
    (Deployment.terminate p c cancellation).void.Ensures w fun r w' =>
      a.Effect w.documents r w'.documents := by
  refine void_ensures ((terminate_ensures p c cancellation hw.faithful).mono fun r w' h => ?_)
  rcases h with ⟨⟨e, rfl⟩, hstores⟩ | ⟨l, s, -, -, -, -, rfl, -, hstores⟩
  · rw [show w'.documents = w.documents from congrArg Stores.documents hstores]
    exact .failed e
  · rw [show w'.documents = _ from congrArg Stores.documents hstores]
    exact .recorded _ _ (.inr ⟨cancellation, ha⟩)

section Intents

variable [Intent α]

/-- Creating an intent stores it while the cluster is not in use, or leaves the documents. -/
theorem Intent.create_effect (kind : IntentKind α) (i : α) (mayExist : Bool)
    (ha : (∃ n mayExist, a = .createNetwork n p c mayExist) ∨
      ∃ n mayExist, a = .createProviderNetwork n p c mayExist)
    (hw : w.Undisturbed) (hfiled : w.documents.Filed) :
    (Intent.create i p c mayExist).void.Ensures w fun r w' =>
      a.Effect w.documents r w'.documents := by
  refine effect_of_atomic (Intent.create_atomic i p c mayExist) hw fun d hd => ?_
  obtain ⟨-, -, hopen, -, rfl⟩ := hd
  exact .declared kind i ha (hopen hfiled)

/-- Deleting an intent removes it, or leaves the documents. -/
theorem Intent.delete_effect (kind : IntentKind α) {n : String}
    (ha : a = .deleteNetwork n p c ∨ a = .deleteProviderNetwork n p c) (hw : w.Undisturbed) :
    (Intent.delete α n p c).void.Ensures w fun r w' => a.Effect w.documents r w'.documents := by
  refine effect_of_atomic (Intent.delete_atomic n p c) hw fun d hd => ?_
  obtain ⟨-, -, -, -, rfl⟩ := hd
  exact .withdrawn kind n ha

end Intents

/-- Whatever an operation does to the documents while the stores answer is one of the effects. -/
theorem Action.effect (a : Action) (hw : w.Undisturbed) (hfiled : w.documents.Filed)
    (hnow : w.now.IsValid) :
    a.perform.Ensures w fun r w' => a.Effect w.documents r w'.documents := by
  cases a with
  | createProvider p =>
    refine effect_of_atomic (createProvider_atomic p) hw fun d hd => ?_
    obtain ⟨hvalid, rfl⟩ := hd
    exact .provider rfl hvalid
  | deleteProvider p =>
    refine effect_of_atomic (deleteProvider_atomic p) hw fun d hd => ?_
    obtain ⟨-, rfl⟩ := hd
    exact .providerRemoved rfl
  | createCluster p c content => exact createCluster_effect rfl hw hfiled hnow
  | deleteCluster p c => exact deleteCluster_effect rfl hw
  | createNetwork n p c mayExist =>
    exact Intent.create_effect .network n mayExist (.inl ⟨n, mayExist, rfl⟩) hw hfiled
  | deleteNetwork n p c => exact Intent.delete_effect .network (.inl rfl) hw
  | createProviderNetwork n p c mayExist =>
    exact Intent.create_effect .providerNetwork n mayExist (.inr ⟨n, mayExist, rfl⟩) hw hfiled
  | deleteProviderNetwork n p c => exact Intent.delete_effect .providerNetwork (.inr rfl) hw
  | apply p c cancellation => exact Deployment.apply_effect rfl hw
  | terminate p c cancellation => exact Deployment.terminate_effect rfl hw
  | look lookup => exact lookup.effect hw

end

end NetIntent
