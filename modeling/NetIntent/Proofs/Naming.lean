import NetIntent.Proofs.Writes

namespace NetIntent

/-!
# Lookups by name

A lookup under names that are given finds what was stored last under exactly these names. The
patterns of the store would also let an empty name stand for any: each lookup has to refuse empty
names by itself, and two of them do not refuse all.

* `DocumentStore.exists_listed`, `declares_writing` — what a search for clusters or intents lists;
* `run_getClusters` — while the stores answer, they are listed;
* `FindsByName` — what a result of each lookup is, among the writes of a run;
* `World.findsByName` — the lookups on documents that come of lawful writes;
* `History.lookups_by_name` — the same in every state of every run;
* `History.lookup_without_names` — an intent that is found, and a cluster that is listed, under
  names under which nothing was stored.
-/

open Op Registry

namespace DocumentStore

variable {log : List Write} {p c : String}

/-- What is stored as intents is tidy. -/
theorem tidy_writing (hlog : ∀ w ∈ log, w.Lawful) : (empty.writing log).Tidy := by
  intro α _ kind p c n v hv
  obtain ⟨i, rfl, hname, -, -, hvalid⟩ :=
    (hlog _ ((value?_writing log).1 hv).mem).exists_intent kind
  exact ⟨i, rfl, hname, hvalid⟩

/-- The intents that are declared for a cluster are those that were stored last. -/
theorem mem_declared_iff {α : Type} [Intent α] (kind : IntentKind α) {intents : List α}
    (h : (empty.writing log).Declares p c intents) (i : α) :
    i ∈ intents ↔ (Write.intent p c i).Lasts log := by
  have := kind.lawful
  rw [Write.intent, ← value?_writing, h.1]
  constructor
  · exact fun hi => ⟨i, hi, rfl, rfl⟩
  · rintro ⟨j, hj, -, hsame⟩
    -- Documents of intents are read back, so that equal ones are of the same intent.
    have hread := congrArg (Intent.ofJson? (α := α)) hsame
    rw [LawfulIntent.ofJson?_toJson, LawfulIntent.ofJson?_toJson] at hread
    exact Option.some.inj hread ▸ hj

/-- A stored cluster tells which cluster it is. -/
theorem cluster_toJson_injective : Function.Injective Cluster.toJson := by
  intro a b h
  have hread := congrArg Cluster.ofJson? h
  rw [Cluster.ofJson?_toJson, Cluster.ofJson?_toJson] at hread
  exact Option.some.inj hread

/-- A search for clusters lists those that were stored last under a provider that the pattern
    covers, each once. -/
theorem exists_listed (hlog : ∀ w ∈ log, w.Lawful) (p : String) :
    ∃ listed : List (String × Cluster),
      ((empty.writing log).find Registry.store (clusterKey p "") metadataTag).mapM Cluster.ofJson?
        = some (listed.map (·.2)) ∧
      (listed.map fun e => (e.1, e.2.metadata.name)).Nodup ∧
      ∀ q k, (q, k) ∈ listed ↔ (p = "" ∨ q = p) ∧ (Write.cluster q k).Lasts log := by
  have hfiled : (empty.writing log).Filed := filed_empty.writing log
  -- Each row that is found is one that a cluster is stored as.
  have hrow : ∀ row ∈ (empty.writing log).rows Registry.store (clusterKey p "") metadataTag,
      ∃ e : String × Cluster, (clusterKey e.1 e.2.metadata.name, e.2.toJson) = row := by
    rintro ⟨key, v⟩ hmem
    obtain ⟨hcovers, hv⟩ := (mem_rows_iff hfiled).1 hmem
    obtain ⟨q, k, rfl, -, -⟩ := covers_clusterKey_iff.1 hcovers
    obtain ⟨cluster, rfl, rfl, -⟩ := (hlog _ ((value?_writing log).1 hv).mem).exists_cluster
    exact ⟨(q, cluster), rfl⟩
  have hrange : (empty.writing log).rows Registry.store (clusterKey p "") metadataTag ∈ Set.range
      (List.map fun e : String × Cluster => (clusterKey e.1 e.2.metadata.name, e.2.toJson)) := by
    rw [Set.range_list_map]
    exact hrow
  obtain ⟨listed, hlisted⟩ := hrange
  refine ⟨listed, ?_, ?_, ?_⟩
  · have hvalues : (empty.writing log).find Registry.store (clusterKey p "") metadataTag
        = (listed.map (·.2)).map Cluster.toJson := by
      rw [find_eq_rows, ← hlisted, List.map_map, List.map_map]
      rfl
    rw [hvalues]
    exact Json.list?_array_map fun k _ => k.ofJson?_toJson
  · -- the rows of different clusters have different keys
    have hpairwise := pairwise_rows hfiled Registry.store (clusterKey p "") metadataTag
    rw [← hlisted, List.pairwise_map] at hpairwise
    refine List.pairwise_map.2 (hpairwise.imp fun {a b} hlt heq => ?_)
    rw [(Prod.mk.inj heq).1, (Prod.mk.inj heq).2] at hlt
    exact String.lt_irrefl _ hlt
  · intro q k
    have hmem : (clusterKey q k.metadata.name, k.toJson)
        ∈ (empty.writing log).rows Registry.store (clusterKey p "") metadataTag ↔
          (p = "" ∨ q = p) ∧ (Write.cluster q k).Lasts log := by
      rw [mem_rows_iff hfiled, covers_clusterKey_iff, value?_writing]
      simp [Write.cluster]
    rw [← hmem, ← hlisted, List.mem_map]
    constructor
    · exact fun he => ⟨(q, k), he, rfl⟩
    · rintro ⟨⟨q', k'⟩, he, hsame⟩
      obtain ⟨hkey, hvalue⟩ := Prod.mk.inj hsame
      obtain rfl := cluster_toJson_injective hvalue
      obtain rfl : q' = q := (clusterKey_inj.1 hkey).1
      exact he

end DocumentStore

/-- While the stores answer, the clusters are listed. -/
theorem run_getClusters {w : World} {log : List Write} (hw : w.Undisturbed)
    (hlog : ∀ write ∈ log, write.Lawful) (hdocuments : w.documents = .writing .empty log)
    (p : String) :
    ∃ listed : List (String × Cluster), (getClusters p).run w = (.ok (listed.map (·.2)), w) ∧
      ∀ q k, (q, k) ∈ listed ↔ (p = "" ∨ q = p) ∧ (Write.cluster q k).Lasts log := by
  obtain ⟨listed, hlisted, -, hmem⟩ := DocumentStore.exists_listed hlog p
  refine ⟨listed, ?_, hmem⟩
  unfold getClusters findAll
  rw [run_bind_ok (run_findDocuments hw _ _ _), hdocuments, hlisted]
  rfl

/-! ### What lookups find -/

/-- A result that is read agrees with the world. -/
theorem Op.Reads.of_ok {α : Type} {op : Op α} {P : World → α → Prop} {w : World} {a : α}
    (h : op.Reads P) (hw : w.Faithful) (hok : (op.run w).1 = .ok a) : P w.calm a :=
  (h w hw).2 a hok

/-- What the lookups find in a world was written last under the names that they were given. Only an
    intent may be found under any provider or cluster if these names are left empty, and clusters
    are listed of all providers if the provider is. -/
structure FindsByName (w : World) (log : List Write) : Prop where
  provider : ∀ p a, ((getProvider p).run w).1 = .ok a →
    a.metadata.name = p ∧ (Write.provider a).Lasts log
  cluster : ∀ p c a, ((getCluster p c).run w).1 = .ok a →
    a.metadata.name = c ∧ (Write.cluster p a).Lasts log
  content : ∀ p c a, ((getClusterContent p c).run w).1 = .ok a → (Write.content p c a).Lasts log
  ledger : ∀ p c l, ((getLedger p c).run w).1 = .ok l → (Write.ledger p c l).Lasts log
  intent : ∀ (α : Type) [Intent α], IntentKind α → ∀ n p c i,
    ((Intent.get α n p c).run w).1 = .ok i → Intent.name i = n ∧
      ∃ q k, (p = "" ∨ q = p) ∧ (c = "" ∨ k = c) ∧ (Write.intent q k i).Lasts log
  clusters : ∀ p found, ((getClusters p).run w).1 = .ok found →
    ∃ listed : List (String × Cluster), found = listed.map (·.2) ∧
      (listed.map fun e => (e.1, e.2.metadata.name)).Nodup ∧
      ∀ q k, (q, k) ∈ listed ↔ (p = "" ∨ q = p) ∧ (Write.cluster q k).Lasts log
  intents : ∀ (α : Type) [Intent α], IntentKind α → ∀ p c found,
    ((Intent.getAll α p c).run w).1 = .ok found →
      (found.map Intent.name).Nodup ∧ ∀ i, i ∈ found ↔ (Write.intent p c i).Lasts log

/-- The lookups find what was written last, where what was written is lawful. -/
theorem World.findsByName {w : World} {log : List Write} (hw : w.Faithful)
    (hlog : ∀ write ∈ log, write.Lawful) (hdocuments : w.documents = .writing .empty log) :
    FindsByName w log := by
  have hfiled : (DocumentStore.empty.writing log).Filed := DocumentStore.filed_empty.writing log
  have hcalm : w.calm.documents = DocumentStore.empty.writing log := hdocuments
  constructor
  case provider =>
    intro p a hok
    obtain ⟨-, hread⟩ := (getProvider_reads p).of_ok hw hok
    rw [hcalm] at hread
    obtain ⟨⟨rfl, -⟩, hlasts⟩ := (DocumentStore.provider_writing_iff hlog).1 (hread hfiled)
    exact ⟨rfl, hlasts⟩
  case cluster =>
    intro p c a hok
    obtain ⟨-, -, hread⟩ := (getClusterTag_reads _ _ _ p c).of_ok hw hok
    rw [hcalm] at hread
    obtain ⟨⟨rfl, -⟩, hlasts⟩ := (DocumentStore.cluster_writing_iff hlog).1 (hread hfiled)
    exact ⟨rfl, hlasts⟩
  case content =>
    intro p c a hok
    obtain ⟨-, -, hread⟩ := (getClusterTag_reads _ _ _ p c).of_ok hw hok
    rw [hcalm] at hread
    exact ((DocumentStore.content_writing_iff hlog).1 (hread hfiled)).2
  case ledger =>
    intro p c l hok
    obtain ⟨-, -, hread⟩ := (getLedger_reads p c).of_ok hw hok
    rw [hcalm] at hread
    exact ((DocumentStore.ledger_writing_iff hlog).1 (hread hfiled)).2
  case intent =>
    intro α _ kind n p c i hok
    have := kind.lawful
    obtain ⟨hn, hread⟩ := (Intent.get_reads n p c).of_ok hw hok
    rw [hcalm] at hread
    obtain ⟨v, hv, hdecoded⟩ := Option.bind_eq_some_iff.1 hread
    -- The first row that is found is under a key that the pattern covers.
    obtain ⟨key, hcovers, hv⟩ := DocumentStore.exists_of_head?_find hfiled hv
    obtain ⟨q, k, m, rfl, hq, hk, hm⟩ := Intent.covers_iff.1 hcovers
    have hlasts := (DocumentStore.value?_writing log).1 hv
    obtain ⟨j, rfl, rfl, -⟩ := (hlog _ hlasts.mem).exists_intent kind
    rw [LawfulIntent.ofJson?_toJson] at hdecoded
    obtain rfl := Option.some.inj hdecoded
    exact ⟨hm.resolve_left hn, q, k, hq, hk, hlasts⟩
  case clusters =>
    intro p found hok
    have hread := (findAll_reads Cluster.ofJson? (clusterKey p "") metadataTag).of_ok hw hok
    obtain ⟨listed, hlisted, hnodup, hmem⟩ := DocumentStore.exists_listed hlog p
    rw [hcalm, hlisted] at hread
    exact ⟨listed, (Option.some.inj hread).symm, hnodup, hmem⟩
  case intents =>
    intro α _ kind p c found hok
    obtain ⟨hp, hc, hread⟩ := (Intent.getAll_reads p c).of_ok hw hok
    rw [hcalm] at hread
    have hdeclared := DocumentStore.declares_of_find hfiled (DocumentStore.tidy_writing hlog) kind
      hp hc hread
    exact ⟨hdeclared.nodup_names, DocumentStore.mem_declared_iff kind hdeclared⟩

namespace History

variable {ids : Nat → String} {synchronizer : Option Synchronizer}

/-- **Lookups by name.** In every state of every run and under all circumstances, what a lookup
    finds is what the operations of the run have stored last under the given names, and have not
    removed since. The lists are complete, and hold everything once. An empty name is refused, or
    nothing was stored under it; except that a lookup of one intent takes an empty provider or
    cluster for any, and a list of clusters an empty provider. -/
theorem lookups_by_name (ids : Nat → String) (synchronizer : Option Synchronizer)
    (steps : List Step) (circumstances : Circumstances) :
    FindsByName ((after ids synchronizer steps).world.under circumstances)
      (log ids synchronizer steps) := by
  obtain ⟨hlog, hdocuments⟩ := documents_after ids synchronizer steps
  exact World.findsByName (World.faithful_under _ circumstances) hlog hdocuments

/-- A run that declares a network on a cluster. -/
def namedNetwork : List Step :=
  [⟨.createProvider ⟨{ name := "p" }⟩, {}⟩,
    ⟨.createCluster "p" ⟨{ name := "c" }⟩ {}, {}⟩,
    ⟨.createNetwork ⟨{ name := "n" }, "ovn4nfv", []⟩ "p" "c" false, {}⟩]

/-- The network is found without naming its provider and its cluster, and the cluster is listed
    without naming its provider, though nothing was stored under the names that were given. -/
theorem lookup_without_names :
    (∃ i, ((Intent.get Network "n" "" "").run
        ((after unaryId (some {}) namedNetwork).world.under {})).1 = .ok i ∧
      ¬ (Write.intent "" "" i).Lasts (log unaryId (some {}) namedNetwork)) ∧
    ∃ found, ((getClusters "").run
        ((after unaryId (some {}) namedNetwork).world.under {})).1 = .ok found ∧
      ∃ k ∈ found, ¬ (Write.cluster "" k).Lasts (log unaryId (some {}) namedNetwork) := by
  obtain ⟨hlog, -⟩ := documents_after unaryId (some {}) namedNetwork
  refine ⟨⟨⟨{ name := "n" }, "ovn4nfv", []⟩, by decide, fun hlasts => ?_⟩,
    [⟨{ name := "c" }⟩], by decide, ⟨{ name := "c" }⟩, List.mem_singleton_self _,
    fun hlasts => ?_⟩
  · obtain ⟨-, -, -, hp, -⟩ := (hlog _ hlasts.mem).exists_intent .network
    exact hp rfl
  · obtain ⟨-, -, -, hp, -⟩ := (hlog _ hlasts.mem).exists_cluster
    exact hp rfl

end History

end NetIntent
