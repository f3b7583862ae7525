import NetIntent.Proofs.ContextReport

namespace NetIntent

/-!
# Resources of a cluster by their keys

Whether a node is a resource of a cluster is decided by the steps of its handle. It can as well be
told from its key: after the key of the cluster stand the word of the level and two texts, joined by
a plus sign.

* `Handle.isResourceName_iff` — the names of resources are such pairs;
* `Handle.key_push` — what a step adds to a key;
* `Handle.Canonical.not_endsBare_of_push` — no step leads from a bare leaf to a canonical handle;
* `Handle.isResourceOf_iff_key` — the steps and the key tell the same.
-/

namespace Handle

/-- A text without a plus sign and without a slash. -/
def IsPart (text : String) : Prop := '+' ∉ text.toList ∧ IsWord text

/-- What the key of a resource adds to the key of its cluster. -/
def resourceSuffix (name kind : String) : String := "resource/" ++ name ++ "+" ++ kind ++ "/"

/-- The names of resources are pairs of texts without plus signs, joined by one. -/
theorem isResourceName_iff {text : String} :
    isResourceName text = true ↔
      ∃ name kind, '+' ∉ name.toList ∧ '+' ∉ kind.toList ∧ text = name ++ separator ++ kind := by
  constructor
  · intro hname
    -- between two pieces stands one plus sign, and what is around it has none
    have hcount : text.toList.count '+' = 1 := by
      have htwo : (Text.splitAt '+' text).length = 2 := of_decide_eq_true hname
      rw [Text.splitAt, List.length_map, Text.length_pieces] at htwo
      omega
    have hmem : '+' ∈ text.toList := List.count_pos_iff.1 (by omega)
    obtain ⟨name, kind, htext, hbefore⟩ := List.eq_append_cons_of_mem hmem
    have hafter : '+' ∉ kind := by
      rw [htext, List.count_append, List.count_cons_self, List.count_eq_zero.2 hbefore] at hcount
      exact List.count_eq_zero.1 (by omega)
    refine ⟨String.ofList name, String.ofList kind, by simpa using hbefore, by simpa using hafter, ?_⟩
    rw [← String.toList_inj, toList_joined, String.toList_ofList, String.toList_ofList, htext]
  · rintro ⟨name, kind, hname, hkind, rfl⟩
    exact isResourceName_joined hname hkind

/-- Two texts with a plus sign between them have no slash just if neither of them has one. -/
theorem isWord_joined {a b : String} : IsWord (a ++ separator ++ b) ↔ IsWord a ∧ IsWord b := by
  rw [IsWord, toList_joined]
  simp [IsWord, not_or]

/-- A step adds its words to the key. -/
theorem key_push (h : Handle) (s : Segment) :
    (h.push s).key = h.key ++ String.ofList (joinWords s.words) := by
  rw [← String.toList_inj, String.toList_append, toList_key, toList_key, String.toList_ofList,
    words_push, joinWords_append, List.append_assoc]

/-- The key of a resource is that of its cluster, followed by the name and the kind. -/
theorem key_resource (cluster : Handle) (name kind : String) :
    (cluster.child "resource" (name ++ separator ++ kind)).key
      = cluster.key ++ resourceSuffix name kind := by
  rw [child, key_push, ← String.toList_inj]
  simp [joinWords, Segment.words, resourceSuffix, separator]

variable {h cluster : Handle}

/-- No step leads from a bare leaf to a canonical handle. -/
theorem Canonical.not_endsBare_of_push {s : Segment} (hh : (h.push s).Canonical) : ¬ h.EndsBare := by
  rintro ⟨last, hlast, hbare⟩
  have hmem : last ∈ (h.push s).segments.dropLast := by
    rw [Handle.push, List.dropLast_concat]
    exact List.mem_of_getLast? hlast
  exact hh.bare_last last hmem hbare

/-- A canonical handle is that of a resource of the cluster just if its name is joined from two parts
    of words, and the cluster does not end in a bare leaf. -/
theorem Canonical.isResourceOf_iff (hh : h.Canonical) :
    h.isResourceOf cluster = true ↔ ¬ cluster.EndsBare ∧
      ∃ name kind, IsPart name ∧ IsPart kind ∧
        h = cluster.child "resource" (name ++ separator ++ kind) := by
  rw [Handle.isResourceOf_iff]
  constructor
  · rintro ⟨text, rfl, htext⟩
    have hsound : (Segment.level "resource" text).Sound :=
      hh.sound _ (by simp [Handle.child, Handle.push])
    obtain ⟨name, kind, hname, hkind, rfl⟩ := isResourceName_iff.1 htext
    obtain ⟨hnameword, hkindword⟩ := isWord_joined.1 hsound.2.2.1
    exact ⟨hh.not_endsBare_of_push, name, kind, ⟨hname, hnameword⟩, ⟨hkind, hkindword⟩, rfl⟩
  · rintro ⟨-, name, kind, hname, hkind, heq⟩
    exact ⟨_, heq, isResourceName_joined hname.1 hkind.1⟩

/-- **Resources are told by their keys.** For all handles that are read from keys, where the cluster
    does not end in a bare leaf: a node is a resource of the cluster just if its key is that of the
    cluster, followed by the word of the level and by two texts without plus signs and slashes that
    are joined by a plus sign. Where the cluster does end in a bare leaf, no such node is a resource
    of it. -/
theorem isResourceOf_iff_key {clusterKey key : String} (hcluster : parse clusterKey = .ok cluster)
    (hkey : parse key = .ok h) :
    (¬ cluster.EndsBare → (h.isResourceOf cluster = true ↔
      ∃ name kind : String,
        ('+' ∉ name.toList ∧ '/' ∉ name.toList) ∧ ('+' ∉ kind.toList ∧ '/' ∉ kind.toList) ∧
        h.key = cluster.key ++ "resource/" ++ name ++ "+" ++ kind ++ "/")) ∧
    (cluster.EndsBare → h.isResourceOf cluster = false) := by
  have hh : h.Canonical := (canonical_of_parse hkey).1
  have hc : cluster.Canonical := (canonical_of_parse hcluster).1
  constructor
  · intro hend
    rw [hh.isResourceOf_iff, and_iff_right hend]
    refine exists_congr fun name => exists_congr fun kind => and_congr_right fun hname =>
      and_congr_right fun hkind => ?_
    -- Canonical handles are the same just if their keys are.
    have hsuffix : cluster.key ++ resourceSuffix name kind
        = cluster.key ++ "resource/" ++ name ++ "+" ++ kind ++ "/" := by
      simp only [resourceSuffix, String.append_assoc]
    have hsound := Segment.sound_joined (l := "resource") (by decide) hname.2 hkind.2
    rw [← hsuffix, ← key_resource, key_inj hh (hc.child hend hsound).1]
  · intro hend
    rw [Bool.eq_false_iff, ne_eq, hh.isResourceOf_iff]
    exact fun hres => hres.1 hend

/-- A resource of a cluster is told by its key. Below the bare leaf of a level the same words are read
    as a named node and a leaf, which is no resource of it. -/
theorem isResourceOf_iff_key_configMap :
    ((clusterHandle "1" "p+c").child "resource" "n+ConfigMap").isResourceOf (clusterHandle "1" "p+c")
        = true ∧
    (∃ name kind : String,
      ('+' ∉ name.toList ∧ '/' ∉ name.toList) ∧ ('+' ∉ kind.toList ∧ '/' ∉ kind.toList) ∧
      ((clusterHandle "1" "p+c").child "resource" "n+ConfigMap").key
        = (clusterHandle "1" "p+c").key ++ "resource/" ++ name ++ "+" ++ kind ++ "/") ∧
    (((root "1").child "app" "resource").leaf "n+ConfigMap").key
      = ((root "1").leaf "app").key ++ "resource/" ++ "n" ++ "+" ++ "ConfigMap" ++ "/" ∧
    (((root "1").child "app" "resource").leaf "n+ConfigMap").isResourceOf ((root "1").leaf "app")
      = false := by
  have hcluster : parse "/context/1/app/network-intents/cluster/p+c/"
      = .ok (clusterHandle "1" "p+c") := by decide +kernel
  have hresource : parse "/context/1/app/network-intents/cluster/p+c/resource/n+ConfigMap/"
      = .ok ((clusterHandle "1" "p+c").child "resource" "n+ConfigMap") := by decide +kernel
  have hbare : parse "/context/1/app/" = .ok ((root "1").leaf "app") := by decide +kernel
  have hbelow : parse "/context/1/app/resource/n+ConfigMap/"
      = .ok (((root "1").child "app" "resource").leaf "n+ConfigMap") := by decide +kernel
  have hgrammar := (isResourceOf_iff_key hcluster hresource).1 (by decide)
  have hres : ((clusterHandle "1" "p+c").child "resource" "n+ConfigMap").isResourceOf
      (clusterHandle "1" "p+c") = true := by decide
  exact ⟨hres, hgrammar.1 hres, by decide +kernel, (isResourceOf_iff_key hbare hbelow).2 (by decide)⟩

end Handle

end NetIntent
