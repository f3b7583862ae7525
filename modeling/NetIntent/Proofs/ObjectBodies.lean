import NetIntent.Proofs.Records
import NetIntent.Report.Gather

namespace NetIntent

/-!
# The bodies of objects

An object is taken apart into the members that are looked at and all others, and so are its
metadata. The body of a report puts both together again, at both levels.

* `Json.normalize_normalize` — a value that was put in order is in order;
* `Json.given?` — what a value holds under a name;
* `Json.takenApart?`, `Json.TakenApart` — the two parts of a value, and what they hold;
* `Json.member?_merged`, `Json.takenApart?_merged` — what is put together holds both parts, and is
  taken apart into them again;
* `Gvk.ofApiVersion_spec` — group and version are the parts around the last slash;
* `KubeObject.body_complete` — a reported body lacks nothing that was given.
-/

/-! ### Values in order -/

namespace Json

/-- Members are put in order value by value. -/
theorem normalizeMembers_eq_map (members : List (String × Json)) :
    normalizeMembers members = members.map fun m => (m.1, m.2.normalize) := by
  induction members with
  | nil => rfl
  | cons m members ih => rw [normalizeMembers, ih, List.map_cons]

/-- A name is found among members in order as it is among the members. -/
theorem lookup_normalizeMembers (key : String) (members : List (String × Json)) :
    OrderedMap.lookup key (normalizeMembers members)
      = (OrderedMap.lookup key members).map normalize := by
  induction members with
  | nil => rfl
  | cons m members ih =>
    obtain ⟨k, v⟩ := m
    by_cases hk : k = key <;> simp [normalizeMembers, OrderedMap.lookup, hk, ih]

/-- An object of values in order is in order. -/
theorem normalize_ofMembers {members : List (String × Json)}
    (h : ∀ m ∈ members, m.2.normalize = m.2) :
    (ofMembers members).normalize = ofMembers members := by
  have hsame : normalizeMembers (sortMembers members) = sortMembers members := by
    rw [normalizeMembers_eq_map]
    refine (List.map_congr_left fun m hm => ?_).trans (List.map_id _)
    rw [h m (mem_sortMembers hm)]
    rfl
  rw [ofMembers, normalize, hsame, ofMembers, sortMembers_eq members, sortMembers_entries]

mutual

/-- A value that was put in order is in order. -/
theorem normalize_normalize : ∀ v : Json, v.normalize.normalize = v.normalize
  | .null => rfl
  | .bool _ => rfl
  | .number _ => rfl
  | .string _ => rfl
  | .array items => by
    rw [normalize, normalize, normalizeItems_normalizeItems items]
  | .object members => by
    rw [normalize]
    exact normalize_ofMembers (normalize_of_mem_normalizeMembers members)

/-- A list of values that were put in order is in order. -/
theorem normalizeItems_normalizeItems :
    ∀ items : List Json, normalizeItems (normalizeItems items) = normalizeItems items
  | [] => rfl
  | v :: items => by
    rw [normalizeItems, normalizeItems, normalize_normalize v, normalizeItems_normalizeItems items]

/-- The values of members that were put in order are in order. -/
theorem normalize_of_mem_normalizeMembers :
    ∀ members : List (String × Json), ∀ m ∈ normalizeMembers members, m.2.normalize = m.2
  | [], m, hm => nomatch hm
  | (k, v) :: members, m, hm => by
    rw [normalizeMembers] at hm
    rcases List.mem_cons.1 hm with rfl | hm
    · exact normalize_normalize v
    · exact normalize_of_mem_normalizeMembers members m hm

end

/-! ### What a value holds -/

/-- What a value holds under a name. Of several members with the name the last counts. -/
def given? (v : Json) (name : String) : Option Json := v.normalize.member? name

/-- What an object holds is a map of its members, put in order. -/
theorem given?_object (members : List (String × Json)) (name : String) :
    (Json.object members).given? name
      = (OrderedMap.ofList (normalizeMembers members)).get? name := by
  rw [given?, normalize, ofMembers, member?, sortMembers_eq]
  rfl

/-- What a value holds is in order. -/
theorem normalize_of_given? {v w : Json} {name : String} (h : v.given? name = some w) :
    w.normalize = w := by
  cases v with
  | object members =>
    rw [given?_object, OrderedMap.get?_eq_some_iff, ← sortMembers_eq] at h
    exact normalize_of_mem_normalizeMembers members _ (mem_sortMembers h)
  | _ => exact nomatch h

/-! ### Taken apart -/

/-- It does not matter whether members are left out before or after the others are put in order. -/
theorem normalizeMembers_filter (passes : String → Bool) (members : List (String × Json)) :
    normalizeMembers (members.filter fun m => passes m.1)
      = (normalizeMembers members).filter fun m => passes m.1 := by
  rw [normalizeMembers_eq_map, normalizeMembers_eq_map, List.filter_map]
  rfl

/-- To put the values in order changes no name. -/
theorem keys_normalizeMembers (members : List (String × Json)) :
    (normalizeMembers members).map (·.1) = members.map (·.1) := by
  rw [normalizeMembers_eq_map, List.map_map]
  rfl

/-- A value taken apart: its fields under the names, and everything else that it holds. -/
def takenApart? (names : List String) :
    Json → Option (List (String × Json) × OrderedMap Json)
  | .object members => (knownMembers? names members).map fun fields =>
      (fields, .ofList (normalizeMembers (otherMembers names members)))
  | _ => none

/-- Both parts hold what the value holds, and nothing else. -/
structure TakenApart (names : List String) (v : Json) (fields : List (String × Json))
    (others : OrderedMap Json) : Prop where
  given?_known : ∀ name ∈ names, v.given? name = (OrderedMap.lookup name fields).map normalize
  get?_known : ∀ name ∈ names, others.get? name = none
  get?_others : ∀ name ∉ names, others.get? name = v.given? name

/-- A value that can be taken apart is so by its names. -/
theorem takenApart_of_eq_some {names : List String} {v : Json} {fields : List (String × Json)}
    {others : OrderedMap Json} (h : takenApart? names v = some (fields, others)) :
    TakenApart names v fields others := by
  cases v with
  | object members =>
    obtain ⟨_, hknown, heq⟩ := Option.map_eq_some_iff.1 h
    cases heq
    rw [knownMembers?_eq] at hknown
    obtain ⟨hnodup, hfields⟩ := Option.ite_none_right_eq_some.1 hknown
    cases hfields
    refine ⟨fun name hname => ?_, fun name hname => ?_, fun name hname => ?_⟩
    · -- no later member has the same name
      have hpasses : names.contains name = true := List.contains_iff_mem.2 hname
      rw [given?_object, OrderedMap.ofList_eq,
        ← OrderedMap.get?_insertAll_filter hpasses, ← normalizeMembers_filter,
        OrderedMap.get?_insertAll_of_nodup (by rwa [keys_normalizeMembers]),
        lookup_normalizeMembers, OrderedMap.get?_empty, Option.or_none]
    · refine OrderedMap.get?_insertAll_of_notMem (fun hmem => ?_) _
      rw [keys_normalizeMembers] at hmem
      obtain ⟨m, hm, rfl⟩ := List.mem_map.1 hmem
      simp [otherMembers, hname] at hm
    · let passes := fun key => !names.contains key
      have hpasses : passes name = true := by simpa [passes] using hname
      rw [given?_object, OrderedMap.ofList_eq, OrderedMap.ofList_eq,
        otherMembers, normalizeMembers_filter passes]
      exact OrderedMap.get?_insertAll_filter hpasses _ _
  | _ => exact nomatch h

/-! ### Put together again -/

section Merged

variable {names : List String} {front : List (String × Json)} {others : OrderedMap Json}

/-- What is put together holds both parts; of two members with one name the second part's counts. -/
theorem member?_merged (hfront : (front.map (·.1)).Nodup) (name : String) :
    (ofMembers (front ++ others.entries)).member? name
      = (others.get? name).or (OrderedMap.lookup name front) := by
  have hothers : (others.entries.map (·.1)).Nodup := others.nodup_keys
  rw [ofMembers, member?, sortMembers_eq]
  change (OrderedMap.insertAll .empty (front ++ others.entries)).get? name = _
  rw [OrderedMap.insertAll_append, OrderedMap.get?_insertAll_of_nodup hothers,
    OrderedMap.get?_insertAll_of_nodup hfront, OrderedMap.get?_empty, Option.or_none]
  rfl

/-- What is put together is taken apart into the same parts. -/
theorem takenApart?_merged (hfront : (front.map (·.1)).Nodup)
    (hnames : ∀ name ∈ front.map (·.1), name ∈ names)
    (hothers : ∀ name ∈ names, others.get? name = none)
    (hmerged : (ofMembers (front ++ others.entries)).normalize
      = ofMembers (front ++ others.entries)) :
    ∃ fields, takenApart? names (ofMembers (front ++ others.entries)) = some (fields, others) ∧
      ∀ name ∈ names, OrderedMap.lookup name fields = OrderedMap.lookup name front := by
  have hholds : ∀ name, (ofMembers (front ++ others.entries)).member? name
      = (others.get? name).or (OrderedMap.lookup name front) := member?_merged hfront
  have hsorted : (sortMembers (front ++ others.entries)).Pairwise fun a b => a.1 < b.1 := by
    rw [sortMembers_eq]
    exact OrderedMap.ascending _
  have hknown := knownMembers?_eq names (sortMembers (front ++ others.entries))
  -- members in key order have different names, so the fields among them are found
  have hnodup : (((sortMembers (front ++ others.entries)).filter
      fun m => names.contains m.1).map (·.1)).Nodup :=
    OrderedMap.nodup_keys ⟨_, hsorted.filter _⟩
  rw [if_pos hnodup] at hknown
  have happart : takenApart? names (ofMembers (front ++ others.entries)) = some (_, _) :=
    (congrArg (Option.map _) hknown).trans rfl
  have hparts := takenApart_of_eq_some happart
  have hsame : OrderedMap.ofList
      (normalizeMembers (otherMembers names (sortMembers (front ++ others.entries)))) = others := by
    refine OrderedMap.ext_get? fun name => ?_
    by_cases hname : name ∈ names
    · rw [hparts.get?_known name hname, hothers name hname]
    · -- the first part has known names only
      have hnone := OrderedMap.lookup_eq_none_of_notMem (mt (hnames name) hname)
      rw [hparts.get?_others name hname, given?, hmerged, hholds name, hnone, Option.or_none]
  rw [hsame] at happart
  refine ⟨_, happart, fun name hname => ?_⟩
  have hpasses : names.contains name = true := List.contains_iff_mem.2 hname
  rw [OrderedMap.lookup_filter, if_pos hpasses]
  exact (hholds name).trans (by rw [hothers name hname, Option.none_or])

end Merged

namespace TakenApart

variable {names : List String} {v : Json} {fields front : List (String × Json)}
  {others : OrderedMap Json}

/-- All else is in order. -/
theorem normalize_others (h : TakenApart names v fields others) :
    ∀ m ∈ others.entries, m.2.normalize = m.2 := by
  rintro ⟨name, w⟩ hm
  have hget : others.get? name = some w := OrderedMap.get?_eq_some_iff.2 hm
  by_cases hname : name ∈ names
  · exact absurd ((h.get?_known name hname).symm.trans hget) (by simp)
  · exact normalize_of_given? ((h.get?_others name hname).symm.trans hget)

/-- What is put together is in order if its first part is. -/
theorem normalize_merged (h : TakenApart names v fields others)
    (hfront : ∀ m ∈ front, m.2.normalize = m.2) :
    (ofMembers (front ++ others.entries)).normalize = ofMembers (front ++ others.entries) :=
  normalize_ofMembers fun m hm =>
    (List.mem_append.1 hm).elim (hfront m) (h.normalize_others m)

/-- Under a name of its own a merged object holds what was put in front. -/
theorem member?_merged_of_mem (h : TakenApart names v fields others)
    (hfront : (front.map (·.1)).Nodup) {name : String} (hname : name ∈ names) :
    (ofMembers (front ++ others.entries)).member? name = OrderedMap.lookup name front := by
  rw [member?_merged hfront, h.get?_known name hname, Option.none_or]

/-- Under any other name a merged object holds what the value held. -/
theorem member?_merged_of_notMem (h : TakenApart names v fields others)
    (hfront : (front.map (·.1)).Nodup) {name : String} (hname : name ∉ names)
    (hnames : ∀ key ∈ front.map (·.1), key ∈ names) :
    (ofMembers (front ++ others.entries)).member? name = v.given? name := by
  have hnone := OrderedMap.lookup_eq_none_of_notMem (mt (hnames name) hname)
  rw [member?_merged hfront, h.get?_others name hname, hnone, Option.or_none]

/-- A text that may be missing is the one that is given, or empty. -/
theorem given?_text (h : TakenApart names v fields others) {name : String} (hname : name ∈ names)
    {text : String} (htext : optional? fields name "" string? = some text) :
    (v.given? name).getD (.string "") = .string text := by
  rw [h.given?_known name hname]
  unfold optional? at htext
  split at htext
  next hlookup =>
    cases htext
    rw [hlookup]
    rfl
  next w hlookup =>
    rw [hlookup]
    cases w with
    | string s =>
      cases htext
      rfl
    | _ => exact nomatch htext

end TakenApart

/-- An optional field depends on what is stored under its name only. -/
theorem optional?_congr {α : Type} {fields fields' : List (String × Json)} {name : String}
    (h : OrderedMap.lookup name fields = OrderedMap.lookup name fields') (default : α)
    (read : Json → Option α) :
    optional? fields name default read = optional? fields' name default read := by
  rw [optional?, optional?, h]

end Json

/-! ### Metadata and objects -/

open Json

namespace ObjectMeta

/-- Metadata are read as their name and all other members. -/
theorem ofJson?_eq (v : Json) :
    ofJson? v = (takenApart? known v).bind fun parts =>
      (optional? parts.1 "name" "" string?).bind fun name => some ⟨name, parts.2⟩ := by
  cases v with
  | object members =>
    rw [takenApart?, Option.bind_map]
    rfl
  | _ => rfl

/-- Metadata hold what was given, and a name. -/
theorem toJson_complete {v : Json} {m : ObjectMeta} (h : ofJson? v = some m) :
    m.toJson.normalize = m.toJson ∧ ofJson? m.toJson = some m ∧
      (v.given? "name").getD (.string "") = .string m.name ∧
      ∀ name, m.toJson.member? name
        = (v.given? name).or (OrderedMap.lookup name [("name", .string "")]) := by
  rw [ofJson?_eq] at h
  obtain ⟨⟨fields, others⟩, happart, h⟩ := Option.bind_eq_some_iff.1 h
  obtain ⟨name, hname, h⟩ := Option.bind_eq_some_iff.1 h
  cases h
  have hparts := takenApart_of_eq_some happart
  have hgiven := hparts.given?_text (by simp [known]) hname
  have hnormal : (ofMembers ([("name", .string name)] ++ others.entries)).normalize = ofMembers _ :=
    hparts.normalize_merged (by simp [Json.normalize])
  have hnodup : ([("name", Json.string name)].map (·.1)).Nodup := by simp
  have hnames : ∀ key ∈ [("name", Json.string name)].map (·.1), key ∈ known := by simp [known]
  refine ⟨hnormal, ?_, hgiven, fun key => ?_⟩
  -- What was put in order is taken apart again as it was.
  · obtain ⟨again, hagain, hsame⟩ :=
      takenApart?_merged hnodup hnames hparts.get?_known hnormal
    rw [ofJson?_eq]
    refine Option.bind_eq_some_iff.2 ⟨_, hagain, ?_⟩
    rw [optional?_congr (hsame "name" (by simp [known]))]
    rfl
  -- A field that is known is there or has its default; the others are as they were given.
  · by_cases hkey : key ∈ known
    · refine (hparts.member?_merged_of_mem hnodup hkey).trans ?_
      cases List.mem_singleton.1 hkey
      simp [OrderedMap.lookup, hgiven]
    · refine (hparts.member?_merged_of_notMem hnodup hkey hnames).trans ?_
      rw [OrderedMap.lookup_eq_none_of_notMem (by simpa [known] using hkey), Option.or_none]

end ObjectMeta

namespace KubeObject

/-- An object is read as its version, its kind, its metadata and all other members. -/
theorem ofJson?_eq (v : Json) :
    ofJson? v = (takenApart? known v).bind fun parts =>
      (optional? parts.1 "apiVersion" "" string?).bind fun apiVersion =>
        (optional? parts.1 "kind" "" string?).bind fun kind =>
          (optional? parts.1 "metadata" {} ObjectMeta.ofJson?).bind fun metadata =>
            some ⟨apiVersion, kind, metadata, parts.2⟩ := by
  cases v with
  | object members =>
    rw [takenApart?, Option.bind_map]
    rfl
  | _ => rfl

/-- Missing metadata are those of an object without members. -/
theorem optional?_metadata (fields : List (String × Json)) :
    optional? fields "metadata" {} ObjectMeta.ofJson?
      = ObjectMeta.ofJson? ((OrderedMap.lookup "metadata" fields).getD (.object [])) := by
  cases h : OrderedMap.lookup "metadata" fields <;> simp only [optional?, h] <;> rfl

/-- The metadata that a value holds, or else an object without members. -/
def givenMetadata (v : Json) : Json := (v.given? "metadata").getD (.object [])

/-- The parts that an object was made of. -/
theorem exists_takenApart {v : Json} {o : KubeObject} (h : ofJson? v = some o) :
    (∃ fields, TakenApart known v fields o.others) ∧
      (v.given? "apiVersion").getD (.string "") = .string o.apiVersion ∧
      (v.given? "kind").getD (.string "") = .string o.kind ∧
      ∃ w, ObjectMeta.ofJson? w = some o.metadata ∧ givenMetadata v = w.normalize := by
  rw [ofJson?_eq] at h
  obtain ⟨⟨fields, others⟩, happart, h⟩ := Option.bind_eq_some_iff.1 h
  obtain ⟨apiVersion, hversion, h⟩ := Option.bind_eq_some_iff.1 h
  obtain ⟨kind, hkind, h⟩ := Option.bind_eq_some_iff.1 h
  obtain ⟨metadata, hmetadata, h⟩ := Option.bind_eq_some_iff.1 h
  cases h
  have hparts := takenApart_of_eq_some happart
  rw [optional?_metadata] at hmetadata
  refine ⟨⟨fields, hparts⟩, hparts.given?_text (by simp [known]) hversion,
    hparts.given?_text (by simp [known]) hkind, _, hmetadata, ?_⟩
  rw [givenMetadata, hparts.given?_known "metadata" (by simp [known])]
  cases OrderedMap.lookup "metadata" fields <;> rfl

/-- The members of an object that are not kept as they are. -/
def front (o : KubeObject) : List (String × Json) :=
  [("apiVersion", .string o.apiVersion), ("kind", .string o.kind), ("metadata", o.metadata.toJson)]

/-- The fields that are written in front have different names. -/
theorem nodup_front (o : KubeObject) : (o.front.map (·.1)).Nodup := by simp [front]

/-- The fields that are written in front have names of their own. -/
theorem known_of_front (o : KubeObject) : ∀ key ∈ o.front.map (·.1), key ∈ known := by
  simp [front, known]

/-- An object is read back if its metadata are and its other members have other names. -/
theorem ofJson?_toJson {o : KubeObject} (hothers : ∀ name ∈ known, o.others.get? name = none)
    (hnormal : o.toJson.normalize = o.toJson)
    (hmetadata : ObjectMeta.ofJson? o.metadata.toJson = some o.metadata) :
    ofJson? o.toJson = some o := by
  obtain ⟨fields, happart, hfields⟩ :=
    takenApart?_merged o.nodup_front o.known_of_front hothers hnormal
  rw [ofJson?_eq]
  refine Option.bind_eq_some_iff.2 ⟨_, happart, ?_⟩
  rw [optional?_congr (hfields "apiVersion" (by simp [known])),
    optional?_congr (hfields "kind" (by simp [known])),
    optional?_congr (hfields "metadata" (by simp [known]))]
  simp [front, optional?, OrderedMap.lookup, string?, hmetadata]

/-- An object holds what was given, a version, a kind and complete metadata. -/
theorem toJson_complete {v : Json} {o : KubeObject} (h : ofJson? v = some o) :
    o.toJson.normalize = o.toJson ∧ ofJson? o.toJson = some o ∧
      ((givenMetadata v).member? "name").getD (.string "") = .string o.name ∧
      o.toJson.member? "metadata" = some o.metadata.toJson ∧
      (∀ name, o.metadata.toJson.member? name
        = ((givenMetadata v).member? name).or (OrderedMap.lookup name [("name", .string "")])) ∧
      ∀ name, name ≠ "metadata" → o.toJson.member? name
        = (v.given? name).or
            (OrderedMap.lookup name [("apiVersion", .string ""), ("kind", .string "")]) := by
  obtain ⟨⟨fields, hparts⟩, hversion, hkind, w, hw, hmetadata⟩ := exists_takenApart h
  obtain ⟨hmetaNormal, hmetaRead, hname, hmeta⟩ := ObjectMeta.toJson_complete hw
  have hfront : ∀ m ∈ o.front, m.2.normalize = m.2 := by simp [front, Json.normalize, hmetaNormal]
  have hnormal : o.toJson.normalize = o.toJson := hparts.normalize_merged hfront
  rw [hmetadata]
  refine ⟨hnormal, ofJson?_toJson hparts.get?_known hnormal hmetaRead, hname,
    hparts.member?_merged_of_mem o.nodup_front (by simp [known]), hmeta, fun name hne => ?_⟩
  by_cases hname : name ∈ known
  · -- the texts are the given ones, or empty like the defaults
    refine (hparts.member?_merged_of_mem o.nodup_front hname).trans ?_
    have hcases : name = "apiVersion" ∨ name = "kind" := by simpa [known, hne] using hname
    rcases hcases with rfl | rfl
    · simp [front, OrderedMap.lookup, hversion]
    · simp [front, OrderedMap.lookup, hkind]
  · -- there is no default for a name that is not known
    refine (hparts.member?_merged_of_notMem o.nodup_front hname o.known_of_front).trans ?_
    have hnot : name ∉ [("apiVersion", Json.string ""), ("kind", .string "")].map (·.1) :=
      fun hmem => hname (List.mem_append_left ["metadata"] hmem)
    rw [OrderedMap.lookup_eq_none_of_notMem hnot, Option.or_none]

end KubeObject

/-! ### Group and version -/

namespace Text

variable {sep : Char} {text : String}

/-- A text without the separator cannot be split at it. -/
theorem splitLast_eq_none (h : sep ∉ text.toList) : splitLast sep text = none := by
  simp [splitLast, hasChar, h]

/-- The two parts are separated by the character, which does not occur in the second. -/
theorem splitLast_eq_some (h : sep ∈ text.toList) :
    ∃ before after, splitLast sep text = some (before, after) ∧
      text.toList = before.toList ++ sep :: after.toList ∧ sep ∉ after.toList := by
  obtain ⟨after, before, hrev, hafter⟩ := List.eq_append_cons_of_mem (List.mem_reverse.2 h)
  have hpass : ∀ c ∈ after, decide (c ≠ sep) = true := fun c hc =>
    decide_eq_true fun heq => hafter (heq ▸ hc)
  have htake : text.toList.reverse.takeWhile (fun c => decide (c ≠ sep)) = after := by
    rw [hrev, List.takeWhile_append_of_pos hpass]
    simp
  have hdrop : text.toList.reverse.dropWhile (fun c => decide (c ≠ sep)) = sep :: before := by
    rw [hrev, List.dropWhile_append_of_pos hpass]
    simp
  refine ⟨String.ofList before.reverse, String.ofList after.reverse, ?_, ?_, by simpa using hafter⟩
  · have hchar : hasChar sep text = true := List.contains_iff_mem.2 h
    simp only [splitLast, hchar, if_true, htake, hdrop, List.drop_one, List.tail_cons]
  · simpa using congrArg List.reverse hrev

end Text

namespace Gvk

/-- The group is everything before the last slash, and empty if there is none. -/
theorem ofApiVersion_spec (apiVersion kind : String) :
    (ofApiVersion apiVersion kind).kind = kind ∧
      ('/' ∉ apiVersion.toList → (ofApiVersion apiVersion kind).group = "" ∧
        (ofApiVersion apiVersion kind).version = apiVersion) ∧
      ('/' ∈ apiVersion.toList →
        apiVersion = (ofApiVersion apiVersion kind).group ++ "/"
            ++ (ofApiVersion apiVersion kind).version ∧
          '/' ∉ (ofApiVersion apiVersion kind).version.toList) := by
  by_cases h : '/' ∈ apiVersion.toList
  · obtain ⟨group, version, hsplit, htext, hversion⟩ := Text.splitLast_eq_some h
    rw [ofApiVersion, hsplit]
    refine ⟨rfl, absurd h, fun _ => ⟨String.toList_inj.1 ?_, hversion⟩⟩
    simpa using htext
  · rw [ofApiVersion, Text.splitLast_eq_none h]
    exact ⟨rfl, fun _ => ⟨rfl, rfl⟩, fun h' => absurd h' h⟩

end Gvk

/-! ### Reported bodies -/

namespace KubeObject

/-- **A reported body lacks nothing that was given.** It holds each member of the value other than
    the metadata, each member of the metadata, and besides these only what was missing of a version,
    a kind and metadata with a name, all of them empty. It is read as the same object, whose name,
    kind, group and version are the given ones: the group is everything before the last slash of the
    version that was given, and empty if there is none. -/
theorem body_complete {v : Json} {o : KubeObject} (h : ofJson? v = some o) :
    ∃ (body metadata : Json) (apiVersion : String),
      detailOf .detail o = some body ∧ body.normalize = body ∧
      (∀ name, name ≠ "metadata" → body.member? name
        = (v.given? name).or
            (OrderedMap.lookup name [("apiVersion", .string ""), ("kind", .string "")])) ∧
      body.member? "metadata" = some metadata ∧
      (∀ name, metadata.member? name
        = ((givenMetadata v).member? name).or (OrderedMap.lookup name [("name", .string "")])) ∧
      ofJson? body = some o ∧
      ((givenMetadata v).member? "name").getD (.string "") = .string o.name ∧
      (v.given? "kind").getD (.string "") = .string o.gvk.kind ∧
      (v.given? "apiVersion").getD (.string "") = .string apiVersion ∧
      ('/' ∉ apiVersion.toList → o.gvk.group = "" ∧ o.gvk.version = apiVersion) ∧
      ('/' ∈ apiVersion.toList →
        apiVersion = o.gvk.group ++ "/" ++ o.gvk.version ∧ '/' ∉ o.gvk.version.toList) := by
  obtain ⟨hnormal, hread, hname, hmetadata, hmeta, hmembers⟩ := toJson_complete h
  obtain ⟨-, hversion, hkind, -⟩ := exists_takenApart h
  obtain ⟨hgvkKind, hcore, hgroup⟩ := Gvk.ofApiVersion_spec o.apiVersion o.kind
  have hdetail : detailOf .detail o = some o.toJson := if_pos rfl
  have hgivenKind : (v.given? "kind").getD (.string "") = .string o.gvk.kind := by
    rw [hkind, gvk, hgvkKind]
  exact ⟨o.toJson, o.metadata.toJson, o.apiVersion, hdetail, hnormal, hmembers, hmetadata, hmeta,
    hread, hname, hgivenKind, hversion, hcore, hgroup⟩

/-- An object without a kind, whose metadata have one but no name. -/
def unusual : Json :=
  .object
    [("name", .string "outer"), ("apiVersion", .string "a/b/v1"),
      ("metadata", .object [("namespace", .string "shop"), ("kind", .string "inner")])]

/-- Each member stays where it was given, and what was missing is empty. -/
theorem body_complete_unusual :
    ∃ o body metadata, ofJson? unusual = some o ∧ detailOf .detail o = some body ∧
      body.member? "name" = some (.string "outer") ∧ body.member? "kind" = some (.string "") ∧
      body.member? "metadata" = some metadata ∧
      metadata.member? "kind" = some (.string "inner") ∧
      metadata.member? "name" = some (.string "") ∧ ofJson? body = some o := by
  obtain ⟨o, ho⟩ : ∃ o, ofJson? unusual = some o := Option.isSome_iff_exists.1 (by decide)
  obtain ⟨body, metadata, _, hdetail, -, hmembers, hmetadata, hmeta, hread, -⟩ := body_complete ho
  have hname := hmembers "name" (by decide)
  have hkind := hmembers "kind" (by decide)
  have hgiven : unusual.given? "name" = some (.string "outer") ∧ unusual.given? "kind" = none ∧
      (givenMetadata unusual).member? "kind" = some (.string "inner") ∧
      (givenMetadata unusual).member? "name" = none := by decide
  obtain ⟨hgivenName, hgivenKind, hgivenInner, hgivenNone⟩ := hgiven
  refine ⟨o, body, metadata, ho, hdetail, ?_, ?_, hmetadata, ?_, ?_, hread⟩
  · rw [hname, hgivenName]
    rfl
  · rw [hkind, hgivenKind]
    rfl
  · rw [hmeta, hgivenInner]
    rfl
  · rw [hmeta, hgivenNone]
    rfl

end KubeObject

end NetIntent
