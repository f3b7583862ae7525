import Mathlib
import NetIntent.Proofs.Counting
import NetIntent.Proofs.JsonText
import NetIntent.Proofs.Records

namespace NetIntent

/-!
# Snapshots, however they are stored

The snapshot of a cluster is stored as a value or as the text of that value. A text is read in another
way than a value: the members that a snapshot does not know are dropped before anything is made of what
is inside them. Both ways lead to the same snapshot.

* `Json.knownMembers?_filter` — unknown members do not matter to a record;
* `Snapshot.ofText?_of_read?` — a text means what the value that it spells does;
* `Snapshot.ofJson?_eq_some_iff` — what is read of a value, field by field;
* `Snapshot.objects_eq_flatMap` — the objects of a snapshot, kind by kind;
* `Snapshot.stored_and_reported` — the two ways to store a snapshot, and what is counted and reported
  of one.
-/

/-! ### Unknown members -/

namespace Json

/-- The fields of a record are found without its unknown members. -/
theorem knownMembers?_filter (names : List String) (members : List (String × Json)) :
    knownMembers? names (members.filter fun m => names.contains m.1)
      = knownMembers? names members := by
  rw [knownMembers?_eq, knownMembers?_eq]
  simp only [List.filter_filter, Bool.and_self]

namespace Literal

/-- Members are passed over before or after they are read. -/
theorem readMembers?_filter (passes : String → Bool) {literals : List (Option String × Literal)}
    {depth : Nat} {members : List (String × Json)}
    (h : readMembers? literals depth = some members) :
    readMembers? (literals.filter fun m => match m.1 with
        | some key => passes key
        | none => true) depth
      = some (members.filter fun m => passes m.1) := by
  induction literals generalizing members with
  | nil =>
    cases h
    rfl
  | cons m literals ih =>
    obtain ⟨none | k, literal⟩ := m
    -- A key that is no text cannot be read.
    · simp [readMembers?] at h
    · simp only [readMembers?] at h
      split at h
      · rename_i hk hvalue hrest
        cases hk
        cases h
        have hmore := ih hrest
        -- The member is kept in the literal just if it is kept in the value.
        by_cases hpass : passes k
        · simp only [List.filter_cons, hpass, if_true, readMembers?, hvalue, hmore]
        · simp only [List.filter_cons, hpass, Bool.false_eq_true, if_false, hmore]
      · cases h

end Literal

end Json

namespace Snapshot

/-- The value without the members that a snapshot does not know. -/
def knownPart : Json → Json
  | .object members => .object (members.filter fun m => fieldNames.contains m.1)
  | v => v

/-- The fields of a snapshot are read from what it knows. -/
theorem fields?_knownPart (v : Json) : (knownPart v).fields? fieldNames = v.fields? fieldNames := by
  cases v with
  | object members => exact Json.knownMembers?_filter fieldNames members
  | _ => rfl

/-- A value means what its known part does. -/
theorem ofJson?_knownPart (v : Json) : ofJson? (knownPart v) = ofJson? v := by
  unfold ofJson?
  rw [fields?_knownPart]

/-- What is left of a literal spells what is left of its value. -/
theorem read?_dropUnknown {literal : Json.Literal} {depth : Nat} {v : Json}
    (h : literal.read? depth = some v) : (dropUnknown literal).read? depth = some (knownPart v) := by
  -- Only an object has members that can be dropped.
  cases literal with
  | object literals =>
    cases depth with
    | zero => cases h
    | succ depth =>
      obtain ⟨members, hmembers, rfl⟩ := Option.map_eq_some_iff.1 h
      have hknown := Json.Literal.readMembers?_filter (fun k => fieldNames.contains k) hmembers
      rw [dropUnknown, Json.Literal.read?]
      exact Option.map_eq_some_iff.2 ⟨_, hknown, rfl⟩
  | array literals =>
    cases depth with
    | zero => cases h
    | succ depth =>
      obtain ⟨items, -, rfl⟩ := Option.map_eq_some_iff.1 h
      exact h
  | null | bool _ => cases h; rfl
  | number n | string s =>
    obtain ⟨value, -, rfl⟩ := Option.map_eq_some_iff.1 h
    exact h

/-- A text means what the value that it spells does. -/
theorem ofText?_of_read? {text : String} {literal : Json.Literal} {v : Json}
    (hliteral : Json.Literal.ofText? text = some literal)
    (hread : literal.read? Json.Literal.maxDepth = some v) : ofText? text = ofJson? v := by
  rw [ofText?, hliteral, Option.map_some, Option.bind_some, read?_dropUnknown hread,
    Option.bind_some, ofJson?_knownPart]

/-- The compact text of a value means what the value does. -/
theorem ofText?_text {v : Json} (hdepth : v.depth ≤ Json.Literal.maxDepth) (hint : v.Integral) :
    ofText? v.text = ofJson? v := by
  obtain ⟨literal, hliteral, hread⟩ := hint.legible.exists_literal
  exact ofText?_of_read? hliteral (hread _ hdepth)

/-- A value that is not a text is read as it stands. -/
theorem ofValue?_eq_ofJson? {v : Json} (hv : ∀ text, v ≠ .string text) :
    ofValue? v = ofJson? v := by
  cases v with
  | string text => exact absurd rfl (hv text)
  | _ => rfl

/-! ### The kinds of objects -/

/-- The kinds of objects in a snapshot. -/
inductive Kind where
  | pods
  | services
  | deployments
  | configMaps
  | secrets
  | daemonSets
  | ingresses
  | jobs
  | statefulSets
  | signingRequests
deriving DecidableEq

namespace Kind

/-- All kinds, in the order in which their objects are reported. -/
def all : List Kind :=
  [pods, services, deployments, configMaps, secrets, daemonSets, ingresses, jobs, statefulSets,
    signingRequests]

/-- No kind is left out, and none is listed twice. -/
theorem count_all (kind : Kind) : all.count kind = 1 := by
  cases kind <;> rfl

/-- The field of a document that holds the objects of a kind. -/
def field : Kind → String
  | pods => "podStatuses"
  | services => "serviceStatuses"
  | deployments => "deploymentStatuses"
  | configMaps => "configMapStatuses"
  | secrets => "secretStatuses"
  | daemonSets => "daemonSetStatuses"
  | ingresses => "ingressStatuses"
  | jobs => "jobStatuses"
  | statefulSets => "statefulSetStatuses"
  | signingRequests => "csrStatuses"

/-- The objects of a kind. -/
def objects (s : Snapshot) : Kind → List KubeObject
  | pods => s.pods
  | services => s.services
  | deployments => s.deployments
  | configMaps => s.configMaps
  | secrets => s.secrets
  | daemonSets => s.daemonSets
  | ingresses => s.ingresses
  | jobs => s.jobs
  | statefulSets => s.statefulSets
  | signingRequests => s.signingRequests

end Kind

/-- The snapshot has what these fields hold: where a field is missing, the default, and of each kind the
    objects in the field of that kind. -/
structure Holds (fields : List (String × Json)) (s : Snapshot) : Prop where
  ready : Json.optional? fields "ready" false Json.bool? = some s.ready
  resourceCount : Json.optional? fields "resourceCount" 0
    (Json.int? (-Int.pow 2 31) (Int.pow 2 31 - 1)) = some s.resourceCount
  objects : ∀ kind : Kind, Json.optional? fields kind.field [] objectList? = some (kind.objects s)

/-- A snapshot is read field by field. -/
theorem ofJson?_eq_some_iff {v : Json} {s : Snapshot} :
    ofJson? v = some s ↔ ∃ fields, v.fields? fieldNames = some fields ∧ Holds fields s := by
  constructor
  · intro h
    -- The fields are read one after the other.
    obtain ⟨fields, hfields, h⟩ := Option.bind_eq_some_iff.1 h
    obtain ⟨ready, hready, h⟩ := Option.bind_eq_some_iff.1 h
    obtain ⟨count, hcount, h⟩ := Option.bind_eq_some_iff.1 h
    obtain ⟨pods, hpods, h⟩ := Option.bind_eq_some_iff.1 h
    obtain ⟨services, hservices, h⟩ := Option.bind_eq_some_iff.1 h
    obtain ⟨configMaps, hconfigMaps, h⟩ := Option.bind_eq_some_iff.1 h
    obtain ⟨deployments, hdeployments, h⟩ := Option.bind_eq_some_iff.1 h
    obtain ⟨secrets, hsecrets, h⟩ := Option.bind_eq_some_iff.1 h
    obtain ⟨daemonSets, hdaemonSets, h⟩ := Option.bind_eq_some_iff.1 h
    obtain ⟨ingresses, hingresses, h⟩ := Option.bind_eq_some_iff.1 h
    obtain ⟨jobs, hjobs, h⟩ := Option.bind_eq_some_iff.1 h
    obtain ⟨statefulSets, hstatefulSets, h⟩ := Option.bind_eq_some_iff.1 h
    obtain ⟨signingRequests, hsigningRequests, h⟩ := Option.bind_eq_some_iff.1 h
    cases h
    refine ⟨fields, hfields, hready, hcount, fun kind => ?_⟩
    cases kind <;> assumption
  · rintro ⟨fields, hfields, hready, hcount, hobjects⟩
    refine Option.bind_eq_some_iff.2 ⟨fields, hfields, ?_⟩
    refine Option.bind_eq_some_iff.2 ⟨_, hready, ?_⟩
    refine Option.bind_eq_some_iff.2 ⟨_, hcount, ?_⟩
    refine Option.bind_eq_some_iff.2 ⟨_, hobjects .pods, ?_⟩
    refine Option.bind_eq_some_iff.2 ⟨_, hobjects .services, ?_⟩
    refine Option.bind_eq_some_iff.2 ⟨_, hobjects .configMaps, ?_⟩
    refine Option.bind_eq_some_iff.2 ⟨_, hobjects .deployments, ?_⟩
    refine Option.bind_eq_some_iff.2 ⟨_, hobjects .secrets, ?_⟩
    refine Option.bind_eq_some_iff.2 ⟨_, hobjects .daemonSets, ?_⟩
    refine Option.bind_eq_some_iff.2 ⟨_, hobjects .ingresses, ?_⟩
    refine Option.bind_eq_some_iff.2 ⟨_, hobjects .jobs, ?_⟩
    refine Option.bind_eq_some_iff.2 ⟨_, hobjects .statefulSets, ?_⟩
    refine Option.bind_eq_some_iff.2 ⟨_, hobjects .signingRequests, ?_⟩
    rfl

/-! ### Counting and reporting objects -/

/-- The objects of a snapshot stand kind by kind. -/
theorem objects_eq_flatMap (s : Snapshot) : s.objects = Kind.all.flatMap (Kind.objects s) := by
  simp [objects, Kind.all, Kind.objects]

/-- The number of objects, of all kinds together. -/
def total (s : Snapshot) : Nat := (Kind.all.map fun kind => (kind.objects s).length).sum

/-- The list of all objects has as many entries as all kinds together. -/
theorem length_objects (s : Snapshot) : s.objects.length = s.total := by
  rw [objects_eq_flatMap, List.length_flatMap, total]

end Snapshot

/-- All objects of a snapshot are counted as present, and nothing else is. -/
theorem get?_snapshotCounts (s : Snapshot) (counts : Counts) (word : String) :
    (snapshotCounts s counts).get? word
      = if word = present ∧ s.total ≠ 0 then some ((counts.get? word).getD 0 + s.total)
        else counts.get? word := by
  have htotal : s.total = 0 ↔ s.objects.isEmpty := by
    rw [← s.length_objects, List.length_eq_zero_iff, List.isEmpty_iff]
  rw [snapshotCounts]
  split
  · rename_i hempty
    simp [htotal.2 hempty]
  · rename_i hsome
    rw [Counts.get?_add, s.length_objects]
    by_cases hword : word = present
    · simp [hword, htotal, hsome]
    · simp [hword]

/-- The report on an object of a snapshot. -/
def presentReport (output : StatusOutput) (o : KubeObject) : ResourceReport :=
  { gvk := o.gvk, name := o.name, detail := detailOf output o, clusterStatus := some present }

/-- The objects that the filter lets pass are reported kind by kind. -/
theorem snapshotReports_eq_flatMap (output : StatusOutput) (filter : List String) (s : Snapshot) :
    snapshotReports output filter s = Snapshot.Kind.all.flatMap fun kind =>
      ((kind.objects s).filter fun o => keeps filter o.name).map (presentReport output) := by
  have hreports : snapshotReports output filter s
      = (s.objects.filter fun o => keeps filter o.name).map (presentReport output) := rfl
  rw [hreports, s.objects_eq_flatMap, List.filter_flatMap, List.map_flatMap]

/-! ### Stored, counted and reported -/

/-- **A snapshot means the same as a value and as the text of it, and all its objects count.** A value
    that is no text, nests less than 128 deep and has no numbers but integers of 64 bits is read alike
    from itself and from its compact text, and the objects of each kind are those in the field of that
    kind. The objects of all ten kinds are added to those that are present, and to no other count; they
    are reported in the order of the kinds, each that passes the filter once. -/
theorem Snapshot.stored_and_reported :
    (∀ v : Json, (∀ text, v ≠ .string text) → v.depth < 128 → v.Integral →
      Snapshot.ofValue? (.string v.text) = Snapshot.ofValue? v ∧
      ∀ s, Snapshot.ofValue? v = some s ↔
        ∃ fields, v.fields? Snapshot.fieldNames = some fields ∧ Snapshot.Holds fields s) ∧
    (∀ kind, Snapshot.Kind.all.count kind = 1) ∧
    ∀ (s : Snapshot) (output : StatusOutput) (filter : List String) (counts : Counts),
      (∀ word, (snapshotCounts s counts).get? word
        = if word = present ∧ s.total ≠ 0 then some ((counts.get? word).getD 0 + s.total)
          else counts.get? word) ∧
      snapshotReports output filter s = Snapshot.Kind.all.flatMap fun kind =>
        ((kind.objects s).filter fun o => keeps filter o.name).map (presentReport output) := by
  refine ⟨fun v hv hdepth hint => ?_, Snapshot.Kind.count_all, fun s output filter counts => ?_⟩
  · have hvalue := Snapshot.ofValue?_eq_ofJson? hv
    have hdeepest : v.depth ≤ Json.Literal.maxDepth := Nat.le_of_lt_succ hdepth
    rw [hvalue]
    exact ⟨Snapshot.ofText?_text hdeepest hint, fun s => Snapshot.ofJson?_eq_some_iff⟩
  · exact ⟨get?_snapshotCounts s counts, snapshotReports_eq_flatMap output filter s⟩

/-- What a monitor found: a pod, a deployment, and no services. -/
def monitored : Json :=
  .object
    [("deploymentStatuses", .array
        [.object [("apiVersion", .string "apps/v1"), ("kind", .string "Deployment"),
          ("metadata", .object [("name", .string "d1")])]]),
      ("podStatuses", .array
        [.object [("apiVersion", .string "v1"), ("kind", .string "Pod"),
          ("metadata", .object [("name", .string "p1"), ("namespace", .string "default")]),
          ("status", .object [("phase", .string "Running"), ("restarts", .number (.int (-1)))])]]),
      ("ready", .bool true), ("resourceCount", .number (.int 2)), ("serviceStatuses", .null)]

/-- The text of what the monitor found is read as the two objects, the pod first; a filter lets one of
    two objects pass, and three objects are counted. -/
theorem Snapshot.stored_and_reported_monitored :
    (∀ text, monitored ≠ .string text) ∧ monitored.depth < 128 ∧ monitored.Integral ∧
    (Snapshot.ofValue? (.string monitored.text)).map (fun s => s.objects.map (·.name))
      = some ["p1", "d1"] ∧
    (snapshotReports .all ["d1"]
        { pods := [{}], deployments := [{ metadata := { name := "d1" } }] }).map (·.name) = ["d1"] ∧
    (snapshotCounts { pods := [{}, {}], jobs := [{}] } .empty).get? present = some 3 := by
  have hv : ∀ text, monitored ≠ .string text := nofun
  have hdepth : monitored.depth < 128 := by decide
  have hint : monitored.Integral := by simp [monitored, Int.pow]
  obtain ⟨hstored, -, hcounted⟩ := Snapshot.stored_and_reported
  have htext := (hstored monitored hv hdepth hint).1
  refine ⟨hv, hdepth, hint, ?_, ?_, ?_⟩
  · rw [htext]
    decide
  · rw [(hcounted _ _ _ .empty).2]
    decide
  · rw [(hcounted _ .all [] _).1]
    decide

end NetIntent
