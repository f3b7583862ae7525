import NetIntent.Proofs.OrderedMap
import NetIntent.Report.Gather

namespace NetIntent

/-!
# Counting by status

Counts have an entry for each status that was counted, and no other. Whatever is counted is counted
one by one, whether it is observed in a context or stands in a snapshot.

* `Counts.tally` — statuses, counted one by one;
* `Counts.get?_tally` — they add to the counts as often as they occur;
* `observedCounts_eq`, `snapshotCounts_eq` — the statuses that are counted of resources.
-/

namespace Counts

/-- The counts with one more of each of these statuses. -/
def tally (statuses : List String) (counts : Counts) : Counts :=
  statuses.foldl (fun counts status => counts.add status 1) counts

/-- Adding to one count changes that one only. -/
@[simp] theorem get?_add (counts : Counts) (status word : String) (n : Nat) :
    (counts.add status n).get? word
      = if word = status then some ((counts.get? status).getD 0 + n) else counts.get? word := by
  simp [add]

/-- A tally may be made in two goes. -/
theorem tally_append (statuses statuses' : List String) (counts : Counts) :
    tally (statuses ++ statuses') counts = tally statuses' (tally statuses counts) :=
  List.foldl_append

/-- The counts grow by the numbers of the statuses that are counted. -/
theorem get?_tally (statuses : List String) (counts : Counts) (word : String) :
    (tally statuses counts).get? word
      = if word ∈ statuses then some ((counts.get? word).getD 0 + statuses.count word)
        else counts.get? word := by
  induction statuses generalizing counts with
  | nil => rfl
  | cons status statuses ih =>
    rw [show tally (status :: statuses) counts = tally statuses (counts.add status 1) from rfl, ih,
      get?_add, List.count_cons]
    by_cases hword : word = status
    · subst hword
      by_cases hmem : word ∈ statuses
      · simp [hmem, Nat.add_right_comm, Nat.add_assoc]
      · simp [hmem, List.count_eq_zero_of_not_mem hmem]
    · simp [hword, Ne.symm hword]

/-- Whatever was counted before is counted still. -/
theorem getD_get?_tally (statuses : List String) (counts : Counts) (word : String) :
    ((tally statuses counts).get? word).getD 0
      = (counts.get? word).getD 0 + statuses.count word := by
  rw [get?_tally]
  split
  · rfl
  · rename_i hmem
    rw [List.count_eq_zero_of_not_mem hmem, Nat.add_zero]

/-- One status may be counted many times at once. -/
theorem tally_replicate {n : Nat} (hn : n ≠ 0) (status : String) (counts : Counts) :
    tally (List.replicate n status) counts = counts.add status n := by
  refine OrderedMap.ext_get? fun word => ?_
  rw [get?_tally, get?_add]
  by_cases hword : word = status
  · simp [hword, hn]
  · simp [hword, List.mem_replicate]

end Counts

/-- The counts of what is observed are those of its statuses. -/
theorem observedCounts_eq (seen : List Observed) (counts : Counts) :
    observedCounts seen counts
      = counts.tally (seen.filterMap fun r => r.status.map InstallStatus.name) := by
  induction seen generalizing counts with
  | nil => rfl
  | cons r seen ih =>
    cases hstatus : r.status with
    | none =>
      have hsame : observedCounts (r :: seen) counts = observedCounts seen counts := by
        simp [observedCounts, hstatus]
      rw [hsame, ih]
      simp [hstatus]
    | some s =>
      have hadd : observedCounts (r :: seen) counts
          = observedCounts seen (counts.add s.name 1) := by simp [observedCounts, hstatus]
      rw [hadd, ih]
      simp [hstatus, Counts.tally]

/-- Each object of a snapshot counts once. -/
theorem snapshotCounts_eq (s : Snapshot) (counts : Counts) :
    snapshotCounts s counts = counts.tally (s.objects.map fun _ => present) := by
  rw [List.map_const', snapshotCounts]
  split
  · rename_i hempty
    rw [List.isEmpty_iff.1 hempty]
    rfl
  · rename_i hne
    rw [Counts.tally_replicate (by simpa using hne)]

end NetIntent
