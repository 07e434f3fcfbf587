import PostCall.Model.Metrics
import PostCall.Model.World

/-!
# Queue depths

A refresh sets the gauges of the groups that have rows, and leaves those of the others as they were. So
a gauge tells the truth if its group has rows, or never had any at a refresh; a group that has emptied
keeps the depth it had at the last refresh that found it.
-/

namespace PostCall.Properties
open PostCall.Library PostCall.Python PostCall.Model

variable {queueDepth : QueueDepth} {jobs : JobTable} {history : List JobTable}
  {g : JobType × JobStatus}

lemma depthLabels_injective : Function.Injective depthLabels := by
  have types : ∀ t t' : JobType, t.value = t'.value → t = t' := by
    intro t t'
    cases t <;> cases t' <;> decide
  have statuses : ∀ s s' : JobStatus, s.value = s'.value → s = s' := by
    intro s s'
    cases s <;> cases s' <;> decide
  rintro ⟨t, s⟩ ⟨t', s'⟩ e
  obtain ⟨type, status⟩ := Prod.mk.inj e
  rw [types t t' type, statuses s s' status]

/-- A group is counted where it has rows. -/
lemma groupCount_pos : 0 < groupCount jobs g ↔ g ∈ jobs.rows.map group := List.count_pos_iff

/-- A refresh sets the gauge of a group that has rows, and no other. -/
lemma refreshQueueDepths_apply :
    refreshQueueDepths queueDepth jobs (depthLabels g) =
      if 0 < groupCount jobs g then groupCount jobs g else queueDepth (depthLabels g) := by
  have rows : refreshQueueDepths queueDepth jobs = writeAll queueDepth
      ((groupedCounts jobs).map fun row => (depthLabels row.1, row.2)) := rfl
  have labels : ((groupedCounts jobs).map fun row => (depthLabels row.1, row.2)).map Prod.fst =
      (jobs.rows.map group).dedup.map depthLabels := by
    simp [groupedCounts]
  rw [rows]
  split
  case isTrue some =>
    refine writeAll_of_mem ?_ (List.mem_map.2 ⟨(g, groupCount jobs g), ?_, rfl⟩)
    · rw [labels]
      exact (List.nodup_dedup _).map depthLabels_injective
    · exact List.mem_map.2 ⟨g, List.mem_dedup.2 (groupCount_pos.1 some), rfl⟩
  case isFalse none =>
    refine writeAll_of_not_mem ?_
    rw [labels, List.mem_map]
    rintro ⟨g', mem, e⟩
    obtain rfl := depthLabels_injective e
    exact none (groupCount_pos.2 (List.mem_dedup.1 mem))

/-- The gauges after a refresh at each of these states of the job table. -/
def depthsAfter (history : List JobTable) : QueueDepth :=
  history.foldl refreshQueueDepths .unset

/-- One refresh more sets the labels that have rows. -/
lemma depthsAfter_snoc : depthsAfter (history ++ [jobs]) (depthLabels g) =
    if 0 < groupCount jobs g then groupCount jobs g else depthsAfter history (depthLabels g) := by
  rw [depthsAfter, List.foldl_append]
  exact refreshQueueDepths_apply

/-- A gauge reads zero exactly if no refresh has found its group. -/
lemma depthsAfter_eq_zero_iff :
    depthsAfter history (depthLabels g) = 0 ↔ ∀ jobs ∈ history, groupCount jobs g = 0 := by
  induction history using List.reverseRecOn with
  | nil => exact iff_of_true rfl nofun
  | append_singleton history jobs ih =>
    rw [depthsAfter_snoc]
    simp only [List.mem_append, List.mem_singleton, or_imp, forall_and, forall_eq]
    split
    case isTrue some => exact iff_of_false some.ne' fun none => some.ne' none.2
    case isFalse none => exact ih.trans (and_iff_left (Nat.eq_zero_of_not_pos none)).symm

/-- For every sequence of states of the job table with a refresh at each, and every pair of a type and a
status: right after a refresh the gauge equals the number of rows exactly if there are some, or no
earlier refresh has found any. -/
theorem depth_eq_count_iff (history : List JobTable) (jobs : JobTable) (g : JobType × JobStatus) :
    depthsAfter (history ++ [jobs]) (depthLabels g) = groupCount jobs g ↔
      0 < groupCount jobs g ∨ ∀ earlier ∈ history, groupCount earlier g = 0 := by
  rw [depthsAfter_snoc]
  split
  case isTrue some => exact iff_of_true rfl (.inl some)
  case isFalse none =>
    rw [or_iff_right none, Nat.eq_zero_of_not_pos none]
    exact depthsAfter_eq_zero_iff

/-- A job is created, and then it is claimed. -/
def createdAndClaimed : List Action := [
  .createIfAbsent (.plain 1 .signalJobs),
  .claimResults "worker" 1 (.at 0)]

/-- A job was pending at one refresh and is running at the next one: the gauge still shows one that is
pending. -/
theorem not_depth_eq_count : ¬ ∀ (history : List JobTable) (jobs : JobTable) (t : JobType)
    (s : JobStatus), depthsAfter (history ++ [jobs]) (depthLabels (t, s)) =
      jobs.rows.countP fun job => job.jobType = t ∧ job.status = s := by
  intro truthful
  have depth := truthful [(after (createdAndClaimed.take 1)).db.queue.jobs]
    (after createdAndClaimed).db.queue.jobs .signalJobs .pending
  revert depth
  decide +kernel

end PostCall.Properties
