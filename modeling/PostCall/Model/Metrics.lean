import PostCall.Library.Registers
import PostCall.Model.Jobs

/-!
# Queue depths

`src/metrics/collector.py`, with the gauge `queue_depth` of `src/metrics/registry.py`. The grouped query
has a row for each group that is not empty. A gauge has a value for each pair of labels; it keeps the
value it was last set to, and reads zero before that.
-/

namespace PostCall.Model
open PostCall.Library PostCall.Python

/-- The labels `job_type` and `status` of the gauge. -/
abbrev DepthLabels := String × String

/-- `queue_depth`: the value under each pair of labels. -/
abbrev QueueDepth := DepthLabels → ℕ

/-- `queue_depth` before it is set. -/
def QueueDepth.unset : QueueDepth := fun _ => 0

/-- The columns that the query groups by. -/
def group (job : InteractionJob) : JobType × JobStatus := (job.jobType, job.status)

/-- How many rows a group has. -/
def groupCount (jobs : JobTable) (g : JobType × JobStatus) : ℕ := (jobs.rows.map group).count g

/-- The rows of the query: the groups of the rows, each with its count. -/
def groupedCounts (jobs : JobTable) : List ((JobType × JobStatus) × ℕ) :=
  (jobs.rows.map group).dedup.map fun g => (g, groupCount jobs g)

/-- The values of the labels of a group. -/
def depthLabels (g : JobType × JobStatus) : DepthLabels := (g.1.value, g.2.value)

/-- `refresh_queue_depths`. -/
def refreshQueueDepths (queueDepth : QueueDepth) (jobs : JobTable) : QueueDepth :=
  writeAll queueDepth ((groupedCounts jobs).map fun (g, count) => (depthLabels g, count))

end PostCall.Model
