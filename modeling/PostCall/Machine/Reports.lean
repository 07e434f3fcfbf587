import PostCall.Library.Overwrite
import PostCall.Model.Retry

/-!
# Failures of one interaction

The transactions in which workers handle failures of the jobs of one interaction, as far as the row of
the interaction goes. `append_error` reads the row without a lock, and the flush of the handler writes
the log and the count that it has made of what it has read.
-/

namespace PostCall.Machine
open PostCall.Library PostCall.Python PostCall.Model

/-- A failure of a job, and when it is logged. -/
structure Report where
  jobId : UUID
  failure : Failure
  loggedAt : Time

/-- The entry that `append_error` makes of it. -/
def Report.entry (report : Report) : ErrorEntry :=
  ⟨report.failure.stage, report.failure.errorCode, report.failure.errorMessage, report.loggedAt⟩

/-- The UPDATE of `append_error`, for an object that was read as `seen`. -/
def flushError (seen : Interaction) (report : Report) (row : Interaction) : Interaction :=
  { row with
    errorLog := (seen.appendError report.entry).errorLog
    retryCount := (seen.appendError report.entry).retryCount }

/-- The row of an interaction, and the transactions that handle failures of its jobs. -/
abbrev Reports := Shared Interaction Report

namespace Reports

/-- A new interaction. -/
def start (row : Interaction) : Reports := Shared.start { row with errorLog := [], retryCount := 0 }

def step : Reports → SharedAction Report → Reports := Shared.step flushError

end Reports

/-- A report of what it has read appends its entry. -/
lemma flushError_self {row : Interaction} {report : Report} :
    flushError row report row = row.appendError report.entry := rfl

variable {cfg : Settings} {clock : Clock} {job : InteractionJob} {failure : Failure} {db : Db}
  {row : Interaction}

/-- What the handler does to the row of the interaction. -/
lemma interaction_handle (found : db.interactions.find? job.interactionId = some row) :
    (db.handle cfg clock job failure).interactions.find? job.interactionId =
      some (row.appendError (Report.mk job.id failure (clock 1)).entry) := by
  have same : (db.handle cfg clock job failure).interactions =
      (db.appendError job.interactionId (Report.mk job.id failure (clock 1)).entry).interactions := by
    unfold Db.handle
    cases failure.nextRunAt cfg (clock 0) job <;> rfl
  rw [same, Db.appendError, Db.updateInteraction, Table.find?_modify, if_pos rfl, found]
  rfl

/-- A failure that is handled while no other is does to the row what the handler does. -/
theorem handle_alone {n : ℕ} (found : db.interactions.find? job.interactionId = some row) :
    (db.handle cfg clock job failure).interactions.find? job.interactionId =
      some ([.read n ⟨job.id, failure, clock 1⟩, .write n, .commit n].foldl Reports.step
        (Shared.start row)).value := by
  rw [interaction_handle found, ← flushError_self]
  simp [Reports.step, Shared.step, Shared.start]

end PostCall.Machine
