import PostCall.Model.Orchestrator

/-!
# The result worker

`src/workers/result_worker.py`. The signal jobs only write a log entry. The lead stage is written in
a transaction of its own, before the one that reports the job.
-/

namespace PostCall.Model
open PostCall.Library PostCall.Python

structure ClaimedResultJob where
  id : UUID
  jobType : JobType
  interactionId : UUID
  sessionId : UUID
  leadId : UUID
  campaignId : UUID
  payload : Dict

namespace ResultWorkerService

/-- The snapshot of `_claim_jobs`. -/
def snapshot (job : InteractionJob) : ClaimedResultJob where
  id := job.id
  jobType := job.jobType
  interactionId := job.interactionId
  sessionId := job.sessionId
  leadId := job.leadId
  campaignId := job.campaignId
  payload := job.payload

def claimJobs (workerId : String) (limit : ℕ) (query : ClaimQuery) :
    Tx (List ClaimedResultJob) := do
  let jobs ← Tx.claimReadyJobs workerId [.signalJobs, .leadStageUpdate] limit query
  return jobs.map snapshot

def processLeadStage (snapshot : ClaimedResultJob) : Tx Unit := do
  let analysisResult ← Program.ofExcept
    (orElse (snapshot.payload.get? "analysis_result") (.dict [])).asDict
  Tx.updateLeadStage snapshot.leadId (analysisResult.getD "call_stage" (.str "unknown"))

/-- The `try` block of `_process`. -/
def process (snapshot : ClaimedResultJob) (fault : Option PyError) : Tx Unit := do
  Tx.interrupt fault
  match snapshot.jobType with
  | .leadStageUpdate => processLeadStage snapshot
  | _ => return

/-- The success transaction of `_process`. -/
def complete (clock : Clock) (snapshot : ClaimedResultJob) : Tx Unit := do
  match (← get).queue.get? snapshot.id with
  | none => return
  | some job =>
    if job.status = .running then
      let job ← Tx.markSucceeded job [] 0 (clock 0)
      Tx.emit job "result_worker" "succeeded" "result_job_completed"

/-- The rest of `_process`, after the `try` block raised nothing or this. -/
def report (clock : Clock) (snapshot : ClaimedResultJob) (raised : Option PyError) :
    Except Failure (Tx Unit) :=
  match raised with
  | none => .ok (complete clock snapshot)
  | some e => .error ⟨"result_worker", e.className, e.message, none, true⟩

end ResultWorkerService

end PostCall.Model
