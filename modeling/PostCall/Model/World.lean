import PostCall.Library.Run
import PostCall.Model.Entry
import PostCall.Model.LlmWorker
import PostCall.Model.RecordingWorker
import PostCall.Model.ResultWorker

/-!
# The system

The database and the executions in flight. Each action is one transaction of the source, or the end
of an execution whose worker died; any number of workers take them in any order, and what the
environment decides is an argument of the action. A transaction that raises leaves the database
alone. The claim number of an execution is a history variable: how often its job had been claimed
when it began.
-/

namespace PostCall.Model
open PostCall.Library PostCall.Python

/-- What a worker holds of a job between its transactions. -/
inductive Work where
  | analysis (snapshot : ClaimedLLMJob)
  | recording (snapshot : ClaimedRecordingJob)
  | result (snapshot : ClaimedResultJob)
  | processed (snapshot : ClaimedResultJob) (raised : Option PyError)

/-- The job a worker works on. -/
def Work.jobId : Work → UUID
  | .analysis snapshot => snapshot.id
  | .recording snapshot => snapshot.id
  | .result snapshot => snapshot.id
  | .processed snapshot _ => snapshot.id

/-- An execution of a job. -/
structure InFlight where
  work : Work
  claim : ℕ

/-- The job that is executed. -/
def InFlight.jobId (f : InFlight) : UUID := f.work.jobId

structure World where
  db : Db
  inflight : List InFlight

/-- What the environment answers to an execution. -/
inductive Outcome where
  | analysis (outcome : ProviderOutcome) (births : ChildSlot → Birth)
  | recording (answer : ExotelAnswer)
  | result

/-- How an execution ends: in a success transaction or in a failure. -/
def Work.conclusion (cfg : Settings) (text : Text) (clock : Clock) :
    Work → Outcome → Option (Except Failure (Tx Unit))
  | .analysis snapshot, .analysis outcome births =>
    some (LLMWorkerService.processSnapshot cfg text births clock snapshot outcome)
  | .recording snapshot, .recording answer =>
    some (RecordingWorkerService.process cfg text clock snapshot answer)
  | .processed snapshot raised, .result => some (ResultWorkerService.report clock snapshot raised)
  | _, _ => none

inductive Action where
  | createIfAbsent (new : NewJob)
  | recoverStaleRunningJobs (workerId : String) (recovery : RecoveryClock)
  | endInteraction (request : EndRequest)
  | legacyTask (payload : Dict) (birth : Birth)
  | orchestrate (workerId : String) (limit : ℕ) (recovery : RecoveryClock) (query : ClaimQuery)
      (run : UUID → JobRun)
  | claimAnalyses (workerId : String) (limit : ℕ) (recovery : RecoveryClock) (query : ClaimQuery)
      (clock : UUID → Clock)
  | claimRecordings (workerId : String) (limit : ℕ) (query : ClaimQuery)
  | claimResults (workerId : String) (limit : ℕ) (query : ClaimQuery)
  | processResult (n : ℕ) (fault : Option PyError)
  | report (n : ℕ) (outcome : Outcome) (clock : Clock)
  | crash (n : ℕ)

namespace World

/-- The database after a transaction. -/
def transact {α : Type} (db : Db) (x : Tx α) : Db :=
  match commit x db with
  | some (_, db') => db'
  | none => db

/-- A transaction of a claim, and the executions it begins. -/
def claim {α : Type} (w : World) (x : Tx (List α)) (work : α → Work) : World :=
  match commit x w.db with
  | some (jobs, db) =>
    ⟨db, w.inflight ++ (jobs.map work).map fun work => ⟨work, db.queue.timesClaimed work.jobId⟩⟩
  | none => w

/-- The webhook: its transaction, and one more when the wakeup of the worker fails. -/
def endInteraction (cfg : Settings) (text : Text) (db : Db) (request : EndRequest) : Db :=
  match commit (Model.endInteraction cfg text request) db with
  | some (job, db) =>
    match request.wakeup with
    | some e => transact db (wakeupFailed job e)
    | none => db
  | none => db

/-- What the `try` block of a result execution leaves, and what the execution goes on with. -/
def processResult (w : World) (n : ℕ) (fault : Option PyError) : World :=
  match w.inflight[n]? with
  | some ⟨.result snapshot, claim⟩ =>
    match ResultWorkerService.process snapshot fault w.db with
    | .ok _ db => ⟨db, w.inflight.set n ⟨.processed snapshot none, claim⟩⟩
    | .error e _ => ⟨w.db, w.inflight.set n ⟨.processed snapshot (some e), claim⟩⟩
  | _ => w

/-- The last transaction of an execution. -/
def report (cfg : Settings) (text : Text) (w : World) (n : ℕ) (outcome : Outcome) (clock : Clock) :
    World :=
  match w.inflight[n]? with
  | some f =>
    match f.work.conclusion cfg text clock outcome with
    | some conclusion =>
      ⟨transact w.db (Tx.conclude cfg clock f.jobId conclusion), w.inflight.eraseIdx n⟩
    | none => w
  | none => w

/-- One action. -/
def step (cfg : Settings) (text : Text) (w : World) : Action → World
  | .createIfAbsent new => { w with db := transact w.db (Tx.createIfAbsent cfg new) }
  | .recoverStaleRunningJobs workerId recovery =>
    { w with db := transact w.db (Tx.recoverStaleRunningJobs cfg workerId recovery) }
  | .endInteraction request => { w with db := endInteraction cfg text w.db request }
  | .legacyTask payload birth =>
    { w with db := transact w.db (persistLegacyPayload cfg text payload birth) }
  | .orchestrate workerId limit recovery query run =>
    { w with
      db := transact w.db
        (WorkflowOrchestrator.runOnce cfg text workerId limit recovery query run) }
  | .claimAnalyses workerId limit recovery query clock =>
    w.claim (LLMWorkerService.claimAdmittedJobs cfg workerId limit recovery query clock) .analysis
  | .claimRecordings workerId limit query =>
    w.claim (RecordingWorkerService.claimJobs workerId limit query) .recording
  | .claimResults workerId limit query =>
    w.claim (ResultWorkerService.claimJobs workerId limit query) .result
  | .processResult n fault => w.processResult n fault
  | .report n outcome clock => report cfg text w n outcome clock
  | .crash n => { w with inflight := w.inflight.eraseIdx n }

/-- The system in which one interaction is recorded and nothing has happened yet. -/
def ofInteraction (interaction : Interaction) : World where
  db := {
    queue := .empty
    usage := .empty
    interactions := ⟨[interaction], by simp, by simp⟩
    leads := .empty
    auditEvents := [] }
  inflight := []

end World

/-! ### Plain values, for runs on concrete inputs -/

/-- An interaction of which nothing is known. -/
def Interaction.plain : Interaction where
  id := 1
  sessionId := 1
  leadId := 1
  campaignId := 1
  customerId := 1
  agentId := 1
  status := .ended
  callSid := none
  endedAt := none
  durationSeconds := none
  conversationData := .null
  interactionMetadata := []
  recordingS3Key := none
  retryCount := 0
  errorLog := []

/-- A job of that interaction, created at time zero. -/
def NewJob.plain (id : UUID) (jobType : JobType) (payload : Dict := []) : NewJob where
  id := id
  interactionId := 1
  sessionId := 1
  leadId := 1
  campaignId := 1
  customerId := 1
  jobType := jobType
  priority := .high
  idempotencyKey := String.ofList id.chars
  payload := payload
  now := 0
  createdAt := 0

/-- The births of the jobs that one job queues, at time zero. -/
def Birth.plain : ChildSlot → Birth
  | .recording => ⟨2, 0, 0⟩
  | .analysis => ⟨3, 0, 0⟩
  | .signal => ⟨4, 0, 0⟩
  | .lead => ⟨5, 0, 0⟩

/-- A delivery of the webhook for that interaction, which makes a job under this id. -/
def EndRequest.plain (birth : UUID) : EndRequest where
  sessionId := 1
  interactionId := 1
  callSid := none
  durationSeconds := none
  additionalData := none
  endedAt := 0
  birth := ⟨birth, 0, 0⟩
  wakeup := none

/-- A claim at a time, with no row locked elsewhere. -/
def ClaimQuery.at (now : Time) : ClaimQuery := ⟨now, fun _ => false, fun _ => 0⟩

/-- A recovery at a time. -/
def RecoveryClock.at (now : Time) : RecoveryClock := ⟨now, fun _ => now⟩

/-- The system after these actions. -/
def after (as : List Action) : World := as.foldl (World.step settings .plain) (.ofInteraction .plain)

end PostCall.Model
