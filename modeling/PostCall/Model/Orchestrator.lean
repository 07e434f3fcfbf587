import PostCall.Model.Classifier
import PostCall.Model.Retry

/-!
# The orchestrator

`src/orchestrator/workflow.py`. All jobs of a run share one transaction. An exception while the
children of a job are created goes to the failure handler of that job, with the children made so far
kept, unless it came from the database: then the session refuses all further work and the whole
transaction is rolled back. `fault` is what the environment raises between the statements.
-/

namespace PostCall.Model
open PostCall.Library PostCall.Python

/-- What a row gets from its creation: its id, the time read, and the creation time. -/
structure Birth where
  id : UUID
  now : Time
  createdAt : Time

/-- The idempotency key of a job of an interaction. -/
def jobKey (interactionId : UUID) (tail : String) : String :=
  "interaction:" ++ interactionId.str ++ ":" ++ tail

/-- The arguments of `create_if_absent` for a job that another one queues. -/
def NewJob.child (parent : JobIdentity) (birth : Birth) (jobType : JobType) (priority : JobPriority)
    (tail : String) (payload : Dict) (tokenEstimate : ℤ := 0) (maxAttempts : Option ℕ := none) :
    NewJob where
  id := birth.id
  interactionId := parent.interactionId
  sessionId := parent.sessionId
  leadId := parent.leadId
  campaignId := parent.campaignId
  customerId := parent.customerId
  jobType := jobType
  priority := priority
  idempotencyKey := jobKey parent.interactionId tail
  payload := payload
  tokenEstimate := tokenEstimate
  maxAttempts := maxAttempts
  now := birth.now
  createdAt := birth.createdAt

/-- The rows that one job may queue. -/
inductive ChildSlot where
  | recording
  | analysis
  | signal
  | lead
  deriving DecidableEq

/-- `analysis_result.get("call_stage", "unknown")`, as an f-string writes it. -/
def callStageText (text : Text) (analysisResult : Dict) : String :=
  text.str (analysisResult.getD "call_stage" (.str "unknown"))

/-- The payload of a result job. -/
def resultPayload (payload analysisResult : Dict) : Dict :=
  Dict.set payload "analysis_result" (.dict analysisResult)

/-- A statement at which the environment may raise. -/
def Tx.interrupt (fault : Option PyError) : Tx Unit :=
  match fault with
  | some e => throw e
  | none => pure ()

/-- `_queue_result_jobs`, of the orchestrator and of the LLM worker. -/
def Tx.queueResultJobs (cfg : Settings) (text : Text) (births : ChildSlot → Birth)
    (job : JobIdentity) (payload analysisResult : Dict) (priority : JobPriority) (suffix : String)
    (fault : Option PyError := none) : Tx Unit := do
  let payload := resultPayload payload analysisResult
  let _ ← createIfAbsent cfg (.child job (births .signal) .signalJobs priority
    ("signal:" ++ suffix ++ ":v1") payload)
  interrupt fault
  let _ ← createIfAbsent cfg (.child job (births .lead) .leadStageUpdate priority
    ("lead:" ++ callStageText text analysisResult ++ ":v1") payload)

/-- What the environment decides about the processing of one job. -/
structure JobRun where
  births : ChildSlot → Birth
  fault : ℕ → Option PyError
  clock : Clock

/-- The result of a call too short for the language model. -/
def shortCallResult (callStage : String) : Dict := [
  ("call_stage", .str callStage),
  ("entities", .dict []),
  ("summary", .str "Short transcript; LLM skipped."),
  ("usage", .dict [("total_tokens", .int 0)])]

/-- The payload of the analysis job. -/
def llmPayload (payload : Dict) (classification : Classification) : Dict :=
  Dict.set payload "classification" (.dict [
    ("priority", .str classification.priority.value),
    ("reason", .str classification.reason)])

/-- Whether the payload names a call at the telephony provider. -/
def hasCallSid (payload : Dict) : Bool := (payload.getD "call_sid" .null).truthy

namespace WorkflowOrchestrator

/-- The text that is classified: the payload's own, or the one built from the turns. -/
def transcriptTextOf (text : Text) (payload : Dict) (turns : List Json) : Except PyError Json :=
  let given := payload.getD "transcript_text" .null
  if given.truthy then .ok given else Json.str <$> transcriptText text turns

/-- What `_create_child_jobs` computes before it writes. -/
def classification (text : Text) (payload : Dict) : Except PyError (Json × Classification) := do
  let turns ← transcript payload
  let transcriptText ← transcriptTextOf text payload turns
  let additionalData := orElse (payload.get? "additional_data") (.dict [])
  let classification ← classify text turns transcriptText additionalData
  return (transcriptText, classification)

/-- The recording job. -/
def queueRecording (cfg : Settings) (run : JobRun) (job : JobIdentity)
    (classification : Classification) : Tx Unit := do
  if hasCallSid job.payload then
    Tx.interrupt (run.fault 0)
    let _ ← Tx.createIfAbsent cfg (.child job (run.births .recording) .recordingFetch
      classification.priority "recording:v1" job.payload 0 (some cfg.recordingMaxAttempts))

/-- The branch of a short call. -/
def queueShortCall (cfg : Settings) (text : Text) (run : JobRun) (job : JobIdentity)
    (classification : Classification) : Tx Unit := do
  modify (·.markShortCall job.interactionId)
  Tx.interrupt (run.fault 2)
  Tx.queueResultJobs cfg text run.births job job.payload (shortCallResult classification.callStage)
    .high "short_call" (run.fault 4)

/-- The branch of a call for the language model. -/
def queueAnalysis (cfg : Settings) (run : JobRun) (job : InteractionJob) (transcriptText : Json)
    (classification : Classification) : Tx Unit := do
  modify (·.markProcessing job.interactionId "queued")
  Tx.interrupt (run.fault 3)
  let tokenEstimate ← Program.ofExcept (estimate cfg transcriptText)
  let _ ← Tx.createIfAbsent cfg (.child job.toJobIdentity (run.births .analysis) .llmAnalysis
    classification.priority "llm:v1" (llmPayload job.payload classification) tokenEstimate)
  Tx.emit job "priority_scheduler" "queued" "llm_job_queued"

def createChildJobs (cfg : Settings) (text : Text) (run : JobRun) (job : InteractionJob) :
    Tx Unit := do
  let (transcriptText, classification) ← Program.ofExcept (classification text job.payload)
  queueRecording cfg run job.toJobIdentity classification
  Tx.interrupt (run.fault 1)
  if classification.skipLlm then
    queueShortCall cfg text run job.toJobIdentity classification
  else
    queueAnalysis cfg run job transcriptText classification
  Tx.interrupt (run.fault 5)

/-- The `try` block of `_process_job`. -/
def orchestrate (cfg : Settings) (text : Text) (run : JobRun) (job : InteractionJob) : Tx Unit := do
  Tx.emit job "orchestrator" "running" "workflow_orchestration_started"
  createChildJobs cfg text run job
  let job ← Tx.markSucceeded job [("orchestrated_at", .str (text.isoformat (run.clock 0)))] 0
    (run.clock 1)
  Tx.emit job "orchestrator" "succeeded" "workflow_orchestration_completed"

def processJob (cfg : Settings) (text : Text) (run : JobRun) (job : InteractionJob) : Tx Unit :=
  tryCatch (orchestrate cfg text run job) fun e =>
    if e.breaksSession then throw e
    else modify (·.handle cfg run.clock job ⟨"orchestrator", e.className, e.message, none, true⟩)

/-- The loop of `run_once`. -/
def processJobs (cfg : Settings) (text : Text) (run : UUID → JobRun) :
    List InteractionJob → Tx Unit
  | [] => pure ()
  | job :: jobs => do
    processJob cfg text (run job.id) job
    processJobs cfg text run jobs

def runOnce (cfg : Settings) (text : Text) (workerId : String) (limit : ℕ)
    (recovery : RecoveryClock) (query : ClaimQuery) (run : UUID → JobRun) : Tx Unit := do
  Tx.recoverStaleRunningJobs cfg workerId recovery
  let jobs ← Tx.claimReadyJobs workerId [.orchestrateInteraction] limit query
  processJobs cfg text run jobs

end WorkflowOrchestrator

end PostCall.Model
