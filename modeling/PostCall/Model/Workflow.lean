import PostCall.Library.Table
import PostCall.Model.Config
import PostCall.Python.Uuid

/-!
# The rows of the workflow

`src/models/workflow.py`, `src/models/interaction.py` and `src/models/lead.py`: the rows of the
tables, with the columns the modelled functions read or write. The columns of a job that are written
when the row is created and never again are grouped in `JobIdentity`.
-/

namespace PostCall.Model
open PostCall.Library PostCall.Python

inductive JobPriority where
  | high
  | medium
  | low
  deriving DecidableEq, Repr

inductive JobStatus where
  | pending
  | running
  | deferred
  | succeeded
  | failed
  | deadLettered
  deriving DecidableEq, Repr

inductive JobType where
  | orchestrateInteraction
  | llmAnalysis
  | recordingFetch
  | signalJobs
  | leadStageUpdate
  deriving DecidableEq, Repr

/-- `JobPriority.value`. -/
def JobPriority.value : JobPriority → String
  | .high => "HIGH"
  | .medium => "MEDIUM"
  | .low => "LOW"

/-- `JobStatus.value`. -/
def JobStatus.value : JobStatus → String
  | .pending => "PENDING"
  | .running => "RUNNING"
  | .deferred => "DEFERRED"
  | .succeeded => "SUCCEEDED"
  | .failed => "FAILED"
  | .deadLettered => "DEAD_LETTERED"

/-- `JobType.value`. -/
def JobType.value : JobType → String
  | .orchestrateInteraction => "ORCHESTRATE_INTERACTION"
  | .llmAnalysis => "LLM_ANALYSIS"
  | .recordingFetch => "RECORDING_FETCH"
  | .signalJobs => "SIGNAL_JOBS"
  | .leadStageUpdate => "LEAD_STAGE_UPDATE"

/-- The columns of a job that its creation fixes. -/
structure JobIdentity where
  id : UUID
  interactionId : UUID
  sessionId : UUID
  leadId : UUID
  campaignId : UUID
  customerId : UUID
  jobType : JobType
  priority : JobPriority
  idempotencyKey : String
  payload : Dict
  tokenEstimate : ℤ
  maxAttempts : ℕ
  createdAt : Time

/-- A row of `interaction_jobs`. -/
structure InteractionJob extends JobIdentity where
  status : JobStatus
  result : Dict
  tokensUsed : ℤ
  attempts : ℕ
  runAfter : Time
  lockedBy : Option String
  lockedAt : Option Time
  startedAt : Option Time
  completedAt : Option Time
  lastErrorCode : Option String
  lastErrorMessage : Option String

/-- A row of `dead_letter_jobs`. -/
structure DeadLetterJob where
  originalJobId : UUID
  interactionId : UUID
  customerId : UUID
  campaignId : UUID
  jobType : JobType
  stage : String
  payload : Dict
  attempts : ℕ
  lastErrorCode : String
  lastErrorMessage : String

/-- A row of `customer_token_usage`. -/
structure CustomerTokenUsage where
  customerId : UUID
  windowStart : Time
  budgetTokens : ℤ
  reservedTokens : ℤ
  usedTokens : ℤ
  requestsReserved : ℤ
  requestsUsed : ℤ
  deriving DecidableEq

/-- The customer and the window of a row, which are its key. -/
def CustomerTokenUsage.key (u : CustomerTokenUsage) : UUID × Time := (u.customerId, u.windowStart)

/-- A row of `audit_events`. -/
structure AuditEvent where
  interactionId : UUID
  jobId : UUID
  customerId : UUID
  campaignId : UUID
  stage : String
  status : String
  retryCount : ℕ
  tokenUsage : ℤ
  errorCode : Option String
  message : String
  deriving DecidableEq

inductive InteractionStatus where
  | initiated
  | ringing
  | inProgress
  | ended
  | failed
  | processing
  deriving DecidableEq, Repr

/-- An entry of the column `error_log`. -/
structure ErrorEntry where
  stage : String
  errorCode : String
  errorMessage : String
  loggedAt : Time
  deriving DecidableEq

/-- A row of `interactions`. -/
structure Interaction where
  id : UUID
  sessionId : UUID
  leadId : UUID
  campaignId : UUID
  customerId : UUID
  agentId : UUID
  status : InteractionStatus
  callSid : Option String
  endedAt : Option Time
  durationSeconds : Option ℤ
  conversationData : Json
  interactionMetadata : Dict
  recordingS3Key : Option String
  retryCount : ℕ
  errorLog : List ErrorEntry

/-- A row of `leads`. -/
structure Lead where
  id : UUID
  stage : String

/-- `interaction_jobs`: `id` is the primary key, `idempotency_key` is unique. -/
abbrev JobTable := Table InteractionJob (fun job => job.id) (fun job => job.idempotencyKey)

/-- `customer_token_usage`: one row for a customer and a window. -/
abbrev UsageTable := Table CustomerTokenUsage CustomerTokenUsage.key CustomerTokenUsage.key

abbrev InteractionTable := Table Interaction (fun i => i.id) (fun i => i.id)

abbrev LeadTable := Table Lead (fun l => l.id) (fun l => l.id)

/-- A column of type `Integer` holds 32 bits. -/
def fitsInteger (n : ℤ) : Bool := -2147483648 ≤ n && n ≤ 2147483647

end PostCall.Model
