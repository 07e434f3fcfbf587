import PostCall.Library.Program
import PostCall.Model.Budget
import PostCall.Model.Jobs

/-!
# The database

The tables, and a transaction over them: a program that may raise. The operations of
`src/repositories/jobs.py` are lifted from the queue to the database here; one that changes a row
returns the row as the caller's object then reads. `emit` is `src/logging/audit.py`; the metadata of
an event is left out, since nothing reads it.
-/

namespace PostCall.Model
open PostCall.Library PostCall.Python

/-- The tables. -/
structure Db where
  queue : Queue
  usage : UsageTable
  interactions : InteractionTable
  leads : LeadTable
  auditEvents : List AuditEvent

/-- A transaction, or a part of one. -/
abbrev Tx := EStateM PyError Db

/-- The event `emit` adds, with what `AuditContext.from_job` reads from the job. -/
def AuditEvent.ofJob (job : InteractionJob) (stage status message : String)
    (errorCode : Option String) : AuditEvent where
  interactionId := job.interactionId
  jobId := job.id
  customerId := job.customerId
  campaignId := job.campaignId
  stage := stage
  status := status
  retryCount := job.attempts
  tokenUsage := job.tokensUsed
  errorCode := errorCode
  message := message

namespace Db

/-- Work on the queue alone. -/
def mapQueue (db : Db) (f : Queue → Queue) : Db := { db with queue := f db.queue }

/-- `AuditLogger.emit`. -/
def emit (db : Db) (job : InteractionJob) (stage status message : String)
    (errorCode : Option String := none) : Db :=
  { db with auditEvents := db.auditEvents ++ [.ofJob job stage status message errorCode] }

@[simp] lemma mapQueue_queue {db : Db} {f} : (db.mapQueue f).queue = f db.queue := rfl
@[simp] lemma mapQueue_usage {db : Db} {f} : (db.mapQueue f).usage = db.usage := rfl
@[simp] lemma mapQueue_interactions {db : Db} {f} :
    (db.mapQueue f).interactions = db.interactions := rfl
@[simp] lemma mapQueue_leads {db : Db} {f} : (db.mapQueue f).leads = db.leads := rfl
@[simp] lemma mapQueue_auditEvents {db : Db} {f} :
    (db.mapQueue f).auditEvents = db.auditEvents := rfl

variable {db : Db} {job : InteractionJob} {stage status message : String} {code : Option String}

@[simp] lemma emit_queue : (db.emit job stage status message code).queue = db.queue := rfl
@[simp] lemma emit_usage : (db.emit job stage status message code).usage = db.usage := rfl
@[simp] lemma emit_interactions :
    (db.emit job stage status message code).interactions = db.interactions := rfl

end Db

namespace Tx

/-- `create_if_absent`: the row under the key, which is inserted if there is none. The columns take the
key and the payload, and the interaction has a row. -/
def createIfAbsent (cfg : Settings) (new : NewJob) : Tx InteractionJob := do
  let db ← get
  match db.queue.getByIdempotencyKey? new.idempotencyKey with
  | some existing => return existing
  | none =>
    if !new.fits then throw (.dataError "invalid input for a column of interaction_jobs")
    else if (db.interactions.find? new.interactionId).isNone then
      throw (.integrityError "interaction_jobs_interaction_id_fkey")
    else
      match db.queue.add? (new.row cfg) with
      | some queue =>
        set { db with queue := queue }
        return new.row cfg
      | none => throw (.integrityError "interaction_jobs_pkey")

def claimReadyJobs (workerId : String) (jobTypes : List JobType) (limit : ℕ) (query : ClaimQuery) :
    Tx (List InteractionJob) := do
  let db ← get
  let (queue, jobs) := db.queue.claimReadyJobs workerId jobTypes limit query
  set { db with queue := queue }
  return jobs

def recoverStaleRunningJobs (cfg : Settings) (workerId : String) (clock : RecoveryClock) : Tx Unit :=
  modify (·.mapQueue (·.recoverStaleRunningJobs cfg workerId clock))

def markSucceeded (job : InteractionJob) (result : Dict) (tokensUsed : ℤ) (now : Time) :
    Tx InteractionJob := do
  modify (·.mapQueue (·.markSucceeded job.id result tokensUsed now))
  return job.markSucceeded result tokensUsed now

def defer (job : InteractionJob) (runAfter : Time) (errorCode errorMessage : String) :
    Tx InteractionJob := do
  modify (·.mapQueue (·.defer job.id runAfter errorCode errorMessage))
  return job.defer runAfter errorCode errorMessage

/-- `audit_logger.emit`. -/
def emit (job : InteractionJob) (stage status message : String)
    (errorCode : Option String := none) : Tx Unit :=
  modify (·.emit job stage status message errorCode)

end Tx

end PostCall.Model
