import PostCall.Model.Interactions

/-!
# Retries

`src/retries/policy.py` and `src/workers/failure_handler.py`: the exponential backoff with a cap,
and what a failed execution of a job does. `handle` reads the attempts of the row as it is now and
does not look at its status.
-/

namespace PostCall.Model
open PostCall.Library PostCall.Python

/-- `ExponentialBackoffPolicy`. -/
structure RetryPolicy where
  baseSeconds : ℕ
  maxSeconds : ℕ

/-- The policy the failure handler has. -/
def retryPolicy (cfg : Settings) : RetryPolicy :=
  ⟨cfg.workflowBaseRetrySeconds, cfg.workflowMaxRetrySeconds⟩

structure RetryDecision where
  shouldRetry : Bool
  nextRunAt : Option Time
  delaySeconds : ℤ

namespace RetryPolicy

def nextDelay (policy : RetryPolicy) (attempt : ℕ) (retryAfterSeconds : Option ℤ) : ℤ :=
  let backoff : ℤ := min (policy.baseSeconds * 2 ^ (attempt - 1)) policy.maxSeconds
  match retryAfterSeconds with
  | some s => if 0 < s then min s policy.maxSeconds else backoff
  | none => backoff

def decide (policy : RetryPolicy) (attempt maxAttempts : ℕ) (now : Time)
    (retryAfterSeconds : Option ℤ) : RetryDecision :=
  if attempt ≥ maxAttempts then ⟨false, none, 0⟩
  else
    let delay := policy.nextDelay attempt retryAfterSeconds
    ⟨true, some (now + seconds delay), delay⟩

end RetryPolicy

/-- What a worker reports of a failed execution. -/
structure Failure where
  stage : String
  errorCode : String
  errorMessage : String
  retryAfterSeconds : Option ℤ := none
  retryable : Bool := true

/-- When `handle` lets the job run again, if it does. -/
def Failure.nextRunAt (failure : Failure) (cfg : Settings) (now : Time) (job : InteractionJob) :
    Option Time :=
  let decision :=
    if failure.retryable then
      some ((retryPolicy cfg).decide job.attempts job.maxAttempts now failure.retryAfterSeconds)
    else none
  match decision with
  | some decision => if decision.shouldRetry then decision.nextRunAt else none
  | none => none

/-- `JobFailureHandler.handle`. The clock is read for the decision, for the entry of the log and for
the completion time. -/
def Db.handle (cfg : Settings) (clock : Clock) (job : InteractionJob) (failure : Failure)
    (db : Db) : Db :=
  let db := db.mapQueue (·.recordFailure job.id)
  let db := db.appendError job.interactionId
    ⟨failure.stage, failure.errorCode, failure.errorMessage, clock 1⟩
  match failure.nextRunAt cfg (clock 0) job with
  | some runAfter =>
    let db := db.mapQueue (·.defer job.id runAfter failure.errorCode failure.errorMessage)
    db.emit (job.defer runAfter failure.errorCode failure.errorMessage) failure.stage "deferred"
      "job_retry_scheduled" (some failure.errorCode)
  | none =>
    let db := db.mapQueue
      (·.deadLetter job failure.stage failure.errorCode failure.errorMessage (clock 2))
    db.emit (job.deadLetter failure.errorCode failure.errorMessage (clock 2)) failure.stage
      "dead_lettered" "job_moved_to_dead_letter" (some failure.errorCode)

lemma Db.handle_queue {cfg : Settings} {clock : Clock} {job : InteractionJob} {failure : Failure}
    {db : Db} :
    (db.handle cfg clock job failure).queue =
      match failure.nextRunAt cfg (clock 0) job with
      | some runAfter => (db.queue.recordFailure job.id).defer job.id runAfter failure.errorCode
          failure.errorMessage
      | none => (db.queue.recordFailure job.id).deadLetter job failure.stage failure.errorCode
          failure.errorMessage (clock 2) := by
  unfold handle
  cases failure.nextRunAt cfg (clock 0) job <;> rfl

/-- `_handle_failure` of the LLM, recording and result workers: the handler on the row as it is. -/
def Tx.handleFailure (cfg : Settings) (clock : Clock) (jobId : UUID) (failure : Failure) :
    Tx Unit := do
  match (← get).queue.get? jobId with
  | none => return
  | some job => modify (·.handle cfg clock job failure)

/-- The transaction a worker ends the execution of a job with: its success transaction, or the
handling of the failure. -/
def Tx.conclude (cfg : Settings) (clock : Clock) (jobId : UUID) : Except Failure (Tx Unit) → Tx Unit
  | .ok complete => complete
  | .error failure => handleFailure cfg clock jobId failure

namespace Failure

variable {failure : Failure} {cfg : Settings} {now : Time} {job : InteractionJob}

/-- With attempts left, a failure that may be retried is deferred by its delay. -/
lemma nextRunAt_of_lt (retryable : failure.retryable) (lt : job.attempts < job.maxAttempts) :
    failure.nextRunAt cfg now job =
      some (now + seconds ((retryPolicy cfg).nextDelay job.attempts failure.retryAfterSeconds)) := by
  simp [nextRunAt, retryable, RetryPolicy.decide, Nat.not_le.2 lt]

lemma nextRunAt_of_le (le : job.maxAttempts ≤ job.attempts) :
    failure.nextRunAt cfg now job = none := by
  cases h : failure.retryable <;> simp [nextRunAt, RetryPolicy.decide, h, le]

lemma nextRunAt_of_permanent (permanent : failure.retryable = false) :
    failure.nextRunAt cfg now job = none := by
  simp [nextRunAt, permanent]

lemma of_nextRunAt {runAfter : Time} (h : failure.nextRunAt cfg now job = some runAfter) :
    failure.retryable ∧ job.attempts < job.maxAttempts ∧
      runAfter = now + seconds ((retryPolicy cfg).nextDelay job.attempts
        failure.retryAfterSeconds) := by
  cases retryable : failure.retryable with
  | false =>
    rw [nextRunAt_of_permanent retryable] at h
    cases h
  | true =>
    by_cases lt : job.attempts < job.maxAttempts
    · rw [nextRunAt_of_lt retryable lt] at h
      exact ⟨rfl, lt, (Option.some.inj h).symm⟩
    · rw [nextRunAt_of_le (Nat.not_lt.1 lt)] at h
      cases h

end Failure

end PostCall.Model
