import PostCall.Library.Select
import PostCall.Model.Workflow

/-!
# The job repository

`src/repositories/jobs.py` over a `Queue`: the job table, the dead letters, and a history variable.
The history lists, newest first, what the operations did to which job; no operation reads it. An
operation of the source that changes one row is the row's own function under the operation's name,
applied by `updateJob`; the row function leaves the identity of the job alone.
-/

namespace PostCall.Model
open PostCall.Library PostCall.Python

/-- What happened to a job. A refusal by the rate limiter carries the attempts of the job then. -/
inductive JobEvent where
  | claimed (job : UUID)
  | recovered (job : UUID)
  | succeeded (job : UUID)
  | failed (job : UUID)
  | refused (job : UUID) (attempts : ℕ)
  | deferred (job : UUID)
  | deadLettered (job : UUID)
  deriving DecidableEq

/-- The job an event is about. -/
def JobEvent.job : JobEvent → UUID
  | .claimed job | .recovered job | .succeeded job | .failed job | .refused job _ | .deferred job
  | .deadLettered job => job

/-- The job table, the dead letters and the history of both. -/
structure Queue where
  jobs : JobTable
  deadLetterJobs : List DeadLetterJob
  history : List JobEvent

/-- The queue before the first job. -/
def Queue.empty : Queue := ⟨Table.empty, [], []⟩

namespace InteractionJob

/-- A row that `claim_ready_jobs` takes. -/
def claim (workerId : String) (now : Time) (job : InteractionJob) : InteractionJob :=
  { job with
    status := .running
    attempts := job.attempts + 1
    lockedBy := some workerId
    lockedAt := some now
    startedAt := some (job.startedAt.getD now) }

/-- A row that `recover_stale_running_jobs` moves back. -/
def recover (workerId : String) (now : Time) (job : InteractionJob) : InteractionJob :=
  { job with
    status := .deferred
    lockedBy := none
    lockedAt := none
    runAfter := now
    lastErrorCode := some "WORKER_LOCK_TIMEOUT"
    lastErrorMessage := some s!"Recovered stale lock by {workerId}" }

/-- The row after `mark_succeeded`. -/
def markSucceeded (result : Dict) (tokensUsed : ℤ) (now : Time) (job : InteractionJob) :
    InteractionJob :=
  { job with
    status := .succeeded
    result := result
    tokensUsed := tokensUsed
    completedAt := some now
    lockedBy := none
    lockedAt := none }

/-- The row after `defer`. -/
def defer (runAfter : Time) (errorCode errorMessage : String) (job : InteractionJob) :
    InteractionJob :=
  { job with
    status := .deferred
    runAfter := runAfter
    lockedBy := none
    lockedAt := none
    lastErrorCode := some errorCode
    lastErrorMessage := some errorMessage }

/-- The row after `dead_letter`. -/
def deadLetter (errorCode errorMessage : String) (now : Time) (job : InteractionJob) :
    InteractionJob :=
  { job with
    status := .deadLettered
    completedAt := some now
    lockedBy := none
    lockedAt := none
    lastErrorCode := some errorCode
    lastErrorMessage := some errorMessage }

/-! None of these changes the identity of the job. -/

section

variable {job : InteractionJob} {workerId errorCode errorMessage : String} {now : Time}

@[simp] lemma claim_identity : (job.claim workerId now).toJobIdentity = job.toJobIdentity := rfl

@[simp] lemma recover_identity : (job.recover workerId now).toJobIdentity = job.toJobIdentity := rfl

@[simp] lemma markSucceeded_identity {result : Dict} {tokensUsed : ℤ} :
    (job.markSucceeded result tokensUsed now).toJobIdentity = job.toJobIdentity := rfl

@[simp] lemma defer_identity :
    (job.defer now errorCode errorMessage).toJobIdentity = job.toJobIdentity := rfl

@[simp] lemma deadLetter_identity :
    (job.deadLetter errorCode errorMessage now).toJobIdentity = job.toJobIdentity := rfl

/-! Only a claim counts an attempt. -/

@[simp] lemma claim_attempts : (job.claim workerId now).attempts = job.attempts + 1 := rfl

@[simp] lemma recover_attempts : (job.recover workerId now).attempts = job.attempts := rfl

@[simp] lemma markSucceeded_attempts {result : Dict} {tokensUsed : ℤ} :
    (job.markSucceeded result tokensUsed now).attempts = job.attempts := rfl

@[simp] lemma defer_attempts :
    (job.defer now errorCode errorMessage).attempts = job.attempts := rfl

@[simp] lemma deadLetter_attempts :
    (job.deadLetter errorCode errorMessage now).attempts = job.attempts := rfl

/-! The status after each. -/

@[simp] lemma claim_status : (job.claim workerId now).status = .running := rfl

@[simp] lemma recover_status : (job.recover workerId now).status = .deferred := rfl

@[simp] lemma markSucceeded_status {result : Dict} {tokensUsed : ℤ} :
    (job.markSucceeded result tokensUsed now).status = .succeeded := rfl

@[simp] lemma defer_status : (job.defer now errorCode errorMessage).status = .deferred := rfl

@[simp] lemma deadLetter_status :
    (job.deadLetter errorCode errorMessage now).status = .deadLettered := rfl

end

/-- The filter of `claim_ready_jobs`; a row that another transaction has locked is skipped. -/
def ready (jobTypes : List JobType) (now : Time) (locked : UUID → Bool) (job : InteractionJob) :
    Bool :=
  jobTypes.contains job.jobType && (job.status = .pending || job.status = .deferred) &&
    job.runAfter ≤ now && !locked job.id

/-- The filter of `recover_stale_running_jobs`: a lock time of `NULL` is before no time. -/
def stale (cutoff : Time) (job : InteractionJob) : Bool :=
  job.status = .running && job.lockedAt.any (· < cutoff)

lemma running_of_stale {cutoff : Time} {job : InteractionJob} (h : job.stale cutoff) :
    job.status = .running := by
  simp only [stale, Bool.and_eq_true, decide_eq_true_eq] at h
  exact h.1

end InteractionJob

/-- The row that `dead_letter` adds. -/
def DeadLetterJob.ofJob (job : InteractionJob) (stage errorCode errorMessage : String) :
    DeadLetterJob where
  originalJobId := job.id
  interactionId := job.interactionId
  customerId := job.customerId
  campaignId := job.campaignId
  jobType := job.jobType
  stage := stage
  payload := job.payload
  attempts := job.attempts
  lastErrorCode := errorCode
  lastErrorMessage := errorMessage

def priorityOrder : JobPriority → ℕ
  | .high => 0
  | .medium => 1
  | .low => 2

/-- `ORDER BY priority_order, created_at`. The order of rows that tie is the database's choice. -/
def claimOrder (tie : UUID → ℕ) (a b : InteractionJob) : Prop :=
  priorityOrder a.priority < priorityOrder b.priority ∨
    (priorityOrder a.priority = priorityOrder b.priority ∧
      (a.createdAt < b.createdAt ∨ (a.createdAt = b.createdAt ∧ tie a.id ≤ tie b.id)))

instance (tie : UUID → ℕ) : DecidableRel (claimOrder tie) := fun a b => by
  unfold claimOrder; infer_instance

instance (tie : UUID → ℕ) : Std.Total (claimOrder tie) where
  total a b := by
    unfold claimOrder
    grind

instance (tie : UUID → ℕ) : IsTrans InteractionJob (claimOrder tie) where
  trans a b c := by
    unfold claimOrder
    grind

/-- What the environment decides about a claim: the time read, the rows locked elsewhere, and the
order of ties. -/
structure ClaimQuery where
  now : Time
  locked : UUID → Bool
  tie : UUID → ℕ

/-- What the environment decides about a recovery: the time read for the cutoff, and the time read
for each row. -/
structure RecoveryClock where
  now : Time
  moved : UUID → Time

/-- The arguments of `create_if_absent`, with the id, the time and the creation time the row gets. -/
structure NewJob where
  id : UUID
  interactionId : UUID
  sessionId : UUID
  leadId : UUID
  campaignId : UUID
  customerId : UUID
  jobType : JobType
  priority : JobPriority
  idempotencyKey : String
  payload : Dict
  tokenEstimate : ℤ := 0
  maxAttempts : Option ℕ := none
  runAfter : Option Time := none
  now : Time
  createdAt : Time

/-- Whether the columns of the key and the payload take them. -/
def NewJob.fits (new : NewJob) : Bool :=
  new.idempotencyKey.length ≤ 255 && Json.storableText new.idempotencyKey &&
    (Json.dict new.payload).storable

/-- `max_attempts or settings.WORKFLOW_MAX_ATTEMPTS`. -/
def attemptLimit (cfg : Settings) (maxAttempts : Option ℕ) : ℕ :=
  match maxAttempts with
  | some n => if n = 0 then cfg.workflowMaxAttempts else n
  | none => cfg.workflowMaxAttempts

/-- The row `create_if_absent` inserts. -/
def NewJob.row (cfg : Settings) (new : NewJob) : InteractionJob where
  id := new.id
  interactionId := new.interactionId
  sessionId := new.sessionId
  leadId := new.leadId
  campaignId := new.campaignId
  customerId := new.customerId
  jobType := new.jobType
  priority := new.priority
  idempotencyKey := new.idempotencyKey
  payload := new.payload
  tokenEstimate := new.tokenEstimate
  maxAttempts := attemptLimit cfg new.maxAttempts
  createdAt := new.createdAt
  status := .pending
  result := []
  tokensUsed := 0
  attempts := 0
  runAfter := new.runAfter.getD new.now
  lockedBy := none
  lockedAt := none
  startedAt := none
  completedAt := none
  lastErrorCode := none
  lastErrorMessage := none

namespace Queue

/-- How often a job has been claimed. -/
def timesClaimed (q : Queue) (id : UUID) : ℕ := q.history.count (.claimed id)

/-- Replace the row of a job by a row of the same job, and record what happened. -/
def updateJob (q : Queue) (id : UUID) (event : JobEvent) (f : InteractionJob → InteractionJob)
    (same : ∀ job, (f job).toJobIdentity = job.toJobIdentity) : Queue :=
  { q with
    jobs := q.jobs.modify id f (fun job => congrArg JobIdentity.id (same job))
      (fun job => congrArg JobIdentity.idempotencyKey (same job))
    history := event :: q.history }

/-- `get`. -/
def get? (q : Queue) (id : UUID) : Option InteractionJob := q.jobs.find? id

/-- `get_by_idempotency_key`. -/
def getByIdempotencyKey? (q : Queue) (key : String) : Option InteractionJob := q.jobs.findIndex? key

/-- `session.add(job)` and the flush, for a row whose unique columns are free. -/
def add? (q : Queue) (job : InteractionJob) : Option Queue :=
  (q.jobs.insert? job).map fun jobs => { q with jobs := jobs }

/-- Several insertions in a row. -/
def addAll? : Queue → List InteractionJob → Option Queue
  | q, [] => some q
  | q, job :: jobs => (q.add? job).bind fun q => addAll? q jobs

/-- One pass of the loop in `claim_ready_jobs`. -/
def claim (workerId : String) (now : Time) (q : Queue) (id : UUID) : Queue :=
  q.updateJob id (.claimed id) (·.claim workerId now) fun _ => InteractionJob.claim_identity

/-- The rows that the query of `claim_ready_jobs` selects. -/
def readyJobs (q : Queue) (jobTypes : List JobType) (limit : ℕ) (query : ClaimQuery) :
    List InteractionJob :=
  select (claimOrder query.tie) (·.ready jobTypes query.now query.locked) limit q.jobs.rows

def claimReadyJobs (q : Queue) (workerId : String) (jobTypes : List JobType) (limit : ℕ)
    (query : ClaimQuery) : Queue × List InteractionJob :=
  let jobs := q.readyJobs jobTypes limit query
  ((jobs.map (·.id)).foldl (claim workerId query.now) q, jobs.map (·.claim workerId query.now))

/-- One pass of the loop in `recover_stale_running_jobs`. -/
def recover (workerId : String) (moved : UUID → Time) (q : Queue) (id : UUID) : Queue :=
  q.updateJob id (.recovered id) (·.recover workerId (moved id)) fun _ =>
    InteractionJob.recover_identity

/-- The cutoff of `recover_stale_running_jobs`. -/
def lockCutoff (cfg : Settings) (now : Time) : Time := now - seconds cfg.jobLockTimeoutSeconds

/-- The rows that the query of `recover_stale_running_jobs` selects. -/
def staleJobs (q : Queue) (cfg : Settings) (now : Time) : List InteractionJob :=
  q.jobs.rows.filter (·.stale (lockCutoff cfg now))

def recoverStaleRunningJobs (cfg : Settings) (q : Queue) (workerId : String)
    (clock : RecoveryClock) : Queue :=
  ((q.staleJobs cfg clock.now).map (·.id)).foldl (recover workerId clock.moved) q

def markSucceeded (q : Queue) (id : UUID) (result : Dict) (tokensUsed : ℤ) (now : Time) : Queue :=
  q.updateJob id (.succeeded id) (·.markSucceeded result tokensUsed now) fun _ =>
    InteractionJob.markSucceeded_identity

def defer (q : Queue) (id : UUID) (runAfter : Time) (errorCode errorMessage : String) : Queue :=
  q.updateJob id (.deferred id) (·.defer runAfter errorCode errorMessage) fun _ =>
    InteractionJob.defer_identity

def deadLetter (q : Queue) (job : InteractionJob) (stage errorCode errorMessage : String)
    (now : Time) : Queue :=
  let q := q.updateJob job.id (.deadLettered job.id) (·.deadLetter errorCode errorMessage now)
    fun _ => InteractionJob.deadLetter_identity
  { q with
    deadLetterJobs := q.deadLetterJobs ++ [.ofJob job stage errorCode errorMessage] }

/-- Write down that an execution of a job failed. -/
def recordFailure (q : Queue) (id : UUID) : Queue := { q with history := .failed id :: q.history }

/-- Write down that the rate limiter refused a job it had claimed. -/
def recordRefusal (q : Queue) (id : UUID) (attempts : ℕ) : Queue :=
  { q with history := .refused id attempts :: q.history }

/-! ### What the operations leave -/

section

variable {q q' : Queue} {id : UUID} {event : JobEvent} {f : InteractionJob → InteractionJob}
  {same : ∀ job, (f job).toJobIdentity = job.toJobIdentity} {row job : InteractionJob}

@[simp] lemma updateJob_deadLetterJobs :
    (q.updateJob id event f same).deadLetterJobs = q.deadLetterJobs := rfl

@[simp] lemma updateJob_history : (q.updateJob id event f same).history = event :: q.history := rfl

lemma updateJob_jobs : (q.updateJob id event f same).jobs = q.jobs.modify id f
    (fun job => congrArg JobIdentity.id (same job))
    (fun job => congrArg JobIdentity.idempotencyKey (same job)) := rfl

lemma mem_updateJob_of_ne (h : row ∈ q.jobs.rows) (ne : row.id ≠ id) :
    row ∈ (q.updateJob id event f same).jobs.rows := by
  rw [updateJob_jobs]
  exact Table.mem_modify_of_ne h ne

lemma mem_updateJob_self (h : job ∈ q.jobs.rows) :
    f job ∈ (q.updateJob job.id event f same).jobs.rows := by
  rw [updateJob_jobs]
  exact Table.mem_modify_self h rfl

/-- A row after the update of a job is the new row of the job, or a row of another job. -/
lemma of_mem_updateJob (h : job ∈ q.jobs.rows)
    (h' : row ∈ (q.updateJob job.id event f same).jobs.rows) :
    row = f job ∨ (row ∈ q.jobs.rows ∧ row.id ≠ job.id) := by
  rw [updateJob_jobs] at h'
  exact Table.of_mem_modify h rfl h'

/-- What is found after a change of one row. -/
lemma get?_updateJob {id' : UUID} :
    (q.updateJob id event f same).get? id' =
      if id' = id then (q.get? id').map f else q.get? id' := by
  unfold get?
  rw [updateJob_jobs]
  exact Table.find?_modify

/-- The row that is found is the one with the id. -/
lemma get?_eq_some : q.get? id = some row ↔ row ∈ q.jobs.rows ∧ row.id = id := Table.find?_eq_some

/-- A row is found by its own id. -/
lemma get?_of_mem (h : row ∈ q.jobs.rows) : q.get? row.id = some row := get?_eq_some.2 ⟨h, rfl⟩

/-- What a claim selects is of the types, waits, is due and is not locked. -/
lemma of_mem_readyJobs {jobTypes : List JobType} {limit : ℕ} {query : ClaimQuery}
    (h : job ∈ q.readyJobs jobTypes limit query) :
    job ∈ q.jobs.rows ∧ job.jobType ∈ jobTypes ∧
      (job.status = .pending ∨ job.status = .deferred) ∧ job.runAfter ≤ query.now ∧
      query.locked job.id = false := by
  obtain ⟨mem, ready⟩ := mem_of_mem_select h
  simp only [InteractionJob.ready, Bool.and_eq_true, List.contains_iff_mem, Bool.or_eq_true,
    decide_eq_true_eq, Bool.not_eq_true'] at ready
  obtain ⟨⟨⟨type, status⟩, due⟩, unlocked⟩ := ready
  exact ⟨mem, type, status, due, unlocked⟩

lemma nodup_readyJobs {jobTypes : List JobType} {limit : ℕ} {query : ClaimQuery} :
    ((q.readyJobs jobTypes limit query).map (·.id)).Nodup :=
  nodup_select q.jobs.keyNodup

lemma mem_staleJobs {cfg : Settings} {now : Time} :
    job ∈ q.staleJobs cfg now ↔ job ∈ q.jobs.rows ∧ job.stale (lockCutoff cfg now) :=
  List.mem_filter

lemma nodup_staleJobs {cfg : Settings} {now : Time} : ((q.staleJobs cfg now).map (·.id)).Nodup :=
  q.jobs.keyNodup.sublist (List.filter_sublist.map _)

/-- Updates of different jobs, one after the other, change each of their rows once. -/
lemma rows_foldl_updateJob {events : UUID → JobEvent} {fs : UUID → InteractionJob → InteractionJob}
    {sames : ∀ id job, (fs id job).toJobIdentity = job.toJobIdentity} {ids : List UUID}
    (nodup : ids.Nodup) :
    (ids.foldl (fun q id => q.updateJob id (events id) (fs id) (sames id)) q).jobs.rows =
      q.jobs.rows.map fun row => if row.id ∈ ids then fs row.id row else row := by
  induction ids generalizing q with
  | nil => simp
  | cons id ids ih =>
    obtain ⟨new, nodup⟩ := List.nodup_cons.1 nodup
    rw [List.foldl_cons, ih nodup, updateJob_jobs, Table.modify, List.map_map]
    refine List.map_congr_left fun row _ => ?_
    by_cases e : row.id = id
    · have same : (fs id row).id = row.id := congrArg JobIdentity.id (sames id row)
      simp [Function.comp, e, same, new]
    · simp [Function.comp, e]

/-- A claim changes the rows that it selects. -/
lemma claimReadyJobs_rows {workerId : String} {jobTypes : List JobType} {limit : ℕ}
    {query : ClaimQuery} :
    (q.claimReadyJobs workerId jobTypes limit query).1.jobs.rows = q.jobs.rows.map fun row =>
      if row.id ∈ (q.readyJobs jobTypes limit query).map (·.id) then row.claim workerId query.now
      else row :=
  rows_foldl_updateJob nodup_readyJobs

/-- A recovery changes each stale row once. -/
lemma recoverStaleRunningJobs_rows {cfg : Settings} {workerId : String} {clock : RecoveryClock} :
    (q.recoverStaleRunningJobs cfg workerId clock).jobs.rows = q.jobs.rows.map fun row =>
      if row.stale (lockCutoff cfg clock.now) then row.recover workerId (clock.moved row.id)
      else row := by
  refine (rows_foldl_updateJob nodup_staleJobs).trans (List.map_congr_left fun row mem => ?_)
  have stale : row.id ∈ (q.staleJobs cfg clock.now).map (·.id) ↔
      row.stale (lockCutoff cfg clock.now) := by
    constructor
    · intro h
      obtain ⟨row', h, e⟩ := List.mem_map.1 h
      obtain ⟨mem', stale⟩ := mem_staleJobs.1 h
      exact Table.eq_of_key mem' mem e ▸ stale
    · exact fun stale => List.mem_map_of_mem (mem_staleJobs.2 ⟨mem, stale⟩)
  simp only [stale]

/-- A row is added at the end, if its id is new. -/
lemma add?_eq_some (h : q.add? row = some q') :
    q'.jobs.rows = q.jobs.rows ++ [row] ∧ q'.deadLetterJobs = q.deadLetterJobs ∧
      q'.history = q.history ∧ q.get? row.id = none := by
  obtain ⟨jobs, e, rfl⟩ := Option.map_eq_some_iff.1 h
  obtain ⟨fresh, _, rows⟩ := Table.insert?_eq_some e
  exact ⟨rows, rfl, rfl, Table.find?_eq_none.2 fresh⟩

lemma addAll?_eq_some {rows : List InteractionJob} (h : q.addAll? rows = some q') :
    q'.jobs.rows = q.jobs.rows ++ rows ∧ q'.deadLetterJobs = q.deadLetterJobs ∧
      q'.history = q.history ∧ ∀ row ∈ rows, q.get? row.id = none := by
  induction rows generalizing q with
  | nil =>
    cases h
    simp
  | cons row rows ih =>
    obtain ⟨q₁, h₁, h₂⟩ := Option.bind_eq_some_iff.1 h
    obtain ⟨rows₁, letters₁, history₁, fresh₁⟩ := add?_eq_some h₁
    obtain ⟨rows₂, letters₂, history₂, fresh₂⟩ := ih h₂
    refine ⟨by rw [rows₂, rows₁, List.append_assoc, List.singleton_append],
      letters₂.trans letters₁, history₂.trans history₁, fun row' h' => ?_⟩
    rcases List.mem_cons.1 h' with rfl | h'
    · exact fresh₁
    · have fresh := Table.find?_eq_none.1 (fresh₂ row' h')
      exact Table.find?_eq_none.2 fun a ha => fresh a (by rw [rows₁]; exact List.mem_append_left _ ha)

end

end Queue

end PostCall.Model
