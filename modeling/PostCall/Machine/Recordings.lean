import PostCall.Library.Coupled
import PostCall.Library.Related
import PostCall.Machine.Workers

/-!
# All but the recordings

Two databases that agree on all but what the recording path writes: the rows of the RECORDING_FETCH
jobs, which agree on the identities, and three columns of an interaction, its recording key, its
error log and its retry count. `Agree` is a congruence for the transactions of everyone else: from
two such databases a transaction returns the same or raises the same, and what it leaves agrees
again. Each look-up, filter and insertion is shown to ignore what differs.
-/

namespace PostCall.Machine
open PostCall.Library PostCall.Python PostCall.Model

/-- Rows of one job, and the same row unless the job fetches a recording. -/
structure SameJob (job job' : InteractionJob) : Prop where
  identity : job.toJobIdentity = job'.toJobIdentity
  row : job.jobType ≠ .recordingFetch → job = job'

/-- An interaction without the columns that the recording path writes. -/
def unrecorded (interaction : Interaction) : Interaction :=
  { interaction with recordingS3Key := none, retryCount := 0, errorLog := [] }

/-- Rows of one interaction, up to the columns that the recording path writes. -/
def SameInteraction (interaction interaction' : Interaction) : Prop :=
  unrecorded interaction = unrecorded interaction'

/-- The databases agree on all but the recordings. -/
structure Agree (db db' : Db) : Prop where
  jobs : Table.Related SameJob db.queue.jobs db'.queue.jobs
  interactions : Table.Related SameInteraction db.interactions db'.interactions
  usage : db.usage = db'.usage
  leads : db.leads = db'.leads

namespace SameJob

variable {job job' : InteractionJob}

/-- A row is the same job as itself. -/
lemma refl (job : InteractionJob) : SameJob job job := ⟨rfl, fun _ => rfl⟩

/-- They have the same id. -/
lemma id (h : SameJob job job') : job.id = job'.id := congrArg JobIdentity.id h.identity

/-- They have the same idempotency key. -/
lemma key (h : SameJob job job') : job.idempotencyKey = job'.idempotencyKey :=
  congrArg JobIdentity.idempotencyKey h.identity

/-- They are of the same type. -/
lemma jobType (h : SameJob job job') : job.jobType = job'.jobType :=
  congrArg JobIdentity.jobType h.identity

/-- A function of the row that leaves the identity alone. -/
lemma update {f : InteractionJob → InteractionJob}
    (same : ∀ job, (f job).toJobIdentity = job.toJobIdentity) (h : SameJob job job') :
    SameJob (f job) (f job') where
  identity := (same job).trans (h.identity.trans (same job').symm)
  row other := by
    have type : (f job).jobType = job.jobType := congrArg JobIdentity.jobType (same job)
    rw [h.row fun recording => other (type.trans recording)]

/-- Of a job that fetches a recording, either row may change. -/
lemma update_left {f : InteractionJob → InteractionJob}
    (same : ∀ job, (f job).toJobIdentity = job.toJobIdentity)
    (recording : job.jobType = .recordingFetch) (h : SameJob job job') : SameJob (f job) job' where
  identity := (same job).trans h.identity
  row other := absurd ((congrArg JobIdentity.jobType (same job)).trans recording) other

end SameJob

namespace SameInteraction

variable {interaction interaction' : Interaction}

/-- A column that the recording path does not write. -/
lemma column {α : Type} {f : Interaction → α} (shown : ∀ i, f (unrecorded i) = f i)
    (h : SameInteraction interaction interaction') : f interaction = f interaction' := by
  rw [← shown interaction, h, shown interaction']

/-- They have the same id. -/
lemma id (h : SameInteraction interaction interaction') : interaction.id = interaction'.id :=
  h.column fun _ => rfl

/-- A function of the row that computes with such columns. -/
lemma update {f : Interaction → Interaction}
    (hides : ∀ i, unrecorded (f i) = unrecorded (f (unrecorded i)))
    (h : SameInteraction interaction interaction') :
    SameInteraction (f interaction) (f interaction') := by
  unfold SameInteraction
  rw [hides interaction, h, ← hides interaction']

/-- The end of a call is written to both. -/
lemma markEnded (h : SameInteraction interaction interaction') (endedAt : Time)
    (durationSeconds : Option ℤ) (callSid : Option String) :
    SameInteraction (interaction.markEnded endedAt durationSeconds callSid)
      (interaction'.markEnded endedAt durationSeconds callSid) :=
  h.update (f := Interaction.markEnded endedAt durationSeconds callSid) fun _ => rfl

/-- Entries of the metadata are written to both. -/
lemma updateMetadata {entries : Dict} (h : SameInteraction interaction interaction') :
    SameInteraction (interaction.updateMetadata entries) (interaction'.updateMetadata entries) :=
  h.update (f := Interaction.updateMetadata entries) fun _ => rfl

/-- The error log is not compared. -/
lemma appendError {entry : ErrorEntry} (h : SameInteraction interaction interaction') :
    SameInteraction (interaction.appendError entry) (interaction'.appendError entry) := h

/-- What the webhook writes into the payload of a job. -/
lemma endedPayload {text : Text} {request : EndRequest}
    (h : SameInteraction interaction interaction') :
    endedPayload text interaction request = Model.endedPayload text interaction' request :=
  h.column (f := fun i => Model.endedPayload text i request) fun _ => rfl

end SameInteraction

namespace Agree

variable {cfg : Settings} {db db' : Db}

/-- A database agrees with itself. -/
lemma refl (db : Db) : Agree db db where
  jobs := .refl .refl
  interactions := .refl fun _ => rfl
  usage := rfl
  leads := rfl

/-! ### What the look-ups see -/

/-- Jobs are found by their id alike. -/
lemma get? (agree : Agree db db') {i : UUID} :
    Option.Rel SameJob (db.queue.get? i) (db'.queue.get? i) := agree.jobs.find? fun _ _ r => r.id

/-- The row of a job that fetches no recording. -/
lemma get?_eq (agree : Agree db db') {job : InteractionJob} (mem : job ∈ db.queue.jobs.rows)
    (other : job.jobType ≠ .recordingFetch) : db.queue.get? job.id = db'.queue.get? job.id := by
  have found := agree.get? (i := job.id)
  rw [Queue.get?_of_mem mem] at found ⊢
  generalize db'.queue.get? job.id = found' at found ⊢
  cases found with
  | some same => rw [same.row other]

/-- Jobs are found by their key alike. -/
lemma getByIdempotencyKey? (agree : Agree db db') {k : String} :
    Option.Rel SameJob (db.queue.getByIdempotencyKey? k) (db'.queue.getByIdempotencyKey? k) :=
  agree.jobs.findIndex? fun _ _ r => r.key

/-- Interactions are found alike. -/
lemma find? (agree : Agree db db') {i : UUID} :
    Option.Rel SameInteraction (db.interactions.find? i) (db'.interactions.find? i) :=
  agree.interactions.find? fun _ _ r => r.id

/-- The same rows are ready, of jobs that fetch no recording. -/
lemma readyJobs (agree : Agree db db') {jobTypes : List JobType} {limit : ℕ} {query : ClaimQuery}
    (others : JobType.recordingFetch ∉ jobTypes) :
    db.queue.readyJobs jobTypes limit query = db'.queue.readyJobs jobTypes limit query := by
  have same : ∀ job job', SameJob job job' →
      job.ready jobTypes query.now query.locked = job'.ready jobTypes query.now query.locked := by
    intro job job' r
    by_cases recording : job.jobType = .recordingFetch
    · simp [InteractionJob.ready, recording, r.jobType ▸ recording, others]
    · rw [r.row recording]
  unfold Queue.readyJobs select
  rw [related_filter agree.jobs same fun job job' r ready => r.row fun recording => ?_]
  rw [InteractionJob.ready, recording] at ready
  simp [others] at ready

/-! ### What the operations leave -/

/-- A row of the queue is changed on both sides. -/
lemma updateJob (agree : Agree db db') {id : UUID} {event : JobEvent}
    {f : InteractionJob → InteractionJob}
    {same : ∀ job, (f job).toJobIdentity = job.toJobIdentity} :
    Agree (db.mapQueue (·.updateJob id event f same))
      (db'.mapQueue (·.updateJob id event f same)) := by
  refine { agree with jobs := ?_ }
  rw [Db.mapQueue_queue, Db.mapQueue_queue, Queue.updateJob_jobs, Queue.updateJob_jobs]
  exact agree.jobs.modify (fun _ _ r => r.id) fun _ _ r => r.update same

/-- So is an interaction. -/
lemma updateInteraction (agree : Agree db db') {id : UUID} {f : Interaction → Interaction}
    {same : ∀ i, (f i).id = i.id}
    (keep : ∀ i i', SameInteraction i i' → SameInteraction (f i) (f i')) :
    Agree (db.updateInteraction id f same) (db'.updateInteraction id f same) := by
  refine { agree with interactions := ?_ }
  simp only [Db.updateInteraction]
  exact agree.interactions.modify (fun _ _ r => r.id) keep

/-- So is its metadata. -/
lemma updateMetadata (agree : Agree db db') {id : UUID} {entries : Dict} {same} :
    Agree (db.updateInteraction id (·.updateMetadata entries) same)
      (db'.updateInteraction id (·.updateMetadata entries) same) :=
  agree.updateInteraction fun _ _ r => r.updateMetadata

/-- So is its error log, which is not compared. -/
lemma appendError (agree : Agree db db') (id : UUID) (entry : ErrorEntry) :
    Agree (db.appendError id entry) (db'.appendError id entry) :=
  agree.updateInteraction fun _ _ r => r.appendError

/-- Events are not compared. -/
lemma emit (agree : Agree db db') {job job' : InteractionJob} {stage status message : String}
    {code : Option String} :
    Agree (db.emit job stage status message code) (db'.emit job' stage status message code) :=
  { agree with }

/-- The ledger is replaced on both sides. -/
lemma setUsage (agree : Agree db db') {usage : UsageTable} :
    Agree { db with usage := usage } { db' with usage := usage } := { agree with usage := rfl }

/-- Of the queue, only the rows are compared. -/
lemma mapQueue (agree : Agree db db') {f : Queue → Queue} (same : ∀ q, (f q).jobs = q.jobs) :
    Agree (db.mapQueue f) (db'.mapQueue f) := by
  refine { agree with jobs := ?_ }
  rw [Db.mapQueue_queue, Db.mapQueue_queue, same, same]
  exact agree.jobs

/-- A job is buried on both sides. -/
lemma deadLetter (agree : Agree db db') {job : InteractionJob}
    {stage errorCode errorMessage : String} {now : Time} :
    Agree (db.mapQueue (·.deadLetter job stage errorCode errorMessage now))
      (db'.mapQueue (·.deadLetter job stage errorCode errorMessage now)) := by
  refine { agree with jobs := ?_ }
  simp only [Db.mapQueue_queue, Queue.deadLetter, Queue.updateJob_jobs]
  exact agree.jobs.modify (fun _ _ r => r.id) fun _ _ r =>
    r.update fun _ => InteractionJob.deadLetter_identity

/-- A failure is recorded on both sides. -/
lemma handle (agree : Agree db db') {clock : Clock} {job : InteractionJob} {failure : Failure} :
    Agree (db.handle cfg clock job failure) (db'.handle cfg clock job failure) := by
  unfold Db.handle
  have failed : Agree (db.mapQueue (·.recordFailure job.id))
      (db'.mapQueue (·.recordFailure job.id)) := agree.mapQueue fun _ => rfl
  have logged := failed.appendError job.interactionId
    ⟨failure.stage, failure.errorCode, failure.errorMessage, clock 1⟩
  cases failure.nextRunAt cfg (clock 0) job with
  | some runAfter => exact logged.updateJob.emit
  | none => exact logged.deadLetter.emit

/-- A recovery moves the same rows of the other jobs in both. -/
lemma recover (agree : Agree db db') {workerId : String} {recovery : RecoveryClock} :
    Agree (recovered cfg workerId recovery db) (recovered cfg workerId recovery db') := by
  refine { agree with jobs := ?_ }
  unfold Table.Related recovered
  rw [Db.mapQueue_queue, Db.mapQueue_queue, Queue.recoverStaleRunningJobs_rows,
    Queue.recoverStaleRunningJobs_rows]
  refine related_map agree.jobs fun row _ row' r => ?_
  by_cases recording : row.jobType = .recordingFetch
  · have moves : ∀ (P : Prop) [Decidable P] (row : InteractionJob),
        (if P then row.recover workerId (recovery.moved row.id) else row).toJobIdentity =
          row.toJobIdentity := fun P _ row => by split <;> rfl
    refine ⟨(moves _ row).trans (r.identity.trans (moves _ row').symm), fun other => ?_⟩
    exact absurd ((congrArg JobIdentity.jobType (moves _ row)).trans recording) other
  · rw [← r.row recording]
    exact .refl _

/-- A claim on both sides. -/
lemma claim (agree : Agree db db') {workerId : String} {jobTypes : List JobType} {limit : ℕ}
    {query : ClaimQuery} (others : JobType.recordingFetch ∉ jobTypes) :
    Agree (claimed workerId jobTypes limit query db)
      (claimed workerId jobTypes limit query db') := by
  refine { agree with jobs := ?_ }
  unfold Table.Related claimed
  rw [Db.mapQueue_queue, Db.mapQueue_queue, Queue.claimReadyJobs_rows, Queue.claimReadyJobs_rows,
    agree.readyJobs others]
  refine related_map agree.jobs fun row _ row' r => ?_
  rw [← r.id]
  split
  · exact r.update (f := (·.claim workerId query.now)) fun _ => InteractionJob.claim_identity
  · exact r

/-- A row is added on both sides, or on neither. -/
lemma add? (agree : Agree db db') {r : InteractionJob} :
    Option.Rel (fun queue queue' => Agree { db with queue := queue } { db' with queue := queue' })
      (db.queue.add? r) (db'.queue.add? r) := by
  have inserted := agree.jobs.insert? (a := r) (fun _ _ r => r.id) (fun _ _ r => r.key) (.refl r)
  unfold Queue.add?
  generalize db.queue.jobs.insert? r = x at inserted ⊢
  generalize db'.queue.jobs.insert? r = y at inserted ⊢
  cases inserted with
  | none => exact .none
  | some jobs => exact .some { agree with jobs := jobs }

end Agree

/-! ### The operations of all workers -/

section Operations

variable {cfg : Settings} {job job' : InteractionJob}

/-- An event says no more than what is compared. -/
lemma coupled_emit {stage status message : String} {code : Option String} :
    Coupled Agree Eq (Tx.emit job stage status message code)
      (Tx.emit job' stage status message code) := .modify fun _ _ agree => agree.emit

/-- The environment raises on both sides, or on neither. -/
lemma coupled_interrupt {fault : Option PyError} :
    Coupled Agree Eq (Tx.interrupt fault) (Tx.interrupt fault) := by
  cases fault with
  | none => exact .pure rfl
  | some e => exact .throw

/-- A recovery. -/
lemma coupled_recover {workerId : String} {recovery : RecoveryClock} :
    Coupled Agree Eq (Tx.recoverStaleRunningJobs cfg workerId recovery)
      (Tx.recoverStaleRunningJobs cfg workerId recovery) := .modify fun _ _ agree => agree.recover

/-- A claim of jobs that fetch no recording. -/
lemma coupled_claimReadyJobs {workerId : String} {jobTypes : List JobType} {limit : ℕ}
    {query : ClaimQuery} (others : JobType.recordingFetch ∉ jobTypes) :
    Coupled Agree Eq (Tx.claimReadyJobs workerId jobTypes limit query)
      (Tx.claimReadyJobs workerId jobTypes limit query) := by
  intro db db' agree
  rw [claimReadyJobs_run, claimReadyJobs_run]
  have same : claimedJobs workerId jobTypes limit query db =
      claimedJobs workerId jobTypes limit query db' := by
    unfold claimedJobs
    rw [agree.readyJobs others]
  exact .ok same (agree.claim others)

/-- A job is completed. -/
lemma coupled_markSucceeded {result : Dict} {tokensUsed : ℤ} {now : Time} :
    Coupled Agree Eq (Tx.markSucceeded job result tokensUsed now)
      (Tx.markSucceeded job result tokensUsed now) :=
  .bind_eq (.modify fun _ _ agree => agree.updateJob) fun _ => .pure rfl

/-- The row under the key may be one that fetches a recording. -/
lemma coupled_createIfAbsent {new : NewJob} :
    Coupled Agree SameJob (Tx.createIfAbsent cfg new) (Tx.createIfAbsent cfg new) := by
  intro db db' agree
  rw [createIfAbsent_run, createIfAbsent_run]
  have found := agree.getByIdempotencyKey? (k := new.idempotencyKey)
  generalize db.queue.getByIdempotencyKey? new.idempotencyKey = x at found ⊢
  generalize db'.queue.getByIdempotencyKey? new.idempotencyKey = y at found ⊢
  cases found with
  | some same => exact .ok same agree
  | none =>
    have known : (db.interactions.find? new.interactionId).isNone =
        (db'.interactions.find? new.interactionId).isNone := by
      have found := agree.find? (i := new.interactionId)
      generalize db.interactions.find? new.interactionId = x at found ⊢
      generalize db'.interactions.find? new.interactionId = y at found ⊢
      cases found <;> rfl
    simp only [known]
    split
    · exact .error agree
    split
    · exact .error agree
    have added := agree.add? (r := new.row cfg)
    generalize db.queue.add? (new.row cfg) = x at added ⊢
    generalize db'.queue.add? (new.row cfg) = y at added ⊢
    cases added with
    | none => exact .error agree
    | some agree => exact .ok (.refl _) agree

/-- An insertion of which only the effect matters. -/
lemma coupled_create {new : NewJob} {α : Type} {V : α → α → Prop} {x y : Tx α}
    (later : Coupled Agree V x y) :
    Coupled Agree V (Tx.createIfAbsent cfg new >>= fun _ => x)
      (Tx.createIfAbsent cfg new >>= fun _ => y) :=
  .bind coupled_createIfAbsent fun _ _ _ => later

/-- The two jobs that follow a result. -/
lemma coupled_queueResultJobs {text : Text} {births : ChildSlot → Birth} {job : JobIdentity}
    {payload analysisResult : Dict} {priority : JobPriority} {suffix : String}
    {fault : Option PyError} :
    Coupled Agree Eq
      (Tx.queueResultJobs cfg text births job payload analysisResult priority suffix fault)
      (Tx.queueResultJobs cfg text births job payload analysisResult priority suffix fault) :=
  coupled_create <| .bind_eq coupled_interrupt fun _ => coupled_create <| .pure rfl

end Operations

/-! ### The entry points -/

section Entries

variable {cfg : Settings} {text : Text}

/-- The transaction of the webhook. -/
lemma coupled_endInteraction {request : EndRequest} :
    Coupled Agree SameJob (endInteraction cfg text request) (endInteraction cfg text request) := by
  refine .bind .get fun db db' agree => ?_
  have found := agree.find? (i := request.interactionId)
  generalize db.interactions.find? request.interactionId = x at found ⊢
  generalize db'.interactions.find? request.interactionId = y at found ⊢
  cases found with
  | none => exact .throw
  | @some interaction interaction' same =>
    simp only [same.column (f := Interaction.sessionId) fun _ => rfl]
    split
    · exact .throw
    split
    · exact .throw
    have ended := same.markEnded request.endedAt request.durationSeconds request.callSid
    refine .bind_eq (.modify fun _ _ agree => ?_) fun _ => ?_
    · exact agree.updateInteraction fun _ _ r => r.markEnded _ _ _
    unfold Tx.enqueueInteractionEnded
    rw [ended.endedPayload]
    refine .bind_eq .ofExcept fun payload => ?_
    have asked : NewJob.root request.birth interaction.id interaction.sessionId interaction.leadId
        interaction.campaignId interaction.customerId interaction.id.str payload =
        NewJob.root request.birth interaction'.id interaction'.sessionId interaction'.leadId
        interaction'.campaignId interaction'.customerId interaction'.id.str payload :=
      same.column (f := fun i => NewJob.root request.birth i.id i.sessionId i.leadId i.campaignId
        i.customerId i.id.str payload) fun _ => rfl
    simp only [Interaction.markEnded] at asked ⊢
    rw [asked]
    exact .bind coupled_createIfAbsent fun job job' same =>
      .bind_eq coupled_emit fun _ => .pure same

/-- The event of a failed wakeup has nothing that tells the two jobs apart. -/
lemma coupled_wakeupFailed {job job' : InteractionJob} {failed : FailedWakeup} :
    Coupled Agree Eq (wakeupFailed job failed) (wakeupFailed job' failed) :=
  .bind_eq coupled_interrupt fun _ => coupled_emit

/-- The transaction of the legacy task. -/
lemma coupled_persistLegacyPayload {payload : Dict} {birth : Birth} :
    Coupled Agree SameJob (persistLegacyPayload cfg text payload birth)
      (persistLegacyPayload cfg text payload birth) :=
  .bind_eq .ofExcept fun _ => .bind_eq .ofExcept fun _ => .bind_eq .ofExcept fun _ =>
    .bind_eq .ofExcept fun _ => .bind_eq .ofExcept fun _ => coupled_createIfAbsent

end Entries

/-! ### The orchestrator -/

section Orchestrator
open WorkflowOrchestrator

variable {cfg : Settings} {text : Text} {run : JobRun} {job : InteractionJob}
  {classification : Classification}

/-- The recording job of a call is queued. -/
lemma coupled_queueRecording {job : JobIdentity} :
    Coupled Agree Eq (queueRecording cfg run job classification)
      (queueRecording cfg run job classification) := by
  unfold queueRecording
  split
  · exact .bind_eq coupled_interrupt fun _ => coupled_create <| .pure rfl
  · exact .pure rfl

/-- A short call is marked, and its two result jobs are queued. -/
lemma coupled_queueShortCall {job : JobIdentity} :
    Coupled Agree Eq (queueShortCall cfg text run job classification)
      (queueShortCall cfg text run job classification) :=
  .bind_eq (.modify fun _ _ agree => agree.updateMetadata) fun _ =>
    .bind_eq coupled_interrupt fun _ => coupled_queueResultJobs

/-- The analysis of a call is queued. -/
lemma coupled_queueAnalysis {transcriptText : Json} :
    Coupled Agree Eq (queueAnalysis cfg run job transcriptText classification)
      (queueAnalysis cfg run job transcriptText classification) :=
  .bind_eq (.modify fun _ _ agree => agree.updateMetadata) fun _ =>
    .bind_eq coupled_interrupt fun _ => .bind_eq .ofExcept fun _ => coupled_create coupled_emit

/-- The jobs that follow an orchestration. -/
lemma coupled_createChildJobs :
    Coupled Agree Eq (createChildJobs cfg text run job) (createChildJobs cfg text run job) := by
  refine .bind_eq .ofExcept fun found => .bind_eq coupled_queueRecording fun _ =>
    .bind_eq coupled_interrupt fun _ => ?_
  split
  · exact .bind_eq coupled_queueShortCall fun _ => coupled_interrupt
  · exact .bind_eq coupled_queueAnalysis fun _ => coupled_interrupt

/-- An orchestration without its handler. -/
lemma coupled_orchestrate :
    Coupled Agree Eq (orchestrate cfg text run job) (orchestrate cfg text run job) :=
  .bind_eq coupled_emit fun _ => .bind_eq coupled_createChildJobs fun _ =>
    .bind_eq coupled_markSucceeded fun _ => coupled_emit

/-- What is raised is the same in both, and so is what is reported of it. -/
lemma coupled_processJob :
    Coupled Agree Eq (processJob cfg text run job) (processJob cfg text run job) := by
  refine .tryCatch coupled_orchestrate fun e => ?_
  split
  · exact .throw
  · exact .modify fun _ _ agree => agree.handle

/-- The loop of the orchestrator. -/
lemma coupled_processJobs {run : UUID → JobRun} {jobs : List InteractionJob} :
    Coupled Agree Eq (processJobs cfg text run jobs) (processJobs cfg text run jobs) := by
  induction jobs with
  | nil => exact .pure rfl
  | cons job jobs ih => exact .bind_eq coupled_processJob fun _ => ih

/-- The transaction of the orchestrator. -/
lemma coupled_runOnce {workerId : String} {limit : ℕ} {recovery : RecoveryClock}
    {query : ClaimQuery} {run : UUID → JobRun} :
    Coupled Agree Eq (runOnce cfg text workerId limit recovery query run)
      (runOnce cfg text workerId limit recovery query run) :=
  .bind_eq coupled_recover fun _ => .bind_eq (coupled_claimReadyJobs (by decide)) fun _ =>
    coupled_processJobs

end Orchestrator

/-! ### The LLM worker -/

section Analysis
open LLMWorkerService

variable {cfg : Settings} {text : Text}

/-- The admission of one job. -/
lemma coupled_admitJob {clock : Clock} {job : InteractionJob} :
    Coupled Agree Eq (admitJob cfg clock job) (admitJob cfg clock job) := by
  refine .bind_eq .ofExcept fun budget => .bind .get fun db db' agree => ?_
  rw [agree.usage]
  refine .bind_eq .ofExcept fun (usage, admission) => ?_
  refine .bind_eq (.modify fun _ _ agree => agree.setUsage) fun _ => ?_
  split
  · exact .bind_eq coupled_emit fun _ => .pure rfl
  · refine .bind_eq (.modify fun _ _ agree => ?_) fun _ => .pure rfl
    have refused := agree.mapQueue (f := (·.recordRefusal job.id job.attempts)) fun _ => rfl
    exact refused.updateJob.emit

/-- The admission of a batch. -/
lemma coupled_admitJobs {clock : UUID → Clock} {jobs : List InteractionJob} :
    Coupled Agree Eq (admitJobs cfg clock jobs) (admitJobs cfg clock jobs) := by
  induction jobs with
  | nil => exact .pure rfl
  | cons job jobs ih => exact .bind_eq coupled_admitJob fun _ => .bind_eq ih fun _ => .pure rfl

/-- The claim with the admission. -/
lemma coupled_claimAdmittedJobs {workerId : String} {limit : ℕ} {recovery : RecoveryClock}
    {query : ClaimQuery} {clock : UUID → Clock} :
    Coupled Agree Eq (claimAdmittedJobs cfg workerId limit recovery query clock)
      (claimAdmittedJobs cfg workerId limit recovery query clock) :=
  .bind_eq coupled_recover fun _ => .bind_eq (coupled_claimReadyJobs (by decide)) fun _ =>
    coupled_admitJobs

/-- An analysis is written to its interaction and to the ledger. -/
lemma coupled_recordAnalysis {clock : Clock} {snapshot : ClaimedLLMJob} {result : AnalysisResult} :
    Coupled Agree Eq (recordAnalysis cfg text clock snapshot result)
      (recordAnalysis cfg text clock snapshot result) := by
  refine .bind_eq (.modify fun _ _ agree => agree.updateMetadata) fun _ =>
    .bind_eq .ofExcept fun _ => .bind_eq .ofExcept fun _ => .bind .get fun db db' agree => ?_
  rw [agree.usage]
  refine .bind_eq .ofExcept fun _ => .bind_eq (.modify fun _ _ agree => agree.setUsage) fun _ => ?_
  split
  · exact .pure rfl
  · exact .throw

/-- The success of an analysis. -/
lemma coupled_succeed {births : ChildSlot → Birth} {clock : Clock} {snapshot : ClaimedLLMJob}
    {result : AnalysisResult} {job : InteractionJob} :
    Coupled Agree Eq (succeed cfg text births clock snapshot result job)
      (succeed cfg text births clock snapshot result job) := by
  refine .bind_eq coupled_recordAnalysis fun _ => .bind_eq coupled_markSucceeded fun _ =>
    .bind_eq coupled_queueResultJobs fun _ => ?_
  split
  · exact .throw
  · exact coupled_emit

end Analysis

/-! ### The result worker -/

section Results
open ResultWorkerService

/-- The claim of the result worker. -/
lemma coupled_claimResults {workerId : String} {limit : ℕ} {query : ClaimQuery} :
    Coupled Agree Eq (ResultWorkerService.claimJobs workerId limit query)
      (ResultWorkerService.claimJobs workerId limit query) :=
  .bind_eq (coupled_claimReadyJobs (by decide)) fun _ => .pure rfl

/-- The stage of a lead is written. -/
lemma coupled_updateLeadStage {leadId : UUID} {callStage : Json} :
    Coupled Agree Eq (Tx.updateLeadStage leadId callStage)
      (Tx.updateLeadStage leadId callStage) := by
  refine .bind .get fun db db' agree => ?_
  rw [agree.leads]
  split
  · exact .pure rfl
  refine .bind_eq .ofExcept fun stage => ?_
  split
  · split
    · exact .throw
    · exact .modify fun _ _ agree => { agree with leads := by rw [agree.leads] }
  · exact .throw

/-- The `try` block of a result job. -/
lemma coupled_processResult {snapshot : ClaimedResultJob} {fault : Option PyError} :
    Coupled Agree Eq (process snapshot fault) (process snapshot fault) := by
  refine .bind_eq coupled_interrupt fun _ => ?_
  split
  · exact .bind_eq .ofExcept fun _ => coupled_updateLeadStage
  · exact .pure rfl

end Results

/-! ### The last transaction of an execution -/

/-- Whether a worker fetches a recording. -/
def isRecording : Work → Bool
  | .recording _ => true
  | .analysis _ | .result _ | .processed _ _ => false

section Conclusion

variable {cfg : Settings} {text : Text} {clock : Clock} {db db' : Db}

/-- A transaction that begins with a look at one row, which is the same in both. -/
lemma alike_of_get? (agree : Agree db db') {jobId : UUID}
    (same : db.queue.get? jobId = db'.queue.get? jobId) {x : Tx Unit} {f : InteractionJob → Tx Unit}
    (look : ∀ db, x db = match db.queue.get? jobId with
      | none => .ok () db
      | some job => f job db)
    (coupled : ∀ job, Coupled Agree Eq (f job) (f job)) : Alike Agree Eq (x db) (x db') := by
  rw [look, look, same]
  cases db'.queue.get? jobId with
  | none => exact .ok rfl agree
  | some job => exact coupled job db db' agree

/-- A failure is reported of a job with the same row on both sides. -/
lemma alike_handleFailure (agree : Agree db db') {jobId : UUID}
    (same : db.queue.get? jobId = db'.queue.get? jobId) {failure : Failure} :
    Alike Agree Eq (Tx.handleFailure cfg clock jobId failure db)
      (Tx.handleFailure cfg clock jobId failure db') := by
  refine alike_of_get? agree same (f := fun job => modify (·.handle cfg clock job failure))
    (fun db => ?_) fun job => .modify fun _ _ agree => agree.handle
  unfold Tx.handleFailure
  rw [Program.bind_of_ok Program.get_run]
  cases db.queue.get? jobId <;> rfl

/-- An analysis is completed. -/
lemma alike_completeAnalysis (agree : Agree db db') {births : ChildSlot → Birth}
    {snapshot : ClaimedLLMJob} (same : db.queue.get? snapshot.id = db'.queue.get? snapshot.id)
    {result : AnalysisResult} :
    Alike Agree Eq (LLMWorkerService.complete cfg text births clock snapshot result db)
      (LLMWorkerService.complete cfg text births clock snapshot result db') := by
  refine alike_of_get? agree same (f := fun job => if job.status = .running then
    LLMWorkerService.succeed cfg text births clock snapshot result job else pure ())
    (fun db => ?_) fun job => ?_
  · unfold LLMWorkerService.complete
    rw [Program.bind_of_ok Program.get_run]
    cases db.queue.get? snapshot.id <;> rfl
  · split
    · exact coupled_succeed
    · exact .pure rfl

/-- A result job is completed. -/
lemma alike_completeResult (agree : Agree db db') {snapshot : ClaimedResultJob}
    (same : db.queue.get? snapshot.id = db'.queue.get? snapshot.id) :
    Alike Agree Eq (ResultWorkerService.complete clock snapshot db)
      (ResultWorkerService.complete clock snapshot db') := by
  refine alike_of_get? agree same (f := fun job => if job.status = .running then do
    let job ← Tx.markSucceeded job [] 0 (clock 0)
    Tx.emit job "result_worker" "succeeded" "result_job_completed" else pure ())
    (fun db => ?_) fun job => ?_
  · unfold ResultWorkerService.complete
    rw [Program.bind_of_ok Program.get_run]
    cases db.queue.get? snapshot.id <;> rfl
  · split
    · exact .bind_eq coupled_markSucceeded fun _ => coupled_emit
    · exact .pure rfl

/-- The success transaction and the failure handler of the workers that fetch no recording. -/
theorem alike_conclude (agree : Agree db db') {work : Work} (other : ¬ isRecording work)
    (same : db.queue.get? work.jobId = db'.queue.get? work.jobId) {outcome : Outcome}
    {conclusion : Except Failure (Tx Unit)}
    (concludes : work.conclusion cfg text clock outcome = some conclusion) :
    Alike Agree Eq (Tx.conclude cfg clock work.jobId conclusion db)
      (Tx.conclude cfg clock work.jobId conclusion db') := by
  cases conclusion with
  | error failure => exact alike_handleFailure agree same
  | ok complete =>
    cases concludes_of_conclusion concludes with
    | analysed => exact alike_completeAnalysis agree same
    | fetched => exact absurd rfl other
    | processed => exact alike_completeResult agree same

end Conclusion

end PostCall.Machine
