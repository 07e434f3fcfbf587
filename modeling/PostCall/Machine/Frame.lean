import PostCall.Machine.Transactions

/-!
# What the programs leave alone

Most programs of the model change the job table, the interactions and the audit events only: the
ledger of tokens and the leads are as before, whether they return or raise. The others are the
admission, the recording of an analysis, and the side effect of a result job.
-/

namespace PostCall.Machine
open PostCall.Library PostCall.Python PostCall.Model

/-- The ledger and the leads are as before. -/
structure SameBooks (db db' : Db) : Prop where
  usage : db'.usage = db.usage
  leads : db'.leads = db.leads

instance : IsPreorder Db SameBooks where
  refl _ := ⟨rfl, rfl⟩
  trans _ _ _ h h' := ⟨h'.usage.trans h.usage, h'.leads.trans h.leads⟩

section Programs

variable {cfg : Settings} {text : Text} {db : Db}

/-- A change of the queue. -/
lemma books_mapQueue {f : Queue → Queue} :
    Within SameBooks (modify (·.mapQueue f) : Tx PUnit) := .modify fun _ => ⟨rfl, rfl⟩

/-- An event is written. -/
lemma books_emit {job : InteractionJob} {stage status message : String} {code : Option String} :
    Within SameBooks (Tx.emit job stage status message code) := .modify fun _ => ⟨rfl, rfl⟩

/-- A job is created, or was there already. -/
lemma books_createIfAbsent {new : NewJob} : Within SameBooks (Tx.createIfAbsent cfg new) := by
  intro db
  rcases createIfAbsent_cases cfg db new with ⟨_, e, _, _⟩ | ⟨_, e, _, _⟩ | ⟨_, e⟩ <;>
    rw [e] <;> exact ⟨rfl, rfl⟩

/-- The environment raises, or does not. -/
lemma books_interrupt {fault : Option PyError} : Within SameBooks (Tx.interrupt fault) := by
  cases fault with
  | none => exact .pure
  | some e => exact .throw

/-- The two jobs that follow a result. -/
lemma books_queueResultJobs {births : ChildSlot → Birth} {job : JobIdentity}
    {payload result : Dict} {priority : JobPriority} {suffix : String} {fault : Option PyError} :
    Within SameBooks
      (Tx.queueResultJobs cfg text births job payload result priority suffix fault) :=
  .bind books_createIfAbsent fun _ => .bind books_interrupt fun _ =>
    .bind books_createIfAbsent fun _ => .pure

/-- The transaction of the webhook. -/
lemma books_endInteraction {request : EndRequest} :
    Within SameBooks (endInteraction cfg text request) := by
  refine .bind .get fun db => ?_
  split
  · exact .throw
  split
  · exact .throw
  split
  · exact .throw
  refine .bind (.modify fun _ => ⟨rfl, rfl⟩) fun _ => ?_
  exact .bind .ofExcept fun _ => .bind books_createIfAbsent fun _ => .bind books_emit fun _ => .pure

/-- The transaction of the legacy task. -/
lemma books_persistLegacyPayload {payload : Dict} {birth : Birth} :
    Within SameBooks (persistLegacyPayload cfg text payload birth) := by
  refine .bind .ofExcept fun _ => .bind .ofExcept fun _ => .bind .ofExcept fun _ => ?_
  exact .bind .ofExcept fun _ => .bind .ofExcept fun _ => books_createIfAbsent

/-- The jobs that follow an orchestration. -/
lemma books_createChildJobs {run : JobRun} {job : InteractionJob} :
    Within SameBooks (WorkflowOrchestrator.createChildJobs cfg text run job) := by
  refine .bind .ofExcept fun c => .bind ?_ fun _ => .bind books_interrupt fun _ => ?_
  · unfold WorkflowOrchestrator.queueRecording
    split
    · exact .bind books_interrupt fun _ => .bind books_createIfAbsent fun _ => .pure
    · exact .pure
  simp only
  split
  · refine .bind ?_ fun _ => books_interrupt
    refine .bind (.modify fun _ => ⟨rfl, rfl⟩) fun _ => .bind books_interrupt fun _ => ?_
    exact books_queueResultJobs
  · refine .bind ?_ fun _ => books_interrupt
    refine .bind (.modify fun _ => ⟨rfl, rfl⟩) fun _ => .bind books_interrupt fun _ => ?_
    exact .bind .ofExcept fun _ => .bind books_createIfAbsent fun _ => books_emit

/-- A failure is recorded, and the job deferred or buried. -/
lemma books_handle {clock : Clock} {job : InteractionJob} {failure : Failure} :
    SameBooks db (db.handle cfg clock job failure) := by
  unfold Db.handle
  cases failure.nextRunAt cfg (clock 0) job <;> exact ⟨rfl, rfl⟩

/-- So it is by the transaction that reports it. -/
lemma books_handleFailure {clock : Clock} {jobId : UUID} {failure : Failure} :
    Within SameBooks (Tx.handleFailure cfg clock jobId failure) := by
  refine .bind .get fun _ => ?_
  split
  · exact .pure
  · exact .modify fun _ => books_handle

/-- A job is completed. -/
lemma books_markSucceeded {job : InteractionJob} {result : Dict} {tokensUsed : ℤ} {now : Time} :
    Within SameBooks (Tx.markSucceeded job result tokensUsed now) :=
  .bind books_mapQueue fun _ => .pure

/-- One job of the orchestrator, with what it does on an exception. -/
lemma books_processJob {run : JobRun} {job : InteractionJob} :
    Within SameBooks (WorkflowOrchestrator.processJob cfg text run job) := by
  refine .tryCatch ?_ fun e => ?_
  · refine .bind books_emit fun _ => .bind books_createChildJobs fun _ => ?_
    exact .bind books_markSucceeded fun _ => books_emit
  · split
    · exact .throw
    · exact .modify fun _ => books_handle

/-- The loop of the orchestrator. -/
lemma books_processJobs {run : UUID → JobRun} {jobs : List InteractionJob} :
    Within SameBooks (WorkflowOrchestrator.processJobs cfg text run jobs) := by
  induction jobs with
  | nil => exact .pure
  | cons job jobs ih => exact .bind books_processJob fun _ => ih

/-- A claim. -/
lemma books_claimReadyJobs {workerId : String} {jobTypes : List JobType} {limit : ℕ}
    {query : ClaimQuery} : Within SameBooks (Tx.claimReadyJobs workerId jobTypes limit query) :=
  fun _ => ⟨rfl, rfl⟩

/-- The transaction of the orchestrator. -/
lemma books_runOnce {workerId : String} {limit : ℕ} {recovery : RecoveryClock} {query : ClaimQuery}
    {run : UUID → JobRun} :
    Within SameBooks (WorkflowOrchestrator.runOnce cfg text workerId limit recovery query run) :=
  .bind books_mapQueue fun _ => .bind books_claimReadyJobs fun _ => books_processJobs

/-- The success of a recording job. -/
lemma books_completeRecording {clock : Clock} {snapshot : ClaimedRecordingJob}
    {result : RecordingResult} :
    Within SameBooks (RecordingWorkerService.complete clock snapshot result) := by
  refine .bind .get fun _ => ?_
  split
  · exact .pure
  split
  · refine .bind (.modify fun _ => ⟨rfl, rfl⟩) fun _ => ?_
    exact .bind books_markSucceeded fun _ => books_emit
  · exact .pure

/-- The success of a result job. -/
lemma books_completeResult {clock : Clock} {snapshot : ClaimedResultJob} :
    Within SameBooks (ResultWorkerService.complete clock snapshot) := by
  refine .bind .get fun _ => ?_
  split
  · exact .pure
  split
  · exact .bind books_markSucceeded fun _ => books_emit
  · exact .pure

end Programs

end PostCall.Machine
