import PostCall.Machine.Accounts

/-!
# What the transactions write down

The audit events and the dead letters are rows of their own, which name a job and repeat columns of it.
Each program of the model only adds to them, and what it adds names a row of the table, if the objects
that it was given stand for rows. All programs but the admission and the success of an analysis are
quiet: they leave the ledger alone, and add no event that tells of a booking.
-/

namespace PostCall.Machine
open PostCall.Library PostCall.Python PostCall.Model

/-- A row of the table is that of the caller's object, and has counted all its attempts. -/
def Stands (db : Db) (job : InteractionJob) : Prop :=
  ∃ row ∈ db.queue.jobs.rows, row.toJobIdentity = job.toJobIdentity ∧ job.attempts ≤ row.attempts

/-- The event repeats what a job in the table says. -/
def Names (db : Db) (e : AuditEvent) : Prop :=
  ∃ row ∈ db.queue.jobs.rows, e.jobId = row.id ∧ e.interactionId = row.interactionId ∧
    e.customerId = row.customerId ∧ e.campaignId = row.campaignId ∧ e.retryCount ≤ row.attempts

/-- The dead letter repeats what a job in the table says. -/
def Buries (db : Db) (letter : DeadLetterJob) : Prop :=
  ∃ row ∈ db.queue.jobs.rows, letter.originalJobId = row.id ∧
    letter.interactionId = row.interactionId ∧ letter.customerId = row.customerId ∧
    letter.campaignId = row.campaignId ∧ letter.jobType = row.jobType ∧
    letter.payload = row.payload ∧ letter.attempts ≤ row.attempts

/-- Whether the event tells of a booking. -/
def isBooking (e : AuditEvent) : Bool :=
  e.message = "llm_job_admitted" || e.message = "llm_analysis_completed"

/-- Rows stay rows of their jobs, and what was added to the events and to the dead letters names them. -/
structure Keeps (db db' : Db) : Prop where
  stands : ∀ job, Stands db job → Stands db' job
  events : ∃ new, db'.auditEvents = db.auditEvents ++ new ∧ ∀ e ∈ new, Names db' e
  letters : ∃ new, db'.queue.deadLetterJobs = db.queue.deadLetterJobs ++ new ∧
    ∀ letter ∈ new, Buries db' letter

/-- Nothing was booked either. -/
structure Quiet (db db' : Db) : Prop extends Keeps db db' where
  usage : db'.usage = db.usage
  bookings : db'.auditEvents.filter isBooking = db.auditEvents.filter isBooking

variable {cfg : Settings} {text : Text} {db db' db'' : Db} {job : InteractionJob}

/-- An event goes on naming its job while jobs stay and count no fewer attempts. -/
lemma Names.mono (h : ∀ job, Stands db job → Stands db' job) {e : AuditEvent} (names : Names db e) :
    Names db' e := by
  obtain ⟨row, mem, id, interaction, customer, campaign, retries⟩ := names
  obtain ⟨row', mem', same, attempts⟩ := h row ⟨row, mem, rfl, Nat.le_refl _⟩
  exact ⟨row', mem', id.trans (congrArg JobIdentity.id same).symm,
    interaction.trans (congrArg JobIdentity.interactionId same).symm,
    customer.trans (congrArg JobIdentity.customerId same).symm,
    campaign.trans (congrArg JobIdentity.campaignId same).symm, retries.trans attempts⟩

/-- So does a dead letter. -/
lemma Buries.mono (h : ∀ job, Stands db job → Stands db' job) {letter : DeadLetterJob}
    (buries : Buries db letter) : Buries db' letter := by
  obtain ⟨row, mem, id, interaction, customer, campaign, type, payload, attempts⟩ := buries
  obtain ⟨row', mem', same, more⟩ := h row ⟨row, mem, rfl, Nat.le_refl _⟩
  exact ⟨row', mem', id.trans (congrArg JobIdentity.id same).symm,
    interaction.trans (congrArg JobIdentity.interactionId same).symm,
    customer.trans (congrArg JobIdentity.customerId same).symm,
    campaign.trans (congrArg JobIdentity.campaignId same).symm,
    type.trans (congrArg JobIdentity.jobType same).symm,
    payload.trans (congrArg JobIdentity.payload same).symm, attempts.trans more⟩

/-- A row stands as it is. -/
lemma Stands.of_mem (mem : job ∈ db.queue.jobs.rows) : Stands db job := ⟨job, mem, rfl, Nat.le_refl _⟩

/-- An object that was changed stands for its row, if no attempt was counted. -/
lemma Stands.of_same {job' : InteractionJob} (h : Stands db job)
    (same : job'.toJobIdentity = job.toJobIdentity) (attempts : job'.attempts = job.attempts) :
    Stands db job' := by
  obtain ⟨row, mem, identity, le⟩ := h
  exact ⟨row, mem, identity.trans same.symm, attempts ▸ le⟩

namespace Keeps

/-- Nothing has happened. -/
lemma refl (db : Db) : Keeps db db :=
  ⟨fun _ h => h, ⟨[], by simp, by simp⟩, ⟨[], by simp, by simp⟩⟩

/-- One change after the other. -/
lemma trans (h : Keeps db db') (h' : Keeps db' db'') : Keeps db db'' := by
  obtain ⟨new, events, names⟩ := h.events
  obtain ⟨new', events', names'⟩ := h'.events
  obtain ⟨dead, letters, buries⟩ := h.letters
  obtain ⟨dead', letters', buries'⟩ := h'.letters
  refine ⟨fun job stands => h'.stands job (h.stands job stands), ⟨new ++ new', ?_, fun e mem => ?_⟩,
    ⟨dead ++ dead', ?_, fun letter mem => ?_⟩⟩
  · rw [events', events, List.append_assoc]
  · rcases List.mem_append.1 mem with mem | mem
    · exact (names e mem).mono h'.stands
    · exact names' e mem
  · rw [letters', letters, List.append_assoc]
  · rcases List.mem_append.1 mem with mem | mem
    · exact (buries letter mem).mono h'.stands
    · exact buries' letter mem

/-- A change outside the queue and the trail. -/
lemma of_same (queue : db'.queue = db.queue) (events : db'.auditEvents = db.auditEvents) :
    Keeps db db' := by
  refine ⟨fun job stands => ?_, ⟨[], by simp [events], by simp⟩, ⟨[], by simp [queue], by simp⟩⟩
  unfold Stands
  rwa [queue]

/-- An event of a job that stands. -/
lemma emit {stage status message : String} {code : Option String} (stands : Stands db job) :
    Keeps db (db.emit job stage status message code) := by
  refine ⟨fun _ h => h, ⟨[.ofJob job stage status message code], rfl, fun e mem => ?_⟩,
    ⟨[], by simp, by simp⟩⟩
  rw [List.mem_singleton.1 mem]
  obtain ⟨row, mem, same, attempts⟩ := stands
  exact ⟨row, mem, (congrArg JobIdentity.id same).symm,
    (congrArg JobIdentity.interactionId same).symm, (congrArg JobIdentity.customerId same).symm,
    (congrArg JobIdentity.campaignId same).symm, attempts⟩

/-- An update of rows that keeps their identities, and takes no attempt away. -/
lemma of_rows {f : InteractionJob → InteractionJob} {q : Queue}
    (rows : q.jobs.rows = db.queue.jobs.rows.map f)
    (letters : q.deadLetterJobs = db.queue.deadLetterJobs)
    (same : ∀ row, (f row).toJobIdentity = row.toJobIdentity)
    (attempts : ∀ row, row.attempts ≤ (f row).attempts) : Keeps db (db.mapQueue fun _ => q) := by
  refine ⟨fun job stands => ?_, ⟨[], by simp, by simp⟩, ⟨[], by simp [letters], by simp⟩⟩
  obtain ⟨row, mem, identity, le⟩ := stands
  refine ⟨f row, ?_, (same row).trans identity, le.trans (attempts row)⟩
  rw [Db.mapQueue_queue, rows]
  exact List.mem_map_of_mem mem

end Keeps

/-- Quiet for who was given objects that stand for rows. -/
def QuietFor (jobs : List InteractionJob) (db db' : Db) : Prop :=
  (∀ job ∈ jobs, Stands db job) → Quiet db db'

namespace Quiet

/-- Nothing has happened. -/
lemma refl (db : Db) : Quiet db db := ⟨.refl db, rfl, rfl⟩

/-- One change after the other. -/
lemma trans (h : Quiet db db') (h' : Quiet db' db'') : Quiet db db'' :=
  ⟨h.toKeeps.trans h'.toKeeps, h'.usage.trans h.usage, h'.bookings.trans h.bookings⟩

instance : IsPreorder Db Quiet where
  refl := refl
  trans _ _ _ := trans

/-- What is compared is as before. -/
lemma of_same (queue : db'.queue = db.queue) (events : db'.auditEvents = db.auditEvents)
    (usage : db'.usage = db.usage) : Quiet db db' :=
  ⟨.of_same queue events, usage, by rw [events]⟩

/-- An event that tells of no tokens. -/
lemma emit {stage status message : String} {code : Option String} (stands : Stands db job)
    (silent : message ≠ "llm_job_admitted" ∧ message ≠ "llm_analysis_completed") :
    Quiet db (db.emit job stage status message code) :=
  ⟨.emit stands, rfl, by simp [Db.emit, isBooking, AuditEvent.ofJob, silent]⟩

/-- Rows that keep their identity and lose no attempt. -/
lemma of_rows {f : InteractionJob → InteractionJob} {q : Queue}
    (rows : q.jobs.rows = db.queue.jobs.rows.map f)
    (letters : q.deadLetterJobs = db.queue.deadLetterJobs)
    (same : ∀ row, (f row).toJobIdentity = row.toJobIdentity)
    (attempts : ∀ row, row.attempts ≤ (f row).attempts) : Quiet db (db.mapQueue fun _ => q) :=
  ⟨.of_rows rows letters same attempts, rfl, rfl⟩

end Quiet

instance {jobs : List InteractionJob} : IsPreorder Db (QuietFor jobs) where
  refl db _ := .refl db
  trans _ _ _ h h' stand := by
    have first := h stand
    exact first.trans (h' fun job mem => first.stands job (stand job mem))

/-- What is quiet of itself is so for any jobs. -/
lemma quietFor_of_quiet {α : Type} {x : Tx α} {jobs : List InteractionJob} (h : Within Quiet x) :
    Within (QuietFor jobs) x :=
  h.mono fun _ _ quiet _ => quiet

/-! ### The operations of the queue -/

/-- A change of one row that takes no attempt back. -/
lemma quiet_updateJob {id : UUID} {event : JobEvent} {f : InteractionJob → InteractionJob} {same}
    (attempts : ∀ row, row.attempts ≤ (f row).attempts) :
    Quiet db (db.mapQueue (·.updateJob id event f same)) := by
  refine .of_rows (f := fun row => if row.id = id then f row else row) rfl rfl (fun row => ?_)
    fun row => ?_
  · split
    · exact same row
    · rfl
  · split
    · exact attempts row
    · exact Nat.le_refl _

/-- The history is not compared. -/
lemma quiet_recordFailure {id : UUID} : Quiet db (db.mapQueue (·.recordFailure id)) :=
  .of_rows (f := fun row => row) (List.map_id' _).symm rfl (fun _ => rfl) fun _ => Nat.le_refl _

/-- Neither are the refusals in it. -/
lemma quiet_recordRefusal {id : UUID} {attempts : ℕ} :
    Quiet db (db.mapQueue (·.recordRefusal id attempts)) :=
  .of_rows (f := fun row => row) (List.map_id' _).symm rfl (fun _ => rfl) fun _ => Nat.le_refl _

/-- A loop of operations that leave the dead letters alone leaves them alone. -/
lemma letters_foldl {op : Queue → UUID → Queue} {ids : List UUID} {q : Queue}
    (same : ∀ q id, (op q id).deadLetterJobs = q.deadLetterJobs) :
    (ids.foldl op q).deadLetterJobs = q.deadLetterJobs := by
  induction ids generalizing q with
  | nil => rfl
  | cons id ids ih => exact ih.trans (same q id)

/-- A recovery. -/
lemma quiet_recovered {workerId : String} {recovery : RecoveryClock} :
    Quiet db (recovered cfg workerId recovery db) := by
  have letters : (db.queue.recoverStaleRunningJobs cfg workerId recovery).deadLetterJobs =
      db.queue.deadLetterJobs := by
    exact letters_foldl fun _ _ => rfl
  refine .of_rows Queue.recoverStaleRunningJobs_rows letters (fun row => ?_) fun row => ?_
  · split <;> rfl
  · split <;> exact Nat.le_refl _

/-- A claim. -/
lemma quiet_claimed {workerId : String} {jobTypes : List JobType} {limit : ℕ} {query : ClaimQuery} :
    Quiet db (claimed workerId jobTypes limit query db) := by
  have letters : (db.queue.claimReadyJobs workerId jobTypes limit query).1.deadLetterJobs =
      db.queue.deadLetterJobs := by
    exact letters_foldl fun _ _ => rfl
  refine .of_rows Queue.claimReadyJobs_rows letters (fun row => ?_) fun row => ?_
  · split <;> rfl
  · split
    · exact Nat.le_succ _
    · exact Nat.le_refl _

/-- A job is created, or was there already. -/
lemma quiet_createIfAbsent {new : NewJob} : Within Quiet (Tx.createIfAbsent cfg new) := by
  intro db
  rcases createIfAbsent_cases cfg db new with ⟨_, e, _, _⟩ | ⟨queue, e, _, added⟩ | ⟨_, e⟩
  · rw [e]; exact .refl db
  · obtain ⟨rows, letters, _, _⟩ := Queue.add?_eq_some added
    rw [e]
    refine ⟨⟨fun job stands => ?_, ⟨[], by simp, by simp⟩, ⟨[], by simp [letters], by simp⟩⟩,
      rfl, rfl⟩
    obtain ⟨row, mem, identity, le⟩ := stands
    refine ⟨row, ?_, identity, le⟩
    simp only [finalState_ok]
    rw [rows]
    exact List.mem_append_left _ mem
  · rw [e]; exact .refl db

/-- The row that `create_if_absent` returns is in the table. -/
lemma stands_createIfAbsent {new : NewJob} {row : InteractionJob}
    (h : Tx.createIfAbsent cfg new db = .ok row db') : Stands db' row := by
  rcases createIfAbsent_cases cfg db new with ⟨_, e, mem, _⟩ | ⟨queue, e, _, added⟩ | ⟨_, e⟩
  · rw [e] at h
    cases h
    exact .of_mem mem
  · rw [e] at h
    cases h
    refine .of_mem ?_
    rw [(Queue.add?_eq_some added).1]
    exact List.mem_append_right _ (List.mem_singleton.2 rfl)
  · rw [e] at h
    cases h

/-! ### The handling of failures and refusals -/

/-- A deferral. -/
lemma quiet_defer {id : UUID} {runAfter : Time} {code message : String} :
    Quiet db (db.mapQueue (·.defer id runAfter code message)) := quiet_updateJob fun _ => Nat.le_refl _

/-- A job is buried, with a letter that says what its row says. -/
lemma quiet_deadLetter {stage code message : String} {now : Time} (stands : Stands db job) :
    Quiet db (db.mapQueue (·.deadLetter job stage code message now)) := by
  have update : Quiet db (db.mapQueue (·.updateJob job.id (.deadLettered job.id)
      (·.deadLetter code message now) fun _ => InteractionJob.deadLetter_identity)) :=
    quiet_updateJob fun _ => Nat.le_refl _
  refine ⟨⟨update.stands, update.events, [.ofJob job stage code message], rfl, fun letter mem => ?_⟩,
    rfl, rfl⟩
  rw [List.mem_singleton.1 mem]
  obtain ⟨row, mem, same, attempts⟩ := update.stands job stands
  exact ⟨row, mem, (congrArg JobIdentity.id same).symm,
    (congrArg JobIdentity.interactionId same).symm, (congrArg JobIdentity.customerId same).symm,
    (congrArg JobIdentity.campaignId same).symm, (congrArg JobIdentity.jobType same).symm,
    (congrArg JobIdentity.payload same).symm, attempts⟩

/-- A job is moved, and then the object as it reads after the move is written down. -/
lemma Quiet.told {job' : InteractionJob} {stage status message : String} {code : Option String}
    (h : Quiet db db') (stands : Stands db job) (same : job'.toJobIdentity = job.toJobIdentity)
    (attempts : job'.attempts = job.attempts)
    (silent : message ≠ "llm_job_admitted" ∧ message ≠ "llm_analysis_completed") :
    Quiet db (db'.emit job' stage status message code) :=
  h.trans (.emit ((h.stands job stands).of_same same attempts) silent)

/-- A failure is recorded, with its event. -/
lemma quiet_handle {clock : Clock} {failure : Failure} (stands : Stands db job) :
    Quiet db (db.handle cfg clock job failure) := by
  have logged : Quiet db ((db.mapQueue (·.recordFailure job.id)).appendError job.interactionId
      ⟨failure.stage, failure.errorCode, failure.errorMessage, clock 1⟩) :=
    quiet_recordFailure.trans (.of_same rfl rfl rfl)
  unfold Db.handle
  cases failure.nextRunAt cfg (clock 0) job with
  | some runAfter => exact (logged.trans quiet_defer).told stands rfl rfl (by decide)
  | none =>
    have stands' := logged.stands job stands
    exact (logged.trans (quiet_deadLetter stands')).told stands rfl rfl (by decide)

/-- So it is by the transaction that reports it. -/
lemma quiet_handleFailure {clock : Clock} {jobId : UUID} {failure : Failure} :
    Within Quiet (Tx.handleFailure cfg clock jobId failure) := by
  intro db
  rw [Tx.handleFailure, Program.bind_of_ok Program.get_run]
  cases found : db.queue.get? jobId with
  | none => exact .refl db
  | some job => exact quiet_handle (.of_mem (Queue.get?_eq_some.1 found).1)

/-- A refusal of the rate limiter, with its event. -/
lemma quiet_deferRefused {clock : Clock} {admission : ReservationResult} (stands : Stands db job) :
    Quiet db (db.deferRefused clock job admission) :=
  (quiet_recordRefusal.trans quiet_defer).told stands rfl rfl (by decide)

/-! ### The programs -/

section Programs

variable {jobs : List InteractionJob}

/-- What is compared is as before. -/
lemma quiet_same {f : Db → Db} (queue : ∀ db, (f db).queue = db.queue)
    (events : ∀ db, (f db).auditEvents = db.auditEvents) (usage : ∀ db, (f db).usage = db.usage) :
    Within Quiet (modify f : Tx PUnit) :=
  .modify fun db => .of_same (queue db) (events db) (usage db)

/-- An event of one of the jobs that tells of no tokens. -/
lemma quiet_emit {stage status message : String} {code : Option String} (mem : job ∈ jobs)
    (silent : message ≠ "llm_job_admitted" ∧ message ≠ "llm_analysis_completed") :
    Within (QuietFor jobs) (Tx.emit job stage status message code) :=
  .modify fun _ stand => .emit (stand job mem) silent

/-- The environment raises, or does not. -/
lemma quiet_interrupt {fault : Option PyError} : Within Quiet (Tx.interrupt fault) := by
  cases fault with
  | none => exact .pure
  | some e => exact .throw

/-- A job is completed. -/
lemma quiet_markSucceeded {result : Dict} {tokensUsed : ℤ} {now : Time} :
    Within Quiet (Tx.markSucceeded job result tokensUsed now) :=
  .bind (.modify fun _ => quiet_updateJob fun _ => Nat.le_refl _) fun _ => .pure

/-- A success that is written down with the object as it then reads. -/
lemma quiet_succeed {result : Dict} {tokensUsed : ℤ} {now : Time} {stage status message : String}
    (silent : message ≠ "llm_job_admitted" ∧ message ≠ "llm_analysis_completed") :
    Within (QuietFor [job]) (do
      let job ← Tx.markSucceeded job result tokensUsed now
      Tx.emit job stage status message) := by
  refine .bind_of (quietFor_of_quiet quiet_markSucceeded) fun s job' s' h stand => ?_
  cases h
  exact .emit ((stand job List.mem_cons_self).of_same rfl rfl) silent

/-- The two jobs that follow a result. -/
lemma quiet_queueResultJobs {births : ChildSlot → Birth} {job : JobIdentity} {payload result : Dict}
    {priority : JobPriority} {suffix : String} {fault : Option PyError} :
    Within Quiet (Tx.queueResultJobs cfg text births job payload result priority suffix fault) :=
  .bind quiet_createIfAbsent fun _ => .bind quiet_interrupt fun _ =>
    .bind quiet_createIfAbsent fun _ => .pure

/-- The jobs that follow an orchestration. -/
lemma quiet_createChildJobs {run : JobRun} :
    Within (QuietFor [job]) (WorkflowOrchestrator.createChildJobs cfg text run job) := by
  refine .bind .ofExcept fun c => ?_
  refine .bind (quietFor_of_quiet ?_) fun _ => .bind (quietFor_of_quiet quiet_interrupt) fun _ => ?_
  · unfold WorkflowOrchestrator.queueRecording
    split
    · exact .bind quiet_interrupt fun _ => .bind quiet_createIfAbsent fun _ => .pure
    · exact .pure
  simp only
  split
  · refine .bind (quietFor_of_quiet ?_) fun _ => quietFor_of_quiet quiet_interrupt
    refine .bind (quiet_same (fun _ => rfl) (fun _ => rfl) fun _ => rfl) fun _ => ?_
    exact .bind quiet_interrupt fun _ => quiet_queueResultJobs
  · refine .bind ?_ fun _ => quietFor_of_quiet quiet_interrupt
    refine .bind (quietFor_of_quiet (quiet_same (fun _ => rfl) (fun _ => rfl) fun _ => rfl))
      fun _ => .bind (quietFor_of_quiet quiet_interrupt) fun _ => ?_
    exact .bind .ofExcept fun _ => .bind (quietFor_of_quiet quiet_createIfAbsent) fun _ =>
      quiet_emit List.mem_cons_self (by decide)

/-- One job of the orchestrator, with what it does on an exception. -/
lemma quiet_processJob {run : JobRun} :
    Within (QuietFor [job]) (WorkflowOrchestrator.processJob cfg text run job) := by
  refine .tryCatch ?_ fun e => ?_
  · refine .bind (quiet_emit List.mem_cons_self (by decide)) fun _ => ?_
    exact .bind quiet_createChildJobs fun _ => quiet_succeed (by decide)
  · split
    · exact .throw
    · exact .modify fun _ stand => quiet_handle (stand job List.mem_cons_self)

/-- The loop of the orchestrator. -/
lemma quiet_processJobs {run : UUID → JobRun} :
    Within (QuietFor jobs) (WorkflowOrchestrator.processJobs cfg text run jobs) := by
  induction jobs with
  | nil => exact .pure
  | cons job jobs ih =>
    refine .bind (quiet_processJob.mono fun _ _ h stand => h fun row mem => ?_)
      fun _ => ih.mono fun _ _ h stand => h fun row mem => stand row (List.mem_cons_of_mem _ mem)
    rw [List.mem_singleton.1 mem]
    exact stand job List.mem_cons_self

/-- The jobs of a claim stand as claimed. -/
lemma stands_claimed {workerId : String} {jobTypes : List JobType} {limit : ℕ} {query : ClaimQuery} :
    ∀ job ∈ claimedJobs workerId jobTypes limit query db,
      Stands (claimed workerId jobTypes limit query db) job :=
  fun _ h => .of_mem (mem_claimed h)

/-- The transaction of the orchestrator. -/
lemma quiet_runOnce {workerId : String} {limit : ℕ} {recovery : RecoveryClock} {query : ClaimQuery}
    {run : UUID → JobRun} :
    Within Quiet (WorkflowOrchestrator.runOnce cfg text workerId limit recovery query run) := by
  refine .bind_of (.modify fun _ => quiet_recovered) fun _ _ db _ => ?_
  have claim : Within Quiet (Tx.claimReadyJobs workerId [.orchestrateInteraction] limit query) :=
    fun _ => quiet_claimed
  refine Within.bind_of claim (fun s jobs s' h => ?_) db
  cases h
  exact quiet_processJobs _ stands_claimed

/-- The transaction of the webhook. -/
lemma quiet_endInteraction {request : EndRequest} :
    Within Quiet (endInteraction cfg text request) := by
  refine .bind .get fun db => ?_
  split
  · exact .throw
  split
  · exact .throw
  split
  · exact .throw
  refine .bind (quiet_same (fun _ => rfl) (fun _ => rfl) fun _ => rfl) fun _ => ?_
  refine .bind .ofExcept fun _ => ?_
  refine .bind_of quiet_createIfAbsent fun s job s' h => ?_
  exact Quiet.emit (stands_createIfAbsent h) (by decide)

/-- The job that the webhook returns is in the table. -/
lemma stands_endInteraction {request : EndRequest}
    (h : endInteraction cfg text request db = .ok job db') : Stands db' job := by
  rw [endInteraction, Program.bind_of_ok Program.get_run] at h
  cases found : db.interactions.find? request.interactionId with
  | none =>
    rw [found] at h
    cases h
  | some interaction =>
    simp only [found] at h
    split at h
    · cases h
    split at h
    · cases h
    obtain ⟨_, s, _, h⟩ := Program.bind_ok.1 h
    obtain ⟨payload, s', _, h⟩ := Program.bind_ok.1 h
    obtain ⟨row, s'', created, h⟩ := Program.bind_ok.1 h
    cases h
    have stands := stands_createIfAbsent created
    exact (Keeps.emit stands).stands job stands

/-- The transaction of the legacy task. -/
lemma quiet_persistLegacyPayload {payload : Dict} {birth : Birth} :
    Within Quiet (persistLegacyPayload cfg text payload birth) := by
  refine .bind .ofExcept fun _ => .bind .ofExcept fun _ => .bind .ofExcept fun _ => ?_
  exact .bind .ofExcept fun _ => .bind .ofExcept fun _ => quiet_createIfAbsent

/-- The success of a recording job. -/
lemma quiet_completeRecording {clock : Clock} {snapshot : ClaimedRecordingJob}
    {result : RecordingResult} :
    Within Quiet (RecordingWorkerService.complete clock snapshot result) := by
  intro db
  rw [RecordingWorkerService.complete, Program.bind_of_ok Program.get_run]
  cases found : db.queue.get? snapshot.id with
  | none => exact .refl db
  | some job =>
    simp only
    split
    case isFalse => exact .refl db
    case isTrue =>
      have key : Quiet db (db.updateRecordingKey snapshot.interactionId result.s3Key) :=
        .of_same rfl rfl rfl
      rw [Program.bind_of_ok Program.modify_run]
      refine key.trans (quiet_succeed (by decide) _ fun row mem => ?_)
      rw [List.mem_singleton.1 mem]
      exact .of_mem (Queue.get?_eq_some.1 found).1

/-- The `try` block of a result job. -/
lemma quiet_processResult {snapshot : ClaimedResultJob} {fault : Option PyError} :
    Within Quiet (ResultWorkerService.process snapshot fault) := by
  have stage : ∀ callStage, Within Quiet (Tx.updateLeadStage snapshot.leadId callStage) := by
    intro callStage
    refine .bind .get fun _ => ?_
    split
    · exact .pure
    refine .bind .ofExcept fun _ => ?_
    split
    · split
      · exact .throw
      · exact quiet_same (fun _ => rfl) (fun _ => rfl) fun _ => rfl
    · exact .throw
  refine .bind quiet_interrupt fun _ => ?_
  split
  · exact .bind .ofExcept fun _ => stage _
  · exact .pure

/-- The success of a result job. -/
lemma quiet_completeResult {clock : Clock} {snapshot : ClaimedResultJob} :
    Within Quiet (ResultWorkerService.complete clock snapshot) := by
  intro db
  rw [ResultWorkerService.complete, Program.bind_of_ok Program.get_run]
  cases found : db.queue.get? snapshot.id with
  | none => exact .refl db
  | some job =>
    simp only
    split
    case isFalse => exact .refl db
    case isTrue =>
      refine quiet_succeed (by decide) _ fun row mem => ?_
      rw [List.mem_singleton.1 mem]
      exact .of_mem (Queue.get?_eq_some.1 found).1

end Programs

end PostCall.Machine
