import PostCall.Machine.Roots

/-!
# What is written into an interaction

Five kinds of transaction write into the row of an interaction: a webhook marks its end, a failure
adds to its error log, the orchestration and the analysis set entries of its metadata, and the
recording worker sets its recording key. `Notes` says which of these writes lie between two
databases; the lemmas say which ones a program makes.
-/

namespace PostCall.Machine
open PostCall.Library PostCall.Python PostCall.Model

/-- A write to the row of an interaction. -/
inductive Note where
  | ended (endedAt : Time) (durationSeconds : Option ℤ) (callSid : Option String)
  | erred (entry : ErrorEntry)
  | entered (entries : Dict)
  | recorded (s3Key : String)

namespace Note

/-- The row after the write. -/
def apply : Note → Interaction → Interaction
  | .ended endedAt durationSeconds callSid => (·.markEnded endedAt durationSeconds callSid)
  | .erred entry => (·.appendError entry)
  | .entered entries => (·.updateMetadata entries)
  | .recorded s3Key => (·.updateRecordingKey s3Key)

/-- A note is made on a row that keeps its id. -/
lemma apply_id (note : Note) (interaction : Interaction) :
    (note.apply interaction).id = interaction.id := by
  cases note <;> rfl

/-- What `mark_processing` writes. -/
def processing (analysisStatus : String) : Note :=
  .entered [("analysis_status", .str analysisStatus)]

/-- The entries of a call that is too short to be analysed. -/
def skipped : Dict := [
  ("analysis_status", .str "skipped"),
  ("call_stage", .str "short_call"),
  ("skip_reason", .str "short_transcript"),
  ("tokens_used", .int 0)]

/-- What `mark_short_call` writes. -/
def shortCall : Note := .entered skipped

/-- What `update_analysis_result` writes. -/
def analysisResult (text : Text) (result : AnalysisResult) (now : Time) : Note := .entered [
  ("analysis_status", .str "completed"),
  ("call_stage", result.callStage),
  ("entities", result.entities),
  ("summary", result.summary),
  ("tokens_used", result.tokensUsed),
  ("llm_provider", .str result.provider),
  ("llm_model", .str result.model),
  ("analyzed_at", .str (text.isoformat now))]

end Note

/-- The table in which this was written into the row of an interaction. -/
def noted (t : InteractionTable) (id : UUID) (note : Note) : InteractionTable :=
  t.modify id note.apply note.apply_id note.apply_id

/-- Between the databases lie such writes only. -/
def Notes (ok : UUID → Note → Prop) (db db' : Db) : Prop :=
  Path (fun t (l : UUID × Note) t' => t' = noted t l.1 l.2) (fun _ l => ok l.1 l.2)
    db.interactions db'.interactions

variable {cfg : Settings} {text : Text} {ok : UUID → Note → Prop} {db db' : Db}

instance : IsPreorder Db (Notes ok) where
  refl _ := .refl
  trans _ _ _ := .trans

namespace Notes

/-- Interactions that are as before carry no new notes. -/
lemma of_same (h : db'.interactions = db.interactions) : Notes ok db db' := by
  unfold Notes
  rw [h]
  exact .refl

/-- One note on one interaction. -/
lemma single {id : UUID} {note : Note} (h : ok id note)
    (e : db'.interactions = noted db.interactions id note) : Notes ok db db' :=
  Path.single (l := (id, note)) e h

/-- What every permitted write keeps of a row, all of them keep. -/
lemma keeps {p : Interaction → Prop} {id : UUID} {interaction : Interaction} (h : Notes ok db db')
    (keep : ∀ note i, ok id note → p i → p (note.apply i))
    (row : db.interactions.find? id = some interaction) (holds : p interaction) :
    ∃ interaction', db'.interactions.find? id = some interaction' ∧ p interaction' := by
  refine Path.invariant h (I := fun t => ∃ i, t.find? id = some i ∧ p i) ⟨interaction, row, holds⟩
    fun t l t' before e permitted => ?_
  obtain ⟨i, row, holds⟩ := before
  rw [e, noted, Table.find?_modify]
  split
  case isFalse => exact ⟨i, row, holds⟩
  case isTrue own =>
    rw [row]
    exact ⟨_, rfl, keep l.2 i (own ▸ permitted) holds⟩

/-- A column that every permitted write leaves alone is as before. -/
lemma column {α : Type} {f : Interaction → α} {id : UUID} {interaction : Interaction}
    (h : Notes ok db db') (keep : ∀ note i, ok id note → f (note.apply i) = f i)
    (row : db.interactions.find? id = some interaction) :
    ∃ interaction', db'.interactions.find? id = some interaction' ∧
      f interaction' = f interaction :=
  h.keeps (fun note i permitted same => (keep note i permitted).trans same) row rfl

end Notes

/-! ### The programs -/

section Programs

/-- An event is no note. -/
lemma notes_emit {job : InteractionJob} {stage status message : String} {code : Option String} :
    Within (Notes ok) (Tx.emit job stage status message code) := .modify fun _ => .of_same rfl

/-- Neither is a change of the queue. -/
lemma notes_mapQueue {f : Queue → Queue} : Within (Notes ok) (modify (·.mapQueue f) : Tx PUnit) :=
  .modify fun _ => .of_same rfl

/-- A claim makes none. -/
lemma notes_claimReadyJobs {workerId : String} {jobTypes : List JobType} {limit : ℕ}
    {query : ClaimQuery} : Within (Notes ok) (Tx.claimReadyJobs workerId jobTypes limit query) :=
  fun _ => .of_same rfl

/-- Creating a job makes none. -/
lemma notes_createIfAbsent {new : NewJob} : Within (Notes ok) (Tx.createIfAbsent cfg new) := by
  intro db
  rcases createIfAbsent_cases cfg db new with ⟨_, e, _, _⟩ | ⟨_, e, _, _⟩ | ⟨_, e⟩ <;>
    rw [e] <;> exact .of_same rfl

/-- What the environment raises makes none. -/
lemma notes_interrupt {fault : Option PyError} : Within (Notes ok) (Tx.interrupt fault) := by
  cases fault with
  | none => exact .pure
  | some e => exact .throw

/-- Completing a job makes none by itself. -/
lemma notes_markSucceeded {job : InteractionJob} {result : Dict} {tokensUsed : ℤ} {now : Time} :
    Within (Notes ok) (Tx.markSucceeded job result tokensUsed now) :=
  .bind notes_mapQueue fun _ => .pure

/-- The jobs that follow a result are made without one. -/
lemma notes_queueResultJobs {births : ChildSlot → Birth} {job : JobIdentity}
    {payload result : Dict} {priority : JobPriority} {suffix : String} {fault : Option PyError} :
    Within (Notes ok)
      (Tx.queueResultJobs cfg text births job payload result priority suffix fault) :=
  .bind notes_createIfAbsent fun _ => .bind notes_interrupt fun _ =>
    .bind notes_createIfAbsent fun _ => .pure

/-- A failure is noted in the error log. -/
lemma notes_handle {clock : Clock} {job : InteractionJob} {failure : Failure}
    (erred : ∀ id entry, ok id (.erred entry)) : Notes ok db (db.handle cfg clock job failure) := by
  refine .single (erred job.interactionId
    ⟨failure.stage, failure.errorCode, failure.errorMessage, clock 1⟩) ?_
  unfold Db.handle
  cases failure.nextRunAt cfg (clock 0) job <;> rfl

/-- So it is by the transaction that reports it. -/
lemma notes_handleFailure {clock : Clock} {jobId : UUID} {failure : Failure}
    (erred : ∀ id entry, ok id (.erred entry)) :
    Within (Notes ok) (Tx.handleFailure cfg clock jobId failure) := by
  refine .bind .get fun _ => ?_
  split
  · exact .pure
  · exact .modify fun _ => notes_handle erred

/-- The webhook notes the end of its own call. -/
lemma notes_endInteraction {request : EndRequest}
    (ended : ok request.interactionId
      (.ended request.endedAt request.durationSeconds request.callSid)) :
    Within (Notes ok) (endInteraction cfg text request) := by
  refine .bind .get fun db => ?_
  split
  · exact .throw
  split
  · exact .throw
  split
  · exact .throw
  refine .bind (.modify fun _ => .single ended rfl) fun _ => ?_
  exact .bind .ofExcept fun _ => .bind notes_createIfAbsent fun _ => .bind notes_emit fun _ => .pure

/-- The legacy task makes no note. -/
lemma notes_persistLegacyPayload {payload : Dict} {birth : Birth} :
    Within (Notes ok) (persistLegacyPayload cfg text payload birth) := by
  refine .bind .ofExcept fun _ => .bind .ofExcept fun _ => .bind .ofExcept fun _ => ?_
  exact .bind .ofExcept fun _ => .bind .ofExcept fun _ => notes_createIfAbsent

/-- What the orchestration of a job writes, by how it was classified. -/
def classifiedNote (c : Classification) : Note :=
  if c.skipLlm then .shortCall else .processing "queued"

/-- Queueing the recording makes none. -/
lemma notes_queueRecording {run : JobRun} {job : JobIdentity} {c : Classification} :
    Within (Notes ok) (WorkflowOrchestrator.queueRecording cfg run job c) := by
  unfold WorkflowOrchestrator.queueRecording
  split
  · exact .bind notes_interrupt fun _ => .bind notes_createIfAbsent fun _ => .pure
  · exact .pure

/-- An orchestration notes how its call was classified. -/
lemma notes_createChildJobs {run : JobRun} {job : InteractionJob}
    (classified : ∀ transcriptText c,
      WorkflowOrchestrator.classification text job.payload = .ok (transcriptText, c) →
        ok job.interactionId (classifiedNote c)) :
    Within (Notes ok) (WorkflowOrchestrator.createChildJobs cfg text run job) := by
  refine .bind_of .ofExcept fun s a s' e => ?_
  obtain ⟨transcriptText, c⟩ := a
  obtain ⟨read, rfl⟩ := Program.ofExcept_run_ok.1 e
  have permitted := classified transcriptText c read
  refine Within.bind (R := Notes ok) notes_queueRecording
    (fun _ => .bind notes_interrupt fun _ => ?_) s'
  simp only
  split
  case isTrue short =>
    rw [classifiedNote, if_pos short] at permitted
    refine .bind ?_ fun _ => notes_interrupt
    refine .bind (.modify fun _ => .single permitted rfl) fun _ => .bind notes_interrupt fun _ => ?_
    exact notes_queueResultJobs
  case isFalse long =>
    rw [classifiedNote, if_neg long] at permitted
    refine .bind ?_ fun _ => notes_interrupt
    refine .bind (.modify fun _ => .single permitted rfl) fun _ => .bind notes_interrupt fun _ => ?_
    exact .bind .ofExcept fun _ => .bind notes_createIfAbsent fun _ => notes_emit

/-- With an exception, it notes that as well. -/
lemma notes_processJob {run : JobRun} {job : InteractionJob}
    (erred : ∀ id entry, ok id (.erred entry))
    (classified : ∀ transcriptText c,
      WorkflowOrchestrator.classification text job.payload = .ok (transcriptText, c) →
        ok job.interactionId (classifiedNote c)) :
    Within (Notes ok) (WorkflowOrchestrator.processJob cfg text run job) := by
  refine .tryCatch ?_ fun e => ?_
  · refine .bind notes_emit fun _ => .bind (notes_createChildJobs classified) fun _ => ?_
    exact .bind notes_markSucceeded fun _ => notes_emit
  · split
    · exact .throw
    · exact .modify fun _ => notes_handle erred

/-- The loop of the orchestrator notes this of each of its jobs. -/
lemma notes_processJobs {run : UUID → JobRun} {jobs : List InteractionJob}
    (erred : ∀ id entry, ok id (.erred entry))
    (classified : ∀ job ∈ jobs, ∀ transcriptText c,
      WorkflowOrchestrator.classification text job.payload = .ok (transcriptText, c) →
        ok job.interactionId (classifiedNote c)) :
    Within (Notes ok) (WorkflowOrchestrator.processJobs cfg text run jobs) := by
  induction jobs with
  | nil => exact .pure
  | cons job jobs ih =>
    refine .bind (notes_processJob erred (classified job List.mem_cons_self)) fun _ => ?_
    exact ih fun row mem => classified row (List.mem_cons_of_mem _ mem)

/-- The admission of a batch makes no note. -/
lemma notes_admitJobs {clock : UUID → Clock} {jobs : List InteractionJob} :
    Within (Notes ok) (LLMWorkerService.admitJobs cfg clock jobs) := by
  induction jobs with
  | nil => exact .pure
  | cons job jobs ih =>
    refine .bind ?_ fun _ => .bind ih fun _ => .pure
    refine .bind .ofExcept fun _ => .bind .get fun _ => .bind .ofExcept fun _ => ?_
    refine .bind (.modify fun _ => .of_same rfl) fun _ => ?_
    split
    · exact .bind notes_emit fun _ => .pure
    · exact .bind (.modify fun _ => .of_same rfl) fun _ => .pure

/-- Nor does the claim before it. -/
lemma notes_claimAdmittedJobs {workerId : String} {limit : ℕ} {recovery : RecoveryClock}
    {query : ClaimQuery} {clock : UUID → Clock} : Within (Notes ok)
      (LLMWorkerService.claimAdmittedJobs cfg workerId limit recovery query clock) :=
  .bind notes_mapQueue fun _ => .bind notes_claimReadyJobs fun _ => notes_admitJobs

/-- The `try` block of a result job makes none. -/
lemma notes_processResult {snapshot : ClaimedResultJob} {fault : Option PyError} :
    Within (Notes ok) (ResultWorkerService.process snapshot fault) := by
  have stage : ∀ callStage, Within (Notes ok) (Tx.updateLeadStage snapshot.leadId callStage) := by
    intro callStage
    refine .bind .get fun _ => ?_
    split
    · exact .pure
    refine .bind .ofExcept fun _ => ?_
    split
    · split
      · exact .throw
      · exact .modify fun _ => .of_same rfl
    · exact .throw
  refine .bind notes_interrupt fun _ => ?_
  split
  · exact .bind .ofExcept fun _ => stage _
  · exact .pure

/-- Nor does its success. -/
lemma notes_completeResult {clock : Clock} {snapshot : ClaimedResultJob} :
    Within (Notes ok) (ResultWorkerService.complete clock snapshot) := by
  refine .bind .get fun _ => ?_
  split
  · exact .pure
  split
  · exact .bind notes_markSucceeded fun _ => notes_emit
  · exact .pure

end Programs

end PostCall.Machine
