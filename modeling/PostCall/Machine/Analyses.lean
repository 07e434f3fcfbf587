import PostCall.Machine.Roots

/-!
# Analyses

Where the analysis jobs come from: the orchestrator queues one for an orchestration job, with the
payload of that job and an estimate for the text that it has classified, and nothing else queues any.
-/

namespace PostCall.Machine
open PostCall.Library PostCall.Python PostCall.Model

/-- The analysis was queued for this job, which has this text and was classified so. -/
structure AnalysisOf (cfg : Settings) (text : Text) (root job : JobIdentity) (transcriptText : Json)
    (c : Classification) : Prop where
  interactionId : job.interactionId = root.interactionId
  classified : WorkflowOrchestrator.classification text root.payload = .ok (transcriptText, c)
  long : ¬ c.skipLlm
  estimated : estimate cfg transcriptText = .ok job.tokenEstimate
  payload : job.payload = llmPayload root.payload c

/-- The job is no analysis, or one that was queued for one of these jobs. -/
def Queues (cfg : Settings) (text : Text) (roots : JobIdentity → Prop) (job : JobIdentity) : Prop :=
  job.jobType = .llmAnalysis →
    ∃ root, roots root ∧ ∃ transcriptText c, AnalysisOf cfg text root job transcriptText c

/-- A job of the second state is one of the first, or `P` holds of it. -/
def Grows (P : JobIdentity → Prop) (db db' : Db) : Prop :=
  ∀ row ∈ db'.queue.jobs.rows,
    (∃ row₀ ∈ db.queue.jobs.rows, row.toJobIdentity = row₀.toJobIdentity) ∨ P row.toJobIdentity

variable {cfg : Settings} {text : Text} {P : JobIdentity → Prop} {db db' : Db} {w w₀ : World}
  {a : Action} {as : List Action}

instance : IsPreorder Db (Grows P) where
  refl _ := fun row mem => .inl ⟨row, mem, rfl⟩
  trans _ _ _ h h' := fun row mem => by
    rcases h' row mem with ⟨row₁, mem₁, same⟩ | new
    · rw [same]
      exact h row₁ mem₁
    · exact .inr new

/-! ### The programs of the orchestrator -/

lemma grows_of_queue (e : db'.queue.jobs = db.queue.jobs) : Grows P db db' := fun row mem =>
  .inl ⟨row, e ▸ mem, rfl⟩

/-- The new rows are those that the moves create. -/
lemma grows_of_path {ok : Db → Label → Prop} (p : Path (Move cfg) ok db db')
    (born : ∀ db l, ok db l → ∀ row ∈ l.born, P row.toJobIdentity) : Grows P db db' :=
  p.invariant (I := Grows P db) (refl_of (Grows P) db) fun _ _ _ h m hl =>
    trans_of (Grows P) h fun row mem => (m.of_mem mem).imp_right (born _ _ hl row)

/-- The replacement of a row leaves the jobs as they are. -/
lemma grows_replace {id : UUID} {f : InteractionJob → InteractionJob}
    (same : ∀ job, (f job).toJobIdentity = job.toJobIdentity)
    (e : db'.queue.jobs = db.queue.jobs.modify id f (fun job => congrArg JobIdentity.id (same job))
      fun job => congrArg JobIdentity.idempotencyKey (same job)) : Grows P db db' := by
  intro row mem
  rw [e] at mem
  obtain ⟨row₀, mem₀, rfl⟩ := Table.mem_modify.1 mem
  refine .inl ⟨row₀, mem₀, ?_⟩
  split
  · exact same row₀
  · rfl

/-- A change outside the rows of the queue. -/
lemma grows_modify {f : Db → Db} (h : ∀ db, (f db).queue.jobs = db.queue.jobs) :
    Within (Grows P) (modify f : Tx PUnit) := .modify fun db => grows_of_queue (h db)

/-- An event is no row of the queue. -/
lemma grows_emit {job : InteractionJob} {stage status message : String} {code : Option String} :
    Within (Grows P) (Tx.emit job stage status message code) := grows_modify fun _ => rfl

lemma grows_interrupt {fault : Option PyError} : Within (Grows P) (Tx.interrupt fault) := by
  cases fault with
  | none => exact .pure
  | some e => exact .throw

/-- A job is created, or was there already. -/
lemma grows_createIfAbsent {new : NewJob} (h : P (new.row cfg).toJobIdentity) :
    Within (Grows P) (Tx.createIfAbsent cfg new) := by
  have path : Within (Path (Move cfg) fun _ l => ∀ row ∈ l.born, P row.toJobIdentity)
      (Tx.createIfAbsent cfg new) := by
    refine within_createIfAbsent fun _ row born => ?_
    rw [List.mem_singleton.1 born]
    exact h
  exact path.mono fun _ _ p => grows_of_path p fun _ _ hl => hl

/-- A job that is completed is no new one. -/
lemma grows_markSucceeded {job : InteractionJob} {result : Dict} {tokensUsed : ℤ} {now : Time} :
    Within (Grows P) (Tx.markSucceeded job result tokensUsed now) :=
  .bind (.modify fun _ => grows_replace (fun _ => InteractionJob.markSucceeded_identity) rfl)
    fun _ => .pure

lemma grows_handle {clock : Clock} {job : InteractionJob} {failure : Failure} :
    Grows P db (db.handle cfg clock job failure) := by
  have queue := @Db.handle_queue cfg clock job failure db
  split at queue
  · exact grows_replace (fun _ => InteractionJob.defer_identity) (congrArg Queue.jobs queue)
  · exact grows_replace (fun _ => InteractionJob.deadLetter_identity) (congrArg Queue.jobs queue)

section Orchestrator

variable {roots : JobIdentity → Prop} {root : JobIdentity}

/-- A job of another type is no analysis. -/
lemma queues_of_type {job : JobIdentity} (h : job.jobType ≠ .llmAnalysis) :
    Queues cfg text roots job := fun type => absurd type h

/-- The two jobs that follow a result are no analyses. -/
lemma grows_queueResultJobs {births : ChildSlot → Birth} {payload result : Dict}
    {priority : JobPriority} {suffix : String} {fault : Option PyError} :
    Within (Grows (Queues cfg text roots))
      (Tx.queueResultJobs cfg text births root payload result priority suffix fault) := by
  refine .bind (grows_createIfAbsent (queues_of_type nofun)) fun _ => ?_
  refine .bind grows_interrupt fun _ => ?_
  exact .bind (grows_createIfAbsent (queues_of_type nofun)) fun _ => .pure

/-- The analysis is queued for the text that was classified. -/
lemma grows_queueAnalysis {run : JobRun} {job : InteractionJob} {transcriptText : Json}
    {c : Classification} (h : roots job.toJobIdentity)
    (classified : WorkflowOrchestrator.classification text job.payload = .ok (transcriptText, c))
    (long : ¬ c.skipLlm) :
    Within (Grows (Queues cfg text roots))
      (WorkflowOrchestrator.queueAnalysis cfg run job transcriptText c) := by
  refine .bind (grows_modify fun _ => rfl) fun _ => .bind grows_interrupt fun _ => ?_
  refine .bind_of .ofExcept fun _ tokenEstimate _ e => ?_
  obtain ⟨estimated, -⟩ := Program.ofExcept_run_ok.1 e
  refine Within.bind (R := Grows (Queues cfg text roots)) (grows_createIfAbsent fun _ => ?_)
    (fun _ => grows_emit) _
  exact ⟨job.toJobIdentity, h, transcriptText, c, rfl, classified, long, estimated, rfl⟩

/-- An orchestration queues an analysis of its own call. -/
lemma grows_createChildJobs {run : JobRun} {job : InteractionJob} (h : roots job.toJobIdentity) :
    Within (Grows (Queues cfg text roots))
      (WorkflowOrchestrator.createChildJobs cfg text run job) := by
  refine .bind_of .ofExcept fun s a s' e => ?_
  obtain ⟨transcriptText, c⟩ := a
  obtain ⟨classified, rfl⟩ := Program.ofExcept_run_ok.1 e
  refine Within.bind (R := Grows (Queues cfg text roots)) ?_ (fun _ => ?_) s'
  · unfold WorkflowOrchestrator.queueRecording
    split
    · refine .bind grows_interrupt fun _ => ?_
      exact .bind (grows_createIfAbsent (queues_of_type nofun)) fun _ => .pure
    · exact .pure
  refine .bind grows_interrupt fun _ => ?_
  simp only
  split
  case isTrue =>
    refine .bind ?_ fun _ => grows_interrupt
    refine .bind (grows_modify fun _ => rfl) fun _ => .bind grows_interrupt fun _ => ?_
    exact grows_queueResultJobs
  case isFalse long =>
    exact .bind (grows_queueAnalysis h classified long) fun _ => grows_interrupt

lemma grows_processJob {run : JobRun} {job : InteractionJob} (h : roots job.toJobIdentity) :
    Within (Grows (Queues cfg text roots))
      (WorkflowOrchestrator.processJob cfg text run job) := by
  refine .tryCatch ?_ fun e => ?_
  · refine .bind grows_emit fun _ => .bind (grows_createChildJobs h) fun _ => ?_
    exact .bind grows_markSucceeded fun _ => grows_emit
  · split
    · exact .throw
    · exact .modify fun _ => grows_handle

/-- The loop of the orchestrator queues analyses of the calls of its jobs. -/
lemma grows_processJobs {run : UUID → JobRun} {jobs : List InteractionJob}
    (h : ∀ job ∈ jobs, roots job.toJobIdentity) :
    Within (Grows (Queues cfg text roots))
      (WorkflowOrchestrator.processJobs cfg text run jobs) := by
  induction jobs with
  | nil => exact .pure
  | cons job jobs ih =>
    refine .bind (grows_processJob (h job List.mem_cons_self)) fun _ => ?_
    exact ih fun job mem => h job (List.mem_cons_of_mem _ mem)

end Orchestrator

/-! ### The actions of the system -/

/-- An orchestration job that has a row. -/
def RootIn (db : Db) (root : JobIdentity) : Prop :=
  root.jobType = .orchestrateInteraction ∧ ∃ row ∈ db.queue.jobs.rows, row.toJobIdentity = root

lemma grows_runOnce {workerId : String} {limit : ℕ} {recovery : RecoveryClock} {query : ClaimQuery}
    {run : UUID → JobRun} {u : Unit}
    (h : WorkflowOrchestrator.runOnce cfg text workerId limit recovery query run db = .ok u db') :
    Grows (Queues cfg text (RootIn db)) db db' := by
  rw [WorkflowOrchestrator.runOnce, Program.bind_of_ok recoverStaleRunningJobs_run,
    Program.bind_of_ok claimReadyJobs_run] at h
  have recovers : Path (Move cfg) (fun _ l => l.born = []) db (recovered cfg workerId recovery db) :=
    path_recover fun _ _ _ _ => rfl
  have claims : Path (Move cfg) (fun _ l => l.born = []) (recovered cfg workerId recovery db)
      (claimed workerId [.orchestrateInteraction] limit query (recovered cfg workerId recovery db)) :=
    path_claim fun _ _ _ => rfl
  refine trans_of (Grows _) (grows_of_path (recovers.trans claims) fun _ _ none row born => ?_)
    ((grows_processJobs fun job hj => ?_).of_ok h)
  · rw [none] at born
    cases born
  · obtain ⟨row, mem, same, _⟩ := claimable hj
    exact ⟨jobType_of_claimedJobs hj, row, mem, same⟩

lemma root_not_analysis {new : NewJob} (h : RootOf new) : (new.row cfg).jobType ≠ .llmAnalysis := by
  cases h <;> exact nofun

lemma result_not_analysis {analysis : JobIdentity} {payload result : Dict} {new : NewJob}
    (h : ResultOf text analysis payload result new) : (new.row cfg).jobType ≠ .llmAnalysis := by
  cases h <;> exact nofun

/-- No other action inserts an analysis. -/
lemma born_not_analysis {l : Label} (served : Served w a) (h : Allowed cfg text w a db l)
    (other : ∀ workerId limit recovery query run,
      a ≠ .orchestrate workerId limit recovery query run) :
    ∀ row ∈ l.born, row.jobType ≠ .llmAnalysis := by
  intro row born
  obtain ⟨new, rfl, inserted⟩ := inserted_of_born served h born
  cases inserted with
  | webhook root => exact root_not_analysis root
  | legacy root => exact root_not_analysis root
  | child => exact absurd rfl (other _ _ _ _ _)
  | result result => exact result_not_analysis result

/-- The new analyses of a step are those of orchestration jobs in the database. -/
lemma grows_step (sound : Sound w) (served : Served w a) :
    Grows (Queues cfg text (RootIn w.db)) w.db (World.step cfg text w a).db := by
  by_cases other : ∀ workerId limit recovery query run,
      a ≠ .orchestrate workerId limit recovery query run
  · exact grows_of_path (step_path cfg text sound a) fun _ _ allowed row born =>
      queues_of_type (born_not_analysis served allowed other row born)
  · simp only [not_forall, not_not] at other
    obtain ⟨workerId, limit, recovery, query, run, rfl⟩ := other
    simp only [World.step, World.transact, commit]
    cases e : WorkflowOrchestrator.runOnce cfg text workerId limit recovery query run w.db with
    | ok u db => exact grows_runOnce e
    | error => exact refl_of (Grows _) _

/-- Every analysis was queued for an orchestration job, after every run of the system. -/
theorem queued_of_run (run : Run (World.step cfg text) Served w₀ as w) (init : Initial w₀) :
    ∀ row ∈ w.db.queue.jobs.rows, Queues cfg text (RootIn w.db) row.toJobIdentity := by
  refine (run.invariant (I := fun w => Sound w ∧ ∀ row ∈ w.db.queue.jobs.rows,
    Queues cfg text (RootIn w.db) row.toJobIdentity) ?_ fun w a h served => ?_).2
  · refine ⟨sound_of_idle init.2, fun row mem => ?_⟩
    rw [init.1] at mem
    cases mem
  · obtain ⟨sound, queued⟩ := h
    refine ⟨sound_step sound, fun row mem type => ?_⟩
    -- the orchestration job keeps its row
    obtain ⟨root, ⟨rootType, row₀, mem₀, same₀⟩, of⟩ :
        ∃ root, RootIn w.db root ∧ ∃ transcriptText c,
          AnalysisOf cfg text root row.toJobIdentity transcriptText c := by
      rcases grows_step sound served row mem with ⟨row₁, mem₁, same⟩ | queues
      · rw [same] at type ⊢
        exact queued row₁ mem₁ type
      · exact queues type
    obtain ⟨row', mem', same'⟩ := Path.identity (step_path cfg text sound a) mem₀
    exact ⟨root, ⟨rootType, row', mem', same'.trans same₀⟩, of⟩

end PostCall.Machine
