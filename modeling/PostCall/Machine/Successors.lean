import PostCall.Machine.Transactions

/-!
# Successors

Which jobs the completion of a job calls for, and that the orchestrator and the LLM worker queue
them before the completion is committed. `Child` lists what the orchestrator may insert for a job,
`ResultOf` what the LLM worker inserts for an analysis; `successorKeys` are the idempotency keys that
must be present once the job has succeeded.
-/

namespace PostCall.Machine
open PostCall.Library PostCall.Python PostCall.Model

/-- A row with this idempotency key. -/
def Present (db : Db) (key : String) : Prop := ∃ row ∈ db.queue.jobs.rows, row.idempotencyKey = key

/-- What the orchestrator may queue for a job. -/
inductive Child (root : JobIdentity) : NewJob → Prop where
  | recording {birth priority maxAttempts} :
    hasCallSid root.payload →
    Child root (.child root birth .recordingFetch priority "recording:v1" root.payload 0 maxAttempts)
  | shortSignal {birth turns} :
    transcript root.payload = .ok turns →
    turns.length < 4 →
    Child root (.child root birth .signalJobs .high "signal:short_call:v1"
      (resultPayload root.payload (shortCallResult "short_call")))
  | shortLead {birth turns} :
    transcript root.payload = .ok turns →
    turns.length < 4 →
    Child root (.child root birth .leadStageUpdate .high "lead:short_call:v1"
      (resultPayload root.payload (shortCallResult "short_call")))
  | analysis {birth turns priority classification tokenEstimate} :
    transcript root.payload = .ok turns →
    ¬ turns.length < 4 →
    Child root (.child root birth .llmAnalysis priority "llm:v1"
      (llmPayload root.payload classification) tokenEstimate)

/-- What the LLM worker queues for an analysis with this result. -/
inductive ResultOf (text : Text) (analysis : JobIdentity) (payload result : Dict) :
    NewJob → Prop where
  | signal {birth} :
    ResultOf text analysis payload result (.child analysis birth .signalJobs analysis.priority
      ("signal:" ++ callStageText text result ++ ":v1") (resultPayload payload result))
  | lead {birth} :
    ResultOf text analysis payload result (.child analysis birth .leadStageUpdate analysis.priority
      ("lead:" ++ callStageText text result ++ ":v1") (resultPayload payload result))

/-- The keys of the two result jobs of an interaction for a call stage. -/
def resultKeys (interactionId : UUID) (stage : String) : List String :=
  [jobKey interactionId ("signal:" ++ stage ++ ":v1"), jobKey interactionId ("lead:" ++ stage ++ ":v1")]

/-- The keys of the jobs that must be queued when a job has succeeded with this result. -/
def successorKeys (text : Text) (job : JobIdentity) (result : Dict) : List String :=
  match job.jobType with
  | .orchestrateInteraction =>
    (if hasCallSid job.payload then [jobKey job.interactionId "recording:v1"] else []) ++
      match transcript job.payload with
      | .ok turns =>
        if turns.length < 4 then resultKeys job.interactionId "short_call"
        else [jobKey job.interactionId "llm:v1"]
      | .error _ => []
  | .llmAnalysis => resultKeys job.interactionId (callStageText text result)
  | _ => []

/-- The stage of a short call is the one that it was given. -/
lemma callStageText_shortCall {text : Text} {stage : String} :
    callStageText text (shortCallResult stage) = stage := rfl

lemma classification_ok {text : Text} {payload : Dict} {transcriptText : Json} {c : Classification}
    (h : WorkflowOrchestrator.classification text payload = .ok (transcriptText, c)) :
    ∃ turns, transcript payload = .ok turns ∧
      WorkflowOrchestrator.transcriptTextOf text payload turns = .ok transcriptText ∧
      classify text turns transcriptText (orElse (payload.get? "additional_data") (.dict [])) = .ok c := by
  obtain ⟨turns, hturns, h⟩ := Program.except_ok.1 h
  obtain ⟨given, htext, h⟩ := Program.except_ok.1 h
  obtain ⟨c', hc, h⟩ := Program.except_ok.1 h
  cases h
  exact ⟨turns, hturns, htext, hc⟩

/-- Calls of fewer than four turns are the short ones. -/
lemma of_classification {text : Text} {payload : Dict} {transcriptText : Json} {c : Classification}
    (h : WorkflowOrchestrator.classification text payload = .ok (transcriptText, c)) :
    ∃ turns, transcript payload = .ok turns ∧ (c.skipLlm ↔ turns.length < 4) ∧
      (c.skipLlm → c.callStage = "short_call") := by
  obtain ⟨turns, hturns, _, hc⟩ := classification_ok h
  exact ⟨turns, hturns, skipLlm_iff hc, callStage_of_short hc⟩

section Orchestrator

variable {cfg : Settings} {text : Text} {ok : Db → Label → Prop} {db db' : Db}

lemma within_queueResultJobs {births : ChildSlot → Birth} {job : JobIdentity}
    {payload result : Dict} {priority : JobPriority} {suffix : String} {fault : Option PyError}
    (signal : ∀ db, ok db (.create ((NewJob.child job (births .signal) .signalJobs priority
      ("signal:" ++ suffix ++ ":v1") (resultPayload payload result)).row cfg)))
    (lead : ∀ db, ok db (.create ((NewJob.child job (births .lead) .leadStageUpdate priority
      ("lead:" ++ callStageText text result ++ ":v1") (resultPayload payload result)).row cfg))) :
    Within (Path (Move cfg) ok)
      (Tx.queueResultJobs cfg text births job payload result priority suffix fault) := by
  refine .bind (within_createIfAbsent signal) fun _ => ?_
  refine .bind within_interrupt fun _ => ?_
  exact .bind (within_createIfAbsent lead) fun _ => .pure

lemma queueResultJobs_keys {births : ChildSlot → Birth} {job : JobIdentity} {payload result : Dict}
    {priority : JobPriority} {suffix : String} {fault : Option PyError}
    (h : Tx.queueResultJobs cfg text births job payload result priority suffix fault db =
      .ok ⟨⟩ db') :
    Present db' (jobKey job.interactionId ("signal:" ++ suffix ++ ":v1")) ∧
      Present db' (jobKey job.interactionId ("lead:" ++ callStageText text result ++ ":v1")) := by
  obtain ⟨_, s₁, h₁, h⟩ := Program.bind_ok.1 h
  obtain ⟨_, s₂, h₂, h⟩ := Program.bind_ok.1 h
  obtain ⟨_, s₃, h₃, h⟩ := Program.bind_ok.1 h
  cases h
  have signal := createIfAbsent_key h₁
  have p₂ : Path (Move cfg) anyStep s₁ s₂ := within_interrupt.of_ok h₂
  have p₃ : Path (Move cfg) anyStep s₂ db' := (within_createIfAbsent fun _ => trivial).of_ok h₃
  exact ⟨Path.key (p₂.trans p₃) signal, createIfAbsent_key h₃⟩

/-- What the orchestrator may do to the tables while it creates the children of a job. -/
def childMoves (cfg : Settings) (root : JobIdentity) : Db → Label → Prop
  | _, .aside => True
  | _, .create row => ∃ new, row = new.row cfg ∧ Child root new
  | _, _ => False

/-- `_create_child_jobs` inserts children of its job and does nothing else to the queue. -/
theorem within_createChildJobs {run : JobRun} {job : InteractionJob} :
    Within (Path (Move cfg) (childMoves cfg job.toJobIdentity))
      (WorkflowOrchestrator.createChildJobs cfg text run job) := by
  have aside : ∀ db, childMoves cfg job.toJobIdentity db .aside := fun _ => trivial
  refine .bind_of .ofExcept fun s a s' h => ?_
  obtain ⟨transcriptText, c⟩ := a
  obtain ⟨e, rfl⟩ := Program.ofExcept_run_ok.1 h
  obtain ⟨turns, hturns, skip, stage⟩ := of_classification e
  refine Within.bind (R := Path (Move cfg) (childMoves cfg job.toJobIdentity)) ?_ (fun _ => ?_) s'
  · -- the recording
    unfold WorkflowOrchestrator.queueRecording
    split
    case isTrue sid =>
      refine .bind within_interrupt fun _ => ?_
      exact .bind (within_createIfAbsent fun _ => ⟨_, rfl, .recording sid⟩) fun _ => .pure
    case isFalse => exact .pure
  refine .bind within_interrupt fun _ => ?_
  simp only
  split
  case isTrue short =>
    have few := skip.1 short
    refine .bind ?_ fun _ => within_interrupt
    refine .bind (within_aside (fun _ => .updateInteraction fun _ => rfl) aside) fun _ => ?_
    refine .bind within_interrupt fun _ => ?_
    rw [stage short]
    exact within_queueResultJobs (fun _ => ⟨_, rfl, .shortSignal hturns few⟩)
      fun _ => ⟨_, rfl, .shortLead hturns few⟩
  case isFalse long =>
    have many : ¬ turns.length < 4 := fun few => long (skip.2 few)
    refine .bind ?_ fun _ => within_interrupt
    refine .bind (within_aside (fun _ => .updateInteraction fun _ => rfl) aside) fun _ => ?_
    refine .bind within_interrupt fun _ => ?_
    refine .bind .ofExcept fun _ => ?_
    refine .bind (within_createIfAbsent fun _ => ⟨_, rfl, .analysis hturns many⟩) fun _ => ?_
    exact within_emit (by decide) aside

/-- With a call id, the recording job is there. -/
lemma queueRecording_key {run : JobRun} {job : JobIdentity} {c : Classification}
    (h : WorkflowOrchestrator.queueRecording cfg run job c db = .ok ⟨⟩ db')
    (sid : hasCallSid job.payload) : Present db' (jobKey job.interactionId "recording:v1") := by
  unfold WorkflowOrchestrator.queueRecording at h
  rw [if_pos sid] at h
  obtain ⟨_, s₁, _, h⟩ := Program.bind_ok.1 h
  obtain ⟨_, s₂, created, h⟩ := Program.bind_ok.1 h
  cases h
  exact createIfAbsent_key created

lemma queueAnalysis_key {run : JobRun} {job : InteractionJob} {given : Json} {c : Classification}
    (h : WorkflowOrchestrator.queueAnalysis cfg run job given c db = .ok ⟨⟩ db') :
    Present db' (jobKey job.interactionId "llm:v1") := by
  obtain ⟨_, s₁, _, h⟩ := Program.bind_ok.1 h
  obtain ⟨_, s₂, _, h⟩ := Program.bind_ok.1 h
  obtain ⟨_, s₃, _, h⟩ := Program.bind_ok.1 h
  obtain ⟨_, s₄, created, h⟩ := Program.bind_ok.1 h
  cases h
  exact createIfAbsent_key created

/-- The keys of a short call are present after its result jobs were queued. -/
lemma queueShortCall_keys {run : JobRun} {job : JobIdentity} {c : Classification}
    (stage : c.callStage = "short_call")
    (h : WorkflowOrchestrator.queueShortCall cfg text run job c db = .ok ⟨⟩ db') :
    ∀ key ∈ resultKeys job.interactionId "short_call", Present db' key := by
  obtain ⟨_, s₁, _, h⟩ := Program.bind_ok.1 h
  obtain ⟨_, s₂, _, h⟩ := Program.bind_ok.1 h
  obtain ⟨signal, lead⟩ := queueResultJobs_keys h
  rw [callStageText_shortCall, stage] at lead
  simpa [resultKeys] using ⟨signal, lead⟩

/-- After `_create_child_jobs` returned, the payload has a transcript, and every successor of the job
is present. -/
theorem createChildJobs_keys {run : JobRun} {job : InteractionJob} {result : Dict}
    (type : job.jobType = .orchestrateInteraction)
    (h : WorkflowOrchestrator.createChildJobs cfg text run job db = .ok ⟨⟩ db') :
    (∃ turns, transcript job.payload = .ok turns) ∧
      ∀ key ∈ successorKeys text job.toJobIdentity result, Present db' key := by
  obtain ⟨⟨given, c⟩, s₁, h₁, rest⟩ := Program.bind_ok.1 h
  obtain ⟨e, -⟩ := Program.ofExcept_run_ok.1 h₁
  obtain ⟨turns, hturns, skip, stage⟩ := of_classification e
  obtain ⟨_, s₂, h₂, rest⟩ := Program.bind_ok.1 rest
  obtain ⟨_, s₃, h₃, rest⟩ := Program.bind_ok.1 rest
  have p₃ : Path (Move cfg) anyStep s₂ s₃ := within_interrupt.of_ok h₃
  -- either branch leaves its keys present, and nothing takes a row away afterwards
  obtain ⟨s₄, p₄, branch, p₅⟩ : ∃ s₄, Path (Move cfg) anyStep s₃ s₄ ∧
      (∀ key ∈ (if turns.length < 4 then resultKeys job.interactionId "short_call"
        else [jobKey job.interactionId "llm:v1"]), Present s₄ key) ∧
      Path (Move cfg) anyStep s₄ db' := by
    simp only at rest
    split at rest
    case isTrue short =>
      obtain ⟨_, s₄, h₄, h₅⟩ := Program.bind_ok.1 rest
      have p₄ : Path (Move cfg) anyStep s₃ s₄ := by
        refine Within.of_ok ?_ h₄
        refine .bind (within_aside (fun _ => .updateInteraction fun _ => rfl) fun _ => trivial)
          fun _ => ?_
        exact .bind within_interrupt fun _ =>
          within_queueResultJobs (fun _ => trivial) fun _ => trivial
      rw [if_pos (skip.1 short)]
      exact ⟨s₄, p₄, queueShortCall_keys (stage short) h₄, within_interrupt.of_ok h₅⟩
    case isFalse long =>
      obtain ⟨_, s₄, h₄, h₅⟩ := Program.bind_ok.1 rest
      have p₄ : Path (Move cfg) anyStep s₃ s₄ := by
        refine Within.of_ok ?_ h₄
        refine .bind (within_aside (fun _ => .updateInteraction fun _ => rfl) fun _ => trivial)
          fun _ => ?_
        refine .bind within_interrupt fun _ => .bind .ofExcept fun _ => ?_
        exact .bind (within_createIfAbsent fun _ => trivial) fun _ =>
          within_emit (by decide) fun _ => trivial
      rw [if_neg fun few => long (skip.2 few)]
      refine ⟨s₄, p₄, fun key hk => ?_, within_interrupt.of_ok h₅⟩
      rw [List.mem_singleton.1 hk]
      exact queueAnalysis_key h₄
  refine ⟨⟨turns, hturns⟩, fun key hk => ?_⟩
  simp only [successorKeys, type, hturns, List.mem_append] at hk
  rcases hk with hk | hk
  · split at hk
    case isTrue sid =>
      rw [List.mem_singleton.1 hk]
      exact Path.key (p₃.trans (p₄.trans p₅)) (queueRecording_key h₂ sid)
    case isFalse => cases hk
  · exact Path.key p₅ (branch key hk)

/-- What the orchestrator may do to the tables while it processes a job. -/
def processMoves (cfg : Settings) (text : Text) (root : JobIdentity) : Db → Label → Prop
  | _, .aside => True
  | _, .create row => ∃ new, row = new.row cfg ∧ Child root new
  | db, .succeed job result _ _ children =>
    job.toJobIdentity = root ∧ children = [] ∧ (∃ turns, transcript root.payload = .ok turns) ∧
      ∀ key ∈ successorKeys text root result, Present db key
  | _, .fail job failure _ =>
    job.toJobIdentity = root ∧ job.status = .running ∧ failure.retryable
  | _, _ => False

/-- What makes the children is part of the processing. -/
lemma childMoves_le {root : JobIdentity} {l : Label} (h : childMoves cfg root db l) :
    processMoves cfg text root db l := by
  cases l with
  | aside => trivial
  | create => exact h
  | _ => cases h

/-- The moves of `_create_child_jobs` leave the rows of all jobs alone. -/
lemma mem_of_childMoves {root : JobIdentity} (p : Path (Move cfg) (childMoves cfg root) db db')
    {row : InteractionJob} (h : row ∈ db.queue.jobs.rows) : row ∈ db'.queue.jobs.rows := by
  refine Path.mem_of_ne p h fun _ l job hl e => ?_
  cases l with
  | aside => cases e
  | create => cases e
  | _ => cases hl

/-- `_process_job` on a running job: its children, and then its completion or its failure. -/
theorem path_processJob {run : JobRun} {job : InteractionJob}
    (type : job.jobType = .orchestrateInteraction) (running : job.status = .running)
    (mem : job ∈ db.queue.jobs.rows) :
    Path (Move cfg) (processMoves cfg text job.toJobIdentity) db
      (finalState (WorkflowOrchestrator.processJob cfg text run job db)) := by
  have aside : ∀ db, childMoves cfg job.toJobIdentity db .aside := fun _ => trivial
  have started : Path (Move cfg) (childMoves cfg job.toJobIdentity) db
      (db.emit job "orchestrator" "running" "workflow_orchestration_started") :=
    (Aside.emit (by decide)).path aside
  have children : Within (Path (Move cfg) (childMoves cfg job.toJobIdentity))
      (WorkflowOrchestrator.createChildJobs cfg text run job) := within_createChildJobs
  unfold WorkflowOrchestrator.processJob
  rw [Program.tryCatch_run]
  cases tried : WorkflowOrchestrator.orchestrate cfg text run job db with
  | ok a s =>
    obtain ⟨_, s₁, h₁, rest⟩ := Program.bind_ok.1 tried
    cases h₁
    obtain ⟨_, s₂, h₂, rest⟩ := Program.bind_ok.1 rest
    have p₂ := started.trans (children.of_ok h₂)
    obtain ⟨job', s₃, h₃, rest⟩ := Program.bind_ok.1 rest
    cases h₃
    cases rest
    have m : Move cfg s₂ (.succeed job
        [("orchestrated_at", .str (text.isoformat (run.clock 0)))] 0 (run.clock 1) []) _ :=
      .succeed (mem_of_childMoves p₂ mem) running (fun _ h => nomatch h) rfl
    refine ((p₂.mono fun _ _ => childMoves_le).trans (.single m ?_)).trans
      ((Aside.emit (by decide)).path fun _ => trivial)
    exact ⟨rfl, rfl, createChildJobs_keys type h₂⟩
  | error e s =>
    have p : Path (Move cfg) (childMoves cfg job.toJobIdentity) db s := by
      rcases Program.bind_error.1 tried with h₁ | ⟨_, s₁, h₁, rest⟩
      · cases h₁
      cases h₁
      rcases Program.bind_error.1 rest with h₂ | ⟨_, s₂, _, rest⟩
      · exact started.trans (children.of_error h₂)
      -- the completion itself cannot raise
      rcases Program.bind_error.1 rest with h₃ | ⟨_, s₃, _, rest⟩
      · cases h₃
      · cases rest
    have p' : Path (Move cfg) (processMoves cfg text job.toJobIdentity) db s :=
      p.mono fun _ _ => childMoves_le
    simp only
    split
    · exact p'
    · exact p'.trans (.single (.fail (mem_of_childMoves p mem)) ⟨rfl, running, rfl⟩)

/-- What the orchestrator may do to the tables in one run over these jobs. -/
def runMoves (cfg : Settings) (text : Text) (jobs : List InteractionJob) (db : Db) (l : Label) :
    Prop :=
  l = .aside ∨ ∃ job ∈ jobs, processMoves cfg text job.toJobIdentity db l

/-- The loop of `run_once` on running jobs. -/
theorem path_processJobs {run : UUID → JobRun} {jobs : List InteractionJob}
    (nodup : (jobs.map (·.id)).Nodup)
    (claimed : ∀ job ∈ jobs, job.jobType = .orchestrateInteraction ∧ job.status = .running ∧
      job ∈ db.queue.jobs.rows) :
    Path (Move cfg) (runMoves cfg text jobs) db
      (finalState (WorkflowOrchestrator.processJobs cfg text run jobs db)) := by
  induction jobs generalizing db with
  | nil => exact .refl
  | cons job jobs ih =>
    simp only [List.map_cons, List.nodup_cons, List.mem_map, not_exists, not_and] at nodup
    obtain ⟨type, running, mem⟩ := claimed job List.mem_cons_self
    have p : Path (Move cfg) (processMoves cfg text job.toJobIdentity) db
        (finalState (WorkflowOrchestrator.processJob cfg text (run job.id) job db)) :=
      path_processJob type running mem
    have p' : Path (Move cfg) (runMoves cfg text (job :: jobs)) db _ :=
      p.mono fun _ _ h => .inr ⟨job, List.mem_cons_self, h⟩
    unfold WorkflowOrchestrator.processJobs
    rw [Program.bind_run]
    cases processed : WorkflowOrchestrator.processJob cfg text (run job.id) job db with
    -- the handler of the first job raised, and the run ends there
    | error e s =>
      rw [processed] at p'
      exact p'
    | ok a s =>
      rw [processed] at p p'
      refine p'.trans ((ih nodup.2 fun row h => ?_).mono fun _ _ h => ?_)
      · -- the moves of this pass are about its own job, so the later rows are as claimed
        obtain ⟨type, running, mem⟩ := claimed row (List.mem_cons_of_mem _ h)
        refine ⟨type, running, Path.mem_of_ne p mem fun _ l job' hl e => ?_⟩
        have same : job'.id = job.id := by
          cases l with
          | succeed => cases e; exact congrArg JobIdentity.id hl.1
          | fail => cases e; exact congrArg JobIdentity.id hl.1
          | aside => cases e
          | create => cases e
          | _ => cases hl
        exact fun e => nodup.1 row h (e.trans same)
      · rcases h with h | ⟨row, h, hl⟩
        · exact .inl h
        · exact .inr ⟨row, List.mem_cons_of_mem _ h, hl⟩

end Orchestrator

end PostCall.Machine
