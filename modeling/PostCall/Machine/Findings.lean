import PostCall.Machine.Keys
import PostCall.Machine.Notes

/-!
# Findings

What a worker found out about a call is the result of its job, and is written into the interaction
as well. `Found` says that a job of the interaction has ever completed, and with which result last. A
step of the system remarks something about interactions and completes neither a recording nor an
analysis, or it completes one such job and writes its finding into the interaction: `stepFinds_step`.
-/

namespace PostCall.Machine
open PostCall.Library PostCall.Python PostCall.Model LLMWorkerService

variable {cfg : Settings} {text : Text} {w : World} {a : Action} {db db' : Db} {l : Label}
  {type : JobType} {id : UUID} {result : Dict} {job : InteractionJob} {ok : UUID → Note → Prop}

/-- A job of this type of the interaction has ever completed, and has this result. -/
def Found (db : Db) (type : JobType) (id : UUID) (result : Dict) : Prop :=
  ∃ row ∈ db.queue.jobs.rows, row.jobType = type ∧ row.interactionId = id ∧
    .succeeded row.id ∈ db.queue.history ∧ row.result = result

/-- The history is about jobs in the table. -/
def Filed (db : Db) : Prop := ∀ e ∈ db.queue.history, ∃ row ∈ db.queue.jobs.rows, row.id = e.job

/-- The move completes a job of this type of the interaction. -/
def Label.Completes (type : JobType) (id : UUID) : Label → Prop
  | .succeed job _ _ _ _ => job.jobType = type ∧ job.interactionId = id
  | _ => False

/-! ### what a move leaves of the findings -/

/-- A move keeps the results where they are filed. -/
lemma Filed.move (h : Filed db) (m : Move cfg db l db') : Filed db' := by
  intro e mem
  rw [m.effect.history, List.mem_append] at mem
  obtain ⟨row, rowMem, own⟩ : ∃ row ∈ db.queue.jobs.rows, row.id = e.job := by
    rcases mem with new | old
    · obtain ⟨job, about, own⟩ := Label.job_of_event new
      exact ⟨job, m.job_mem about, own.symm⟩
    · exact h e old
  obtain ⟨row', rowMem', same⟩ := m.identity rowMem
  exact ⟨row', rowMem', (congrArg JobIdentity.id same).trans own⟩

/-- A move that does not complete the job leaves its result and its completions. -/
lemma of_after {row : InteractionJob} (about : l.job? = some job) (after : l.after? cfg = some row)
    (other : ¬ l.Completes job.jobType job.interactionId) :
    row.result = job.result ∧ .succeeded job.id ∉ l.events cfg := by
  cases l with
  | aside => cases about
  | create => cases about
  | succeed =>
    cases about
    exact absurd ⟨rfl, rfl⟩ other
  | fail _ failure clock =>
    cases about
    simp only [Label.after?, Label.events] at after ⊢
    cases next : failure.nextRunAt cfg (clock 0) job with
    | none =>
      rw [next] at after
      cases after
      exact ⟨rfl, by simp⟩
    | some runAfter =>
      rw [next] at after
      cases after
      exact ⟨rfl, by simp⟩
  | claim => cases about; cases after; exact ⟨rfl, by simp [Label.events]⟩
  | recover => cases about; cases after; exact ⟨rfl, by simp [Label.events]⟩
  | refuse => cases about; cases after; exact ⟨rfl, by simp [Label.events]⟩

/-- A move that completes no such job finds nothing new. -/
lemma found_of_move (known : Filed db) (m : Move cfg db l db') (other : ¬ l.Completes type id) :
    Found db' type id result ↔ Found db type id result := by
  constructor
  · rintro ⟨row, mem, rfl, rfl, succeeded, rfl⟩
    rw [m.effect.history, List.mem_append] at succeeded
    rcases (m.effect.rows row).1 mem with ⟨mem, ne⟩ | born | after
    · refine ⟨row, mem, rfl, rfl, succeeded.resolve_left fun new => ?_, rfl⟩
      obtain ⟨job, about, own⟩ := Label.job_of_event new
      exact ne job about own
    · -- nothing has happened to a job that was not there
      have fresh := m.effect.fresh row born
      obtain ⟨row₀, mem₀, own⟩ : ∃ row₀ ∈ db.queue.jobs.rows, row₀.id = row.id := by
        rcases succeeded with new | old
        · obtain ⟨job, about, own⟩ := Label.job_of_event new
          exact ⟨job, m.job_mem about, own.symm⟩
        · exact known _ old
      rw [← own, Queue.get?_of_mem mem₀] at fresh
      cases fresh
    · obtain ⟨job, about⟩ := Move.job_of_after after
      have same := Move.identity_after after about
      obtain ⟨results, silent⟩ := of_after about after (by
        rwa [← congrArg JobIdentity.jobType same, ← congrArg JobIdentity.interactionId same])
      have own : row.id = job.id := congrArg JobIdentity.id same
      exact ⟨job, m.job_mem about, (congrArg JobIdentity.jobType same).symm,
        (congrArg JobIdentity.interactionId same).symm,
        own ▸ succeeded.resolve_left fun new => silent (own ▸ new), results.symm⟩
  · rintro ⟨row, mem, rfl, rfl, succeeded, rfl⟩
    have old : .succeeded row.id ∈ db'.queue.history := by
      rw [m.effect.history]
      exact List.mem_append_right _ succeeded
    by_cases about : ∃ job, l.job? = some job ∧ row.id = job.id
    · obtain ⟨job, about, own⟩ := about
      obtain rfl := Table.eq_of_key mem (m.job_mem about) own
      obtain ⟨row', after⟩ := Move.after_of_job cfg about
      have same := Move.identity_after after about
      obtain ⟨results, _⟩ := of_after about after other
      exact ⟨row', (m.effect.rows row').2 (.inr (.inr after)), congrArg JobIdentity.jobType same,
        congrArg JobIdentity.interactionId same, congrArg JobIdentity.id same ▸ old, results⟩
    · exact ⟨row, m.mem_of_ne mem fun job e own => about ⟨job, e, own⟩, rfl, rfl, old, rfl⟩

/-- The types of the jobs that find out something about a call. -/
def Finds (type : JobType) : Prop := type = .recordingFetch ∨ type = .llmAnalysis

/-- What was found out is as before. -/
def SameFindings (db db' : Db) : Prop :=
  Filed db → Filed db' ∧ ∀ type id result, Finds type →
    (Found db' type id result ↔ Found db type id result)

instance : IsPreorder Db SameFindings where
  refl _ filed := ⟨filed, fun _ _ _ _ => .rfl⟩
  trans _ _ _ h h' filed := by
    obtain ⟨filed, same⟩ := h filed
    obtain ⟨filed, same'⟩ := h' filed
    exact ⟨filed, fun type id result finds =>
      (same' type id result finds).trans (same type id result finds)⟩

/-- Moves that complete no job that finds something. -/
lemma sameFindings_of_path {ok : Db → Label → Prop} (p : Path (Move cfg) ok db db')
    (other : ∀ db l type id, ok db l → Finds type → ¬ l.Completes type id) :
    SameFindings db db' := by
  refine p.invariant (I := SameFindings db) (refl_of SameFindings db) fun s l s' h m permitted => ?_
  exact trans_of SameFindings h fun filed => ⟨filed.move m, fun type id result finds =>
    found_of_move filed m (other s l type id permitted finds)⟩

/-! ### The completion of a job -/

/-- The job is completed with this result, with changes aside before and after. -/
def Completion (cfg : Settings) (job : InteractionJob) (result : Dict) (db db' : Db) : Prop :=
  ∃ s s' tokensUsed now children, Aside db s ∧
    Move cfg s (.succeed job result tokensUsed now children) s' ∧ Aside s' db'

lemma found_of_aside (h : Aside db db') : Found db' type id result ↔ Found db type id result := by
  unfold Found
  rw [h.queue]

lemma Filed.aside (h : Filed db) (aside : Aside db db') : Filed db' := by
  unfold Filed
  rw [aside.queue]
  exact h

namespace Completion

/-- The job has been found out about. -/
lemma found (h : Completion cfg job result db db') :
    Found db' job.jobType job.interactionId result := by
  obtain ⟨s, s', tokensUsed, now, children, before, m, after⟩ := h
  refine (found_of_aside after).2 ⟨job.markSucceeded result tokensUsed now,
    (m.effect.rows _).2 (.inr (.inr rfl)), rfl, rfl, ?_, rfl⟩
  rw [m.effect.history]
  exact List.mem_append_left _ List.mem_cons_self

lemma filed (h : Completion cfg job result db db') (filed : Filed db) : Filed db' := by
  obtain ⟨s, s', tokensUsed, now, children, before, m, after⟩ := h
  exact ((filed.aside before).move m).aside after

/-- Nothing else was found out. -/
lemma other {result' : Dict} (h : Completion cfg job result db db') (filed : Filed db)
    (other : ¬ (job.jobType = type ∧ job.interactionId = id)) :
    Found db' type id result' ↔ Found db type id result' := by
  obtain ⟨s, s', tokensUsed, now, children, before, m, after⟩ := h
  rw [found_of_aside after, found_of_move (filed.aside before) m other, found_of_aside before]

end Completion

/-- The interactions are as before. -/
def SameInteractions (db db' : Db) : Prop := db'.interactions = db.interactions

instance : IsPreorder Db SameInteractions where
  refl _ := rfl
  trans _ _ _ h h' := h'.trans h

/-- A program that writes nothing into interactions. -/
lemma sameInteractions_of_notes {α : Type} {x : Tx α}
    (h : Within (Notes fun _ _ => False) x) : Within SameInteractions x :=
  h.mono fun _ _ notes => Path.invariant notes (I := fun t => t = _) rfl fun _ _ _ _ _ h => h.elim

/-- An analysis that succeeds is completed with what the provider returned, which is written into
the interaction. -/
lemma completion_of_succeed {births : ChildSlot → Birth} {clock : Clock} {snapshot : ClaimedLLMJob}
    {result : AnalysisResult} {u : Unit} (mem : job ∈ db.queue.jobs.rows)
    (running : job.status = .running)
    (h : succeed cfg text births clock snapshot result job db = .ok u db') :
    Completion cfg job result.rawResponse db db' ∧ db'.interactions =
      noted db.interactions snapshot.interactionId (.analysisResult text result (clock 0)) := by
  obtain ⟨tokensUsed, s₁, recorded, h⟩ := Program.bind_ok.1 h
  have before := aside_recordAnalysis.of_ok recorded
  have written : s₁.interactions =
      noted db.interactions snapshot.interactionId (.analysisResult text result (clock 0)) := by
    rw [recordAnalysis, Program.bind_of_ok Program.modify_run] at recorded
    refine (sameInteractions_of_notes ?_).of_ok recorded
    refine .bind .ofExcept fun _ => .bind .ofExcept fun _ => .bind .get fun _ => ?_
    refine .bind .ofExcept fun _ => .bind (.modify fun _ => .of_same rfl) fun _ => ?_
    split
    · exact .pure
    · exact .throw
  obtain ⟨job', s₂, completed, h⟩ := Program.bind_ok.1 h
  cases completed
  obtain ⟨_, s₃, queued, h⟩ := Program.bind_ok.1 h
  have queues : Within SameInteractions (Tx.queueResultJobs cfg text births job.toJobIdentity
      snapshot.payload result.rawResponse job.priority (callStageText text result.rawResponse)) :=
    sameInteractions_of_notes notes_queueResultJobs
  have kept := queues.of_ok queued
  obtain ⟨children, m, _⟩ :=
    Move.of_inserts (before.queue ▸ mem) running (inserts_queueResultJobs queued)
  split at h
  case isTrue => cases h
  case isFalse =>
    cases h
    refine ⟨⟨s₁, s₃, tokensUsed.trunc, clock 2, children, before, m, ?_⟩, kept.trans written⟩
    exact .emit (by decide)

/-- A recording that was fetched is completed, and its key is written into the interaction. -/
lemma completion_of_completeRecording {clock : Clock} {snapshot : ClaimedRecordingJob}
    {result : RecordingResult} {u : Unit} (mem : job ∈ db.queue.jobs.rows)
    (own : snapshot.id = job.id)
    (h : RecordingWorkerService.complete clock snapshot result db = .ok u db') :
    db' = db ∨ (∃ answer, Completion cfg job answer db db') ∧
      db'.interactions = noted db.interactions snapshot.interactionId (.recorded result.s3Key) := by
  rw [RecordingWorkerService.complete, Program.bind_of_ok Program.get_run, own,
    Queue.get?_of_mem mem] at h
  simp only at h
  split at h
  case isFalse =>
    cases h
    exact .inl rfl
  case isTrue running =>
    rw [Program.bind_of_ok Program.modify_run] at h
    cases h
    have before : Aside db (db.updateRecordingKey snapshot.interactionId result.s3Key) :=
      .updateInteraction fun _ => rfl
    exact .inr ⟨⟨_, _, _, 0, clock 0, [], before, .succeed mem running (fun _ h => by cases h) rfl,
      .emit (by decide)⟩, rfl⟩

/-- An analysis is what is read from the answer that it keeps. -/
lemma parse_of_processPostCall {outcome : ProviderOutcome} {result : AnalysisResult}
    (h : processPostCall cfg outcome = .ok result) :
    parseResponse cfg result.rawResponse = .ok result := by
  cases outcome with
  | returns response =>
    simp only [processPostCall] at h
    split at h
    case h_2 => cases h
    case h_1 parsed =>
      cases h
      obtain ⟨usage, read, built⟩ := Program.except_ok.1 parsed
      cases built
      exact parsed
  | rateLimited => cases h
  | raises => cases h

/-- The storage names the object after the interaction. -/
lemma s3Key_of_poll {snapshot : ClaimedRecordingJob} {answer : ExotelAnswer}
    {result : RecordingResult} (h : RecordingWorkerService.poll text snapshot answer = .ok result) :
    result.s3Key = "recordings/" ++ snapshot.interactionId.str ++ ".mp3" := by
  unfold RecordingWorkerService.poll RecordingService.pollOnce at h
  simp only at h
  split at h
  case isTrue => cases h
  case isFalse =>
    obtain ⟨recordingUrl, _, h⟩ := Program.except_ok.1 h
    cases h
    rfl

/-! ### What a step finds -/

/-- What is written into an interaction that tells of no finding. -/
inductive Remark (text : Text) (w : World) : Action → UUID → Note → Prop where
  | ended {request} :
    Remark text w (.endInteraction request) request.interactionId
      (.ended request.endedAt request.durationSeconds request.callSid)
  | erred {a : Action} {id entry} :
    Remark text w a id (.erred entry)
  | classified {workerId limit recovery query run} {root : InteractionJob} {transcriptText c} :
    root ∈ w.db.queue.jobs.rows →
    root.jobType = .orchestrateInteraction →
    WorkflowOrchestrator.classification text root.payload = .ok (transcriptText, c) →
    Remark text w (.orchestrate workerId limit recovery query run) root.interactionId
      (classifiedNote c)

/-- What is written into the interaction of a job that was completed with this result. -/
inductive NoteOf (cfg : Settings) (text : Text) (job : InteractionJob) (result : Dict) :
    Note → Prop where
  | recording :
    job.jobType = .recordingFetch →
    NoteOf cfg text job result (.recorded ("recordings/" ++ job.interactionId.str ++ ".mp3"))
  | analysis {analysed now} :
    job.jobType = .llmAnalysis →
    parseResponse cfg result = .ok analysed →
    NoteOf cfg text job result (.analysisResult text analysed now)

/-- What a step finds: nothing, or what it completes a job with. -/
inductive StepFinds (cfg : Settings) (text : Text) (w : World) (a : Action) (db : Db) : Prop where
  | nothing :
    SameFindings w.db db →
    Notes (Remark text w a) w.db db →
    StepFinds cfg text w a db
  | finding {job result note} :
    job ∈ w.db.queue.jobs.rows →
    Completion cfg job result w.db db →
    NoteOf cfg text job result note →
    db.interactions = noted w.db.interactions job.interactionId note →
    StepFinds cfg text w a db

lemma StepFinds.refl : StepFinds cfg text w a w.db := .nothing (refl_of _ _) (refl_of _ _)

/-- Only the report of an execution completes a job that finds something. -/
lemma not_completes_of_allowed (h : Allowed cfg text w a db l) (finds : Finds type)
    (other : ∀ n outcome clock, a ≠ .report n outcome clock) : ¬ l.Completes type id := by
  cases h with
  | report => exact absurd rfl (other _ _ _)
  | orchestrated root =>
    rintro ⟨same, _⟩
    rcases finds with finds | finds <;> cases root.symm.trans (same.trans finds)
  | _ => exact fun completes => completes

/-- The notes of a transaction, whether it is committed or not. -/
lemma notes_transact {α : Type} {x : Tx α} (h : Within (Notes ok) x) :
    Notes ok db (World.transact db x) := by
  unfold World.transact commit
  cases e : x db with
  | ok a db' => exact h.of_ok e
  | error => exact .of_same rfl

lemma notes_claim {α : Type} {x : Tx (List α)} {work : α → Work} (h : Within (Notes ok) x) :
    Notes ok w.db (w.claim x work).db := by
  unfold World.claim commit
  cases e : x w.db with
  | ok a db' => exact h.of_ok e
  | error => exact .of_same rfl

/-- The jobs that are orchestrated have rows, with the payloads they are classified by. -/
lemma notes_runOnce {workerId : String} {limit : ℕ} {recovery : RecoveryClock} {query : ClaimQuery}
    {run : UUID → JobRun} {u : Unit}
    (h : WorkflowOrchestrator.runOnce cfg text workerId limit recovery query run w.db = .ok u db) :
    Notes (Remark text w (.orchestrate workerId limit recovery query run)) w.db db := by
  rw [WorkflowOrchestrator.runOnce, Program.bind_of_ok recoverStaleRunningJobs_run,
    Program.bind_of_ok claimReadyJobs_run] at h
  -- the recovery and the claim leave the interactions alone
  change Notes _ (claimed workerId [.orchestrateInteraction] limit query
    (recovered cfg workerId recovery w.db)) db
  refine (notes_processJobs (fun _ _ => .erred) fun job mem given c classified => ?_).of_ok h
  obtain ⟨row, rowMem, same, _⟩ := claimable mem
  have type : row.jobType = .orchestrateInteraction :=
    (congrArg JobIdentity.jobType same).trans (jobType_of_claimedJobs mem)
  rw [← congrArg JobIdentity.payload same] at classified
  rw [← congrArg JobIdentity.interactionId same]
  exact .classified rowMem type classified

lemma remarks_step (other : ∀ n outcome clock, a ≠ .report n outcome clock) :
    Notes (Remark text w a) w.db (World.step cfg text w a).db := by
  cases a with
  | createIfAbsent => exact notes_transact notes_createIfAbsent
  | recoverStaleRunningJobs => exact notes_transact notes_mapQueue
  | endInteraction request =>
    simp only [World.step, World.endInteraction, commit]
    cases e : endInteraction cfg text request w.db with
    | error => exact .of_same rfl
    | ok job db =>
      have first : Notes (Remark text w (.endInteraction request)) w.db db :=
        (notes_endInteraction .ended).of_ok e
      cases request.wakeup with
      | none => exact first
      | some raised =>
        exact trans_of (Notes _) first (notes_transact (.bind notes_interrupt fun _ => notes_emit))
  | legacyTask => exact notes_transact notes_persistLegacyPayload
  | orchestrate workerId limit recovery query run =>
    simp only [World.step, World.transact, commit]
    cases e : WorkflowOrchestrator.runOnce cfg text workerId limit recovery query run w.db with
    | ok u db => exact notes_runOnce e
    | error => exact .of_same rfl
  | claimAnalyses => exact notes_claim notes_claimAdmittedJobs
  | claimRecordings | claimResults =>
    exact notes_claim (.bind notes_claimReadyJobs fun _ => .pure)
  | processResult n fault =>
    simp only [World.step, World.processResult]
    split
    case h_2 => exact .of_same rfl
    case h_1 =>
      split
      case h_2 => exact .of_same rfl
      case h_1 returned => exact notes_processResult.of_ok returned
  | report n outcome clock => exact absurd rfl (other n outcome clock)
  | crash => exact .of_same rfl

/-- The end of an execution of a job that finds nothing, or that failed. -/
lemma finds_nothing {n : ℕ} {f : InFlight} {outcome : Outcome} {clock : Clock}
    {conclusion : Except Failure (Tx Unit)} (mem : job ∈ w.db.queue.jobs.rows)
    (of : WorkOf job.toJobIdentity f.work)
    (concludes : f.work.conclusion cfg text clock outcome = some conclusion)
    (returned : Tx.conclude cfg clock f.jobId conclusion w.db = .ok ⟨⟩ db)
    (idle : Finds job.jobType → ∃ failure, conclusion = .error failure)
    (notes : Within (Notes (Remark text w (.report n outcome clock)))
      (Tx.conclude cfg clock f.jobId conclusion)) :
    StepFinds cfg text w (.report n outcome clock) db := by
  refine .nothing (sameFindings_of_path (path_conclude mem of concludes returned)
    fun _ l type _ moves finds completes => ?_) (notes.of_ok returned)
  cases l with
  | succeed =>
    obtain ⟨rfl, _⟩ := moves.1
    obtain ⟨failure, failed⟩ := idle (completes.1 ▸ finds)
    cases moves.2 failure failed
  | _ => exact completes

lemma stepFinds_report {n : ℕ} {f : InFlight} {outcome : Outcome} {clock : Clock}
    {conclusion : Except Failure (Tx Unit)} (mem : job ∈ w.db.queue.jobs.rows)
    (of : WorkOf job.toJobIdentity f.work)
    (concludes : f.work.conclusion cfg text clock outcome = some conclusion)
    (returned : Tx.conclude cfg clock f.jobId conclusion w.db = .ok ⟨⟩ db) :
    StepFinds cfg text w (.report n outcome clock) db := by
  have failed : ∀ failure, conclusion = .error failure →
      StepFinds cfg text w (.report n outcome clock) db := by
    rintro failure rfl
    exact finds_nothing mem of concludes returned (fun _ => ⟨failure, rfl⟩)
      (notes_handleFailure fun _ _ => .erred)
  obtain ⟨work, claim⟩ := f
  cases concludes_of_conclusion concludes with
  | @analysed snapshot outcome births result answer =>
    cases of with
    | @analysis row same type =>
      have own : (snapshot row).id = job.id := congrArg JobIdentity.id same
      have interaction : (snapshot row).interactionId = job.interactionId :=
        congrArg JobIdentity.interactionId same
      change complete cfg text births clock _ result w.db = _ at returned
      rw [complete, Program.bind_of_ok Program.get_run, own, Queue.get?_of_mem mem] at returned
      simp only at returned
      split at returned
      case isFalse =>
        cases returned
        exact .refl
      case isTrue running =>
        obtain ⟨completion, written⟩ := completion_of_succeed mem running returned
        rw [interaction] at written
        refine .finding mem completion (.analysis type ?_) written
        exact parse_of_processPostCall answer
  | @fetched snapshot answer result polled =>
    cases of with
    | @recording row same type =>
      have own : (RecordingWorkerService.snapshot row).id = job.id := congrArg JobIdentity.id same
      have interaction : (RecordingWorkerService.snapshot row).interactionId = job.interactionId :=
        congrArg JobIdentity.interactionId same
      change RecordingWorkerService.complete clock _ result w.db = _ at returned
      rcases completion_of_completeRecording mem own returned with
        rfl | ⟨⟨answer, completion⟩, written⟩
      · exact .refl
      · rw [s3Key_of_poll polled, interaction] at written
        exact .finding mem completion (.recording type) written
  | processed =>
    refine finds_nothing mem of concludes returned (fun finds => ?_) notes_completeResult
    cases of with
    | processed _ type =>
      rcases finds with finds | finds <;> rcases type with type | type <;>
        cases type.symm.trans finds
  | unanalysed => exact failed _ rfl
  | unfetched => exact failed _ rfl
  | unprocessed => exact failed _ rfl

/-- A step finds nothing and remarks what it does, or completes a job and writes its finding
down. -/
theorem stepFinds_step (sound : Sound w) : StepFinds cfg text w a (World.step cfg text w a).db := by
  by_cases other : ∀ n outcome clock, a ≠ .report n outcome clock
  · exact .nothing (sameFindings_of_path (step_path cfg text sound a) fun _ _ _ _ allowed finds =>
      not_completes_of_allowed allowed finds other) (remarks_step other)
  · simp only [not_forall, not_not] at other
    obtain ⟨n, outcome, clock, rfl⟩ := other
    simp only [World.step, World.report]
    split
    case h_2 => exact .refl
    case h_1 f found =>
      split
      case h_2 => exact .refl
      case h_1 conclusion concludes =>
        obtain ⟨job, mem, of⟩ := sound f (List.mem_of_getElem? found)
        unfold World.transact commit
        cases returned : Tx.conclude cfg clock f.jobId conclusion w.db with
        | ok u db => exact stepFinds_report mem of concludes returned
        | error => exact .refl

end PostCall.Machine
