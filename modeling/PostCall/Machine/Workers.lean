import PostCall.Machine.Successors

/-!
# The transactions of the workers

The claim of the LLM worker, the success transactions of the three workers and the handling of a
failure, as paths of moves. A success transaction that returned is changes aside around one move:
the completion of the job with the jobs queued for its result.
-/

namespace PostCall.Machine
open PostCall.Library PostCall.Python PostCall.Model

variable {cfg : Settings} {text : Text} {ok : Db → Label → Prop} {db db' db'' : Db}

/-! ### The claim of the LLM worker -/

/-- What the claim transaction of the LLM worker may do after it has claimed these jobs. -/
def admitMoves (jobs : List InteractionJob) (_ : Db) (l : Label) : Prop :=
  l = .aside ∨ ∃ job ∈ jobs, ∃ clock admission, l = .refuse job clock admission

/-- What one pass of the loop does: it raises before it changed anything, admits the job, or
refuses it. -/
lemma admitJob_cases (cfg : Settings) (db : Db) (clock : Clock) (job : InteractionJob) :
    (∃ e, LLMWorkerService.admitJob cfg clock job db = .error e db) ∨
    (∃ s, LLMWorkerService.admitJob cfg clock job db =
        .ok (some (LLMWorkerService.snapshot job)) s ∧ Aside db s) ∨
    (∃ usage admission, LLMWorkerService.admitJob cfg clock job db =
        .ok none (({ db with usage := usage } : Db).deferRefused clock job admission)) := by
  unfold LLMWorkerService.admitJob
  cases LLMWorkerService.customerBudget job.payload with
  | error e => exact .inl ⟨e, rfl⟩
  | ok budget =>
    rw [Program.ofExcept_ok, pure_bind, Program.bind_of_ok Program.get_run]
    cases db.usage.rateLimiterAdmit cfg job.customerId job.tokenEstimate job.priority (clock 0)
        budget with
    | error e => exact .inl ⟨e, rfl⟩
    | ok admitted =>
      obtain ⟨usage, admission⟩ := admitted
      rw [Program.ofExcept_ok, pure_bind]
      simp only
      rw [Program.bind_of_ok Program.modify_run]
      right
      split
      · exact .inl ⟨_, rfl, Aside.usage.trans (.emit (by decide))⟩
      · exact .inr ⟨usage, admission, rfl⟩

/-- A refusal defers its own row only, so the other claimed jobs keep theirs. -/
lemma claimed_of_refused (cfg : Settings) {usage : UsageTable} {clock : Clock}
    {admission : ReservationResult} {job : InteractionJob} {jobs : List InteractionJob}
    (other : ∀ row ∈ jobs, row.id ≠ job.id)
    (claimed : ∀ row ∈ job :: jobs, row.status = .running ∧ row ∈ db.queue.jobs.rows) :
    ∀ row ∈ jobs, row.status = .running ∧
      row ∈ (({ db with usage := usage } : Db).deferRefused clock job admission).queue.jobs.rows := by
  have m : Move cfg { db with usage := usage } (.refuse job clock admission) _ :=
    .refuse (claimed job List.mem_cons_self).2 (claimed job List.mem_cons_self).1
  have kept := m.mem_of_others rfl other fun row hr => (claimed row (List.mem_cons_of_mem _ hr)).2
  exact fun row hr => ⟨(claimed row (List.mem_cons_of_mem _ hr)).1, kept row hr⟩

/-- The loop over claimed jobs. -/
theorem path_admitJobs {clock : UUID → Clock} {jobs : List InteractionJob}
    (nodup : (jobs.map (·.id)).Nodup)
    (claimed : ∀ job ∈ jobs, job.status = .running ∧ job ∈ db.queue.jobs.rows) :
    Path (Move cfg) (admitMoves jobs) db
      (finalState (LLMWorkerService.admitJobs cfg clock jobs db)) := by
  induction jobs generalizing db with
  | nil => exact .refl
  | cons job jobs ih =>
    simp only [List.map_cons, List.nodup_cons, List.mem_map, not_exists, not_and] at nodup
    obtain ⟨running, mem⟩ := claimed job List.mem_cons_self
    have later : ∀ db l, admitMoves jobs db l → admitMoves (job :: jobs) db l := by
      rintro _ _ (h | ⟨row, h, hl⟩)
      · exact .inl h
      · exact .inr ⟨row, List.mem_cons_of_mem _ h, hl⟩
    unfold LLMWorkerService.admitJobs
    -- the pass on this job, and what it leaves of the rows of the others
    obtain ⟨e, h⟩ | ⟨s, a, h, p, rest⟩ :
        (∃ e, LLMWorkerService.admitJob cfg (clock job.id) job db = .error e db) ∨
        ∃ s a, LLMWorkerService.admitJob cfg (clock job.id) job db = .ok a s ∧
          Path (Move cfg) (admitMoves (job :: jobs)) db s ∧
          ∀ row ∈ jobs, row.status = .running ∧ row ∈ s.queue.jobs.rows := by
      rcases admitJob_cases cfg db (clock job.id) job with
        ⟨e, h⟩ | ⟨s, h, aside⟩ | ⟨usage, admission, h⟩
      · exact .inl ⟨e, h⟩
      · refine .inr ⟨s, _, h, aside.path fun _ => .inl rfl, fun row hr => ?_⟩
        obtain ⟨running, mem⟩ := claimed row (List.mem_cons_of_mem _ hr)
        exact ⟨running, aside.queue ▸ mem⟩
      · have m : Move cfg { db with usage := usage } (.refuse job (clock job.id) admission) _ :=
          .refuse mem running
        refine .inr ⟨_, _, h, ?_, claimed_of_refused cfg nodup.1 claimed⟩
        exact (Aside.usage.path fun _ => .inl rfl).trans
          (.single m (.inr ⟨job, List.mem_cons_self, _, _, rfl⟩))
    · rw [Program.bind_of_error h]
      exact .refl
    rw [Program.bind_of_ok h]
    have p' := (ih nodup.2 rest).mono later
    rw [Program.bind_run]
    cases e : LLMWorkerService.admitJobs cfg clock jobs s with
    | ok _ _ => rw [e] at p'; exact p.trans p'
    | error _ _ => rw [e] at p'; exact p.trans p'

/-- The loop leaves a row that is none of its jobs. -/
lemma mem_of_admitJobs {clock : UUID → Clock} {jobs : List InteractionJob}
    {snapshots : List ClaimedLLMJob} {row : InteractionJob} (nodup : (jobs.map (·.id)).Nodup)
    (claimed : ∀ job ∈ jobs, job.status = .running ∧ job ∈ db.queue.jobs.rows)
    (h : LLMWorkerService.admitJobs cfg clock jobs db = .ok snapshots db')
    (mem : row ∈ db.queue.jobs.rows) (other : ∀ job ∈ jobs, job.id ≠ row.id) :
    row ∈ db'.queue.jobs.rows := by
  have p : Path (Move cfg) (admitMoves jobs) db
      (finalState (LLMWorkerService.admitJobs cfg clock jobs db)) := path_admitJobs nodup claimed
  rw [h] at p
  refine Path.mem_of_ne p mem fun _ l job' hl e => ?_
  rcases hl with rfl | ⟨job, hj, _, _, rfl⟩
  · cases e
  · cases e
    exact fun same => other _ hj same.symm

/-! ### Success transactions -/

/-- Rows of some kind were inserted, and nothing else happened. -/
def Inserts (cfg : Settings) (P : NewJob → Prop) (db db' : Db) : Prop :=
  ∃ rows queue, db.queue.addAll? rows = some queue ∧ db' = { db with queue := queue } ∧
    ∀ row ∈ rows, ∃ new, P new ∧ row = new.row cfg ∧ (errorLog? db row.interactionId).isSome

/-- Rows are added one list after the other. -/
lemma addAll?_append {q : Queue} {rows rows' : List InteractionJob} :
    q.addAll? (rows ++ rows') = (q.addAll? rows).bind (·.addAll? rows') := by
  induction rows generalizing q with
  | nil => rfl
  | cons row rows ih =>
    simp only [List.cons_append, Queue.addAll?, ih]
    cases q.add? row <;> rfl

lemma Inserts.refl {P : NewJob → Prop} : Inserts cfg P db db :=
  ⟨[], db.queue, rfl, rfl, fun _ h => nomatch h⟩

lemma Inserts.trans {P : NewJob → Prop} (h : Inserts cfg P db db') (h' : Inserts cfg P db' db'') :
    Inserts cfg P db db'' := by
  obtain ⟨rows, queue, added, rfl, born⟩ := h
  obtain ⟨rows', queue', added', rfl, born'⟩ := h'
  refine ⟨rows ++ rows', queue', ?_, rfl, fun row hr => ?_⟩
  · rw [addAll?_append, added]
    exact added'
  · rcases List.mem_append.1 hr with hr | hr
    · exact born row hr
    · exact born' row hr

/-- A job is created, or was there already. -/
lemma inserts_createIfAbsent {P : NewJob → Prop} {new : NewJob} {row : InteractionJob} (h : P new)
    (e : Tx.createIfAbsent cfg new db = .ok row db') : Inserts cfg P db db' := by
  rcases createIfAbsent_cases cfg db new with
    ⟨_, e', _, _⟩ | ⟨queue, e', known, added⟩ | ⟨_, e'⟩
  · rw [e'] at e
    cases e
    exact .refl
  · rw [e'] at e
    cases e
    refine ⟨[new.row cfg], queue, by simp [Queue.addAll?, added], rfl, fun row hr => ?_⟩
    rw [List.mem_singleton.1 hr]
    exact ⟨new, h, rfl, known⟩
  · rw [e'] at e
    cases e

lemma inserts_queueResultJobs {births : ChildSlot → Birth} {job : JobIdentity}
    {payload result : Dict}
    (h : Tx.queueResultJobs cfg text births job payload result job.priority
      (callStageText text result) none db = .ok ⟨⟩ db') :
    Inserts cfg (ResultOf text job payload result) db db' := by
  obtain ⟨_, s₁, h₁, rest⟩ := Program.bind_ok.1 h
  obtain ⟨_, s₂, h₂, rest⟩ := Program.bind_ok.1 rest
  obtain ⟨_, s₃, h₃, rest⟩ := Program.bind_ok.1 rest
  cases rest
  cases h₂
  exact (inserts_createIfAbsent .signal h₁).trans (inserts_createIfAbsent .lead h₃)

/-- The completion of a job together with what was inserted after it is one move. -/
lemma Move.of_inserts {job : InteractionJob} {result : Dict} {tokensUsed : ℤ} {now : Time}
    {P : NewJob → Prop} (mem : job ∈ db.queue.jobs.rows) (running : job.status = .running)
    (h : Inserts cfg P (db.mapQueue (·.markSucceeded job.id result tokensUsed now)) db') :
    ∃ children, Move cfg db (.succeed job result tokensUsed now children) db' ∧
      ∀ row ∈ children, ∃ new, P new ∧ row = new.row cfg := by
  obtain ⟨rows, queue, added, rfl, born⟩ := h
  refine ⟨rows, .succeed mem running (fun row hr => ?_) added, fun row hr => ?_⟩
  · obtain ⟨new, _, e, known⟩ := born row hr
    exact ⟨⟨new, e⟩, known⟩
  · obtain ⟨new, h, e, _⟩ := born row hr
    exact ⟨new, h, e⟩

/-- A key that is present after a move was present before it, or came with it. -/
lemma Move.of_present {l : Label} (m : Move cfg db l db') {key : String} (h : Present db' key) :
    Present db key ∨ ∃ row ∈ l.born, row.idempotencyKey = key := by
  obtain ⟨row, mem, e⟩ := h
  rcases m.of_mem mem with ⟨row₀, mem₀, same⟩ | born
  · exact .inl ⟨row₀, mem₀, (congrArg JobIdentity.idempotencyKey same).symm.trans e⟩
  · exact .inr ⟨row, born, e⟩

/-- A completed orchestration job had a transcript, and the successors of a completed job are present,
or queued with its completion. -/
def HandsOff (text : Text) (db : Db) (job : JobIdentity) (result : Dict)
    (children : List InteractionJob) : Prop :=
  (job.jobType = .orchestrateInteraction → ∃ turns, transcript job.payload = .ok turns) ∧
  ∀ key ∈ successorKeys text job result,
    Present db key ∨ ∃ row ∈ children, row.idempotencyKey = key

/-- A job that nothing follows hands nothing over. -/
lemma handsOff_of_ne {job : JobIdentity} {result : Dict}
    (type : job.jobType ≠ .orchestrateInteraction ∧ job.jobType ≠ .llmAnalysis) :
    HandsOff text db job result [] := by
  refine ⟨fun e => absurd e type.1, fun key hk => ?_⟩
  unfold successorKeys at hk
  split at hk
  case h_1 e => exact absurd e type.1
  case h_2 e => exact absurd e type.2
  case h_3 => cases hk

/-- What the success transaction of an execution may do. -/
def successMoves (cfg : Settings) (text : Text) (work : Work) (job : InteractionJob) (db : Db) :
    Label → Prop
  | .aside => True
  | .succeed job' result _ _ children =>
    job' = job ∧ HandsOff text db job.toJobIdentity result children ∧
      ∀ row ∈ children, ∃ snapshot new, work = .analysis snapshot ∧
        ResultOf text job.toJobIdentity snapshot.payload result new ∧ row = new.row cfg
  | _ => False

/-- What a success transaction did that returned: nothing, since the job is not running, or the
completion of the job, with changes aside before and after it. -/
inductive Completed (cfg : Settings) (text : Text) (work : Work) (job : InteractionJob) (db : Db) :
    Db → Prop where
  | idle :
    job.status ≠ .running →
    Completed cfg text work job db db
  | done {s₁ s₂ db' result tokensUsed now children} :
    Aside db s₁ →
    Move cfg s₁ (.succeed job result tokensUsed now children) s₂ →
    successMoves cfg text work job s₁ (.succeed job result tokensUsed now children) →
    Aside s₂ db' →
    Completed cfg text work job db db'

lemma Completed.path {work : Work} {job : InteractionJob} (h : Completed cfg text work job db db') :
    Path (Move cfg) (successMoves cfg text work job) db db' := by
  have aside : ∀ db, successMoves cfg text work job db .aside := fun _ => trivial
  cases h with
  | idle => exact .refl
  | done before m hm after => exact ((before.path aside).trans (.single m hm)).trans (after.path aside)

/-- The record of an analysis is outside the queue. -/
lemma aside_recordAnalysis {clock : Clock} {snapshot : ClaimedLLMJob} {result : AnalysisResult} :
    Within Aside (LLMWorkerService.recordAnalysis cfg text clock snapshot result) := by
  refine .bind (.modify fun _ => .updateInteraction fun _ => rfl) fun _ => ?_
  refine .bind .ofExcept fun _ => .bind .ofExcept fun _ => ?_
  refine .bind .get fun _ => .bind .ofExcept fun _ => ?_
  refine .bind (.modify fun _ => .usage) fun _ => ?_
  split
  · exact .pure
  · exact .throw

/-- The success of an analysis completes its job. -/
lemma completed_succeed {births : ChildSlot → Birth} {clock : Clock} {snapshot : ClaimedLLMJob}
    {result : AnalysisResult} {job : InteractionJob} (type : job.jobType = .llmAnalysis)
    (mem : job ∈ db.queue.jobs.rows) (running : job.status = .running)
    (h : LLMWorkerService.succeed cfg text births clock snapshot result job db = .ok ⟨⟩ db') :
    Completed cfg text (.analysis snapshot) job db db' := by
  obtain ⟨tokensUsed, s₁, h₁, rest⟩ := Program.bind_ok.1 h
  have before := aside_recordAnalysis.of_ok h₁
  have mem₁ : job ∈ s₁.queue.jobs.rows := before.queue ▸ mem
  obtain ⟨job', s₂, h₂, rest⟩ := Program.bind_ok.1 rest
  cases h₂
  obtain ⟨_, s₃, h₃, rest⟩ := Program.bind_ok.1 rest
  obtain ⟨children, m, born⟩ := Move.of_inserts mem₁ running (inserts_queueResultJobs h₃)
  -- the two result jobs were found under their keys, or came with the completion
  have handoff : HandsOff text s₁ job.toJobIdentity result.rawResponse children := by
    refine ⟨fun e => by simp [type] at e, fun key hk => ?_⟩
    obtain ⟨signal, lead⟩ := queueResultJobs_keys h₃
    simp only [successorKeys, type, resultKeys, List.mem_cons, List.not_mem_nil, or_false] at hk
    rcases hk with rfl | rfl
    · exact m.of_present signal
    · exact m.of_present lead
  have after : Aside s₃ db' := by
    split at rest
    · cases rest
    · cases rest
      exact .emit (by decide)
  refine .done before m ⟨rfl, handoff, fun row hr => ?_⟩ after
  obtain ⟨new, hn, e⟩ := born row hr
  exact ⟨snapshot, new, rfl, hn, e⟩

/-- The `try` block of a result job is outside the queue. -/
lemma aside_process {snapshot : ClaimedResultJob} {fault : Option PyError} :
    Within Aside (ResultWorkerService.process snapshot fault) := by
  have stage : ∀ callStage, Within Aside (Tx.updateLeadStage snapshot.leadId callStage) := by
    intro callStage
    refine .bind .get fun _ => ?_
    split
    · exact .pure
    refine .bind .ofExcept fun _ => ?_
    split
    · split
      · exact .throw
      · exact .modify fun _ => .leads
    · exact .throw
  refine .bind ?_ fun _ => ?_
  · cases fault with
    | none => exact .pure
    | some e => exact .throw
  · split
    · exact .bind .ofExcept fun _ => stage _
    · exact .pure

/-! ### The end of an execution -/

/-- A worker's snapshot is one of the row of this job, whose type is the worker's. -/
inductive WorkOf (job : JobIdentity) : Work → Prop where
  | analysis {row : InteractionJob} :
    row.toJobIdentity = job →
    job.jobType = .llmAnalysis →
    WorkOf job (.analysis (LLMWorkerService.snapshot row))
  | recording {row : InteractionJob} :
    row.toJobIdentity = job →
    job.jobType = .recordingFetch →
    WorkOf job (.recording (RecordingWorkerService.snapshot row))
  | result {row : InteractionJob} :
    row.toJobIdentity = job →
    job.jobType = .signalJobs ∨ job.jobType = .leadStageUpdate →
    WorkOf job (.result (ResultWorkerService.snapshot row))
  | processed {row : InteractionJob} {raised} :
    row.toJobIdentity = job →
    job.jobType = .signalJobs ∨ job.jobType = .leadStageUpdate →
    WorkOf job (.processed (ResultWorkerService.snapshot row) raised)

lemma WorkOf.jobId {job : JobIdentity} {work : Work} (h : WorkOf job work) : work.jobId = job.id := by
  cases h with
  | analysis e => exact congrArg JobIdentity.id e
  | recording e => exact congrArg JobIdentity.id e
  | result e => exact congrArg JobIdentity.id e
  | processed e => exact congrArg JobIdentity.id e

/-- Orchestration jobs are never in flight. -/
lemma WorkOf.jobType_ne {job : JobIdentity} {work : Work} (h : WorkOf job work) :
    job.jobType ≠ .orchestrateInteraction := by
  cases h with
  | analysis _ type => simp [type]
  | recording _ type => simp [type]
  | result _ type => rcases type with type | type <;> simp [type]
  | processed _ type => rcases type with type | type <;> simp [type]

/-- What the last transaction of an execution may do. -/
def reportMoves (cfg : Settings) (text : Text) (work : Work) (conclusion : Except Failure (Tx Unit))
    (clock : Clock) (job : InteractionJob) (db : Db) : Label → Prop
  | .fail job' failure clock' => job' = job ∧ conclusion = .error failure ∧ clock' = clock
  | l => successMoves cfg text work job db l ∧
      ∀ failure, conclusion = .error failure → l = .aside

/-- A completion that queues nothing, with changes aside before and after it. -/
lemma completed_markSucceeded {work : Work} {job : InteractionJob} {result : Dict} {now : Time}
    (before : Aside db db') (mem : job ∈ db.queue.jobs.rows) (running : job.status = .running)
    (type : job.jobType ≠ .orchestrateInteraction ∧ job.jobType ≠ .llmAnalysis)
    (after : Aside (db'.mapQueue (·.markSucceeded job.id result 0 now)) db'') :
    Completed cfg text work job db db'' := by
  have m : Move cfg db' (.succeed job result 0 now []) _ :=
    .succeed (before.queue ▸ mem) running (fun _ h => nomatch h) rfl
  exact .done before m ⟨rfl, handsOff_of_ne type, fun _ h => nomatch h⟩ after

/-- How an execution ends, for each worker and what the environment answered. -/
inductive Concludes (cfg : Settings) (text : Text) (clock : Clock) :
    Work → Outcome → Except Failure (Tx Unit) → Prop where
  | analysed {snapshot outcome births result} :
    LLMWorkerService.processPostCall cfg outcome = .ok result →
    Concludes cfg text clock (.analysis snapshot) (.analysis outcome births)
      (.ok (LLMWorkerService.complete cfg text births clock snapshot result))
  | unanalysed {snapshot outcome births failure} :
    LLMWorkerService.processPostCall cfg outcome = .error failure →
    Concludes cfg text clock (.analysis snapshot) (.analysis outcome births) (.error failure)
  | fetched {snapshot answer result} :
    RecordingWorkerService.poll text snapshot answer = .ok result →
    Concludes cfg text clock (.recording snapshot) (.recording answer)
      (.ok (RecordingWorkerService.complete clock snapshot result))
  | unfetched {snapshot answer e} :
    RecordingWorkerService.poll text snapshot answer = .error e →
    Concludes cfg text clock (.recording snapshot) (.recording answer)
      (.error (RecordingWorkerService.failureOf cfg snapshot e))
  | processed {snapshot} :
    Concludes cfg text clock (.processed snapshot none) .result
      (.ok (ResultWorkerService.complete clock snapshot))
  | unprocessed {snapshot e} :
    Concludes cfg text clock (.processed snapshot (some e)) .result
      (.error ⟨"result_worker", e.className, e.message, none, true⟩)

lemma concludes_of_conclusion {work : Work} {outcome : Outcome} {clock : Clock}
    {conclusion : Except Failure (Tx Unit)}
    (h : work.conclusion cfg text clock outcome = some conclusion) :
    Concludes cfg text clock work outcome conclusion := by
  cases work with
  | analysis snapshot =>
    cases outcome with
    | recording => cases h
    | result => cases h
    | analysis outcome births =>
      simp only [Work.conclusion, LLMWorkerService.processSnapshot, Option.some.injEq] at h
      cases answer : LLMWorkerService.processPostCall cfg outcome with
      | ok result =>
        rw [answer] at h
        cases h
        exact .analysed answer
      | error failure =>
        rw [answer] at h
        cases h
        exact .unanalysed answer
  | recording snapshot =>
    cases outcome with
    | analysis => cases h
    | result => cases h
    | recording answer =>
      simp only [Work.conclusion, RecordingWorkerService.process, Option.some.injEq] at h
      cases polled : RecordingWorkerService.poll text snapshot answer with
      | ok result =>
        rw [polled] at h
        cases h
        exact .fetched polled
      | error e =>
        rw [polled] at h
        cases h
        exact .unfetched polled
  -- a result job reports after its side effects only
  | result => cases outcome <;> cases h
  | processed snapshot raised =>
    cases outcome with
    | analysis => cases h
    | recording => cases h
    | result =>
      cases h
      cases raised with
      | none => exact .processed
      | some e => exact .unprocessed

/-- A success that has returned completes its job. -/
lemma completed_of_ok {work : Work} {outcome : Outcome} {complete : Tx Unit} {clock : Clock}
    {job : InteractionJob} (mem : job ∈ db.queue.jobs.rows) (of : WorkOf job.toJobIdentity work)
    (h : work.conclusion cfg text clock outcome = some (.ok complete))
    (e : complete db = .ok ⟨⟩ db') : Completed cfg text work job db db' := by
  have found := Queue.get?_of_mem mem
  cases concludes_of_conclusion h with
  | analysed =>
    cases of with
    | @analysis row same type =>
      have id : (LLMWorkerService.snapshot row).id = job.id := congrArg JobIdentity.id same
      simp only [LLMWorkerService.complete, Program.bind_of_ok Program.get_run, id, found] at e
      split at e
      case isTrue running => exact completed_succeed type mem running e
      case isFalse idle => cases e; exact .idle idle
  | @fetched _ _ result =>
    cases of with
    | @recording row same type =>
      have id : (RecordingWorkerService.snapshot row).id = job.id := congrArg JobIdentity.id same
      simp only [RecordingWorkerService.complete, Program.bind_of_ok Program.get_run, id, found] at e
      split at e
      case isFalse idle => cases e; exact .idle idle
      case isTrue running =>
        cases e
        have before : Aside db (db.updateRecordingKey
            (RecordingWorkerService.snapshot row).interactionId result.s3Key) :=
          .updateInteraction fun _ => rfl
        refine completed_markSucceeded before mem running ?_ (.emit ⟨?_, ?_⟩)
        · simp [type]
        · decide
        · decide
  | processed =>
    cases of with
    | @processed row raised same type =>
      have id : (ResultWorkerService.snapshot row).id = job.id := congrArg JobIdentity.id same
      simp only [ResultWorkerService.complete, Program.bind_of_ok Program.get_run, id, found] at e
      split at e
      case isFalse idle => cases e; exact .idle idle
      case isTrue running =>
        cases e
        refine completed_markSucceeded (.refl _) mem running ?_ (.emit ⟨?_, ?_⟩)
        · rcases type with type | type <;> simp [type]
        · decide
        · decide

/-- A failure that was reported is one move, whatever status the row has. -/
lemma move_of_failed {work : Work} {failure : Failure} {clock : Clock} {job : InteractionJob}
    (mem : job ∈ db.queue.jobs.rows) (of : WorkOf job.toJobIdentity work)
    (e : Tx.conclude cfg clock work.jobId (.error failure) db = .ok ⟨⟩ db') :
    Move cfg db (.fail job failure clock) db' := by
  simp only [Tx.conclude, Tx.handleFailure, of.jobId, Program.bind_of_ok Program.get_run,
    Queue.get?_of_mem mem] at e
  cases e
  exact .fail mem

/-- The last transaction of an execution, if it returned. -/
theorem path_conclude {work : Work} {outcome : Outcome} {conclusion : Except Failure (Tx Unit)}
    {clock : Clock} {job : InteractionJob} (mem : job ∈ db.queue.jobs.rows)
    (of : WorkOf job.toJobIdentity work)
    (h : work.conclusion cfg text clock outcome = some conclusion)
    (e : Tx.conclude cfg clock work.jobId conclusion db = .ok ⟨⟩ db') :
    Path (Move cfg) (reportMoves cfg text work conclusion clock job) db db' := by
  cases conclusion with
  | ok complete =>
    refine (completed_of_ok mem of h e).path.mono fun db l hl => ?_
    cases l with
    | fail => cases hl
    | _ => exact ⟨hl, fun _ h => nomatch h⟩
  | error failure => exact .single (move_of_failed mem of e) ⟨rfl, rfl, rfl⟩

end PostCall.Machine
