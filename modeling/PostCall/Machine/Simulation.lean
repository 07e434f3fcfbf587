import PostCall.Machine.Workers

/-!
# Every action is a path of moves

`Allowed` says which moves an action of the system makes, and why: whom it claims and recovers, what
it inserts, which execution it ends. `step_path` is the simulation: an action, whatever it does and
however it fails, is a path of such moves. What the moves keep, the system keeps.
-/

namespace PostCall.Machine
open PostCall.Library PostCall.Python PostCall.Model

/-- The recovery that an action begins with. -/
def recovery? : Action → Option RecoveryClock
  | .recoverStaleRunningJobs _ recovery => some recovery
  | .orchestrate _ _ recovery _ _ => some recovery
  | .claimAnalyses _ _ recovery _ _ => some recovery
  | _ => none

/-- The types of jobs that an action claims. -/
def claims : Action → List JobType
  | .orchestrate .. => [.orchestrateInteraction]
  | .claimAnalyses .. => [.llmAnalysis]
  | .claimRecordings .. => [.recordingFetch]
  | .claimResults .. => [.signalJobs, .leadStageUpdate]
  | _ => []

/-- The rows that an action recovers. -/
def Recovers (cfg : Settings) (w : World) (a : Action) (job : InteractionJob) : Prop :=
  ∃ recovery, recovery? a = some recovery ∧ job ∈ w.db.queue.jobs.rows ∧
    job.stale (Queue.lockCutoff cfg recovery.now)

/-- What the entry points insert: the key holds the canonical text of the interaction id, or a text
that was read as the id. -/
inductive RootOf : NewJob → Prop where
  | webhook {birth interactionId sessionId leadId campaignId customerId payload} :
    RootOf (.root birth interactionId sessionId leadId campaignId customerId
      (UUID.str interactionId) payload)
  | legacy {birth interactionId sessionId leadId campaignId customerId idText payload} :
    UUID.ofString idText = .ok interactionId →
    RootOf (.root birth interactionId sessionId leadId campaignId customerId idText payload)

/-- The moves that an action makes from a state of the system. -/
inductive Allowed (cfg : Settings) (text : Text) (w : World) : Action → Db → Label → Prop where
  | aside {a db} :
    Allowed cfg text w a db .aside
  | bare {new db} :
    Allowed cfg text w (.createIfAbsent new) db (.create (new.row cfg))
  | webhook {request new db} :
    RootOf new →
    Allowed cfg text w (.endInteraction request) db (.create (new.row cfg))
  | legacy {payload birth new db} :
    RootOf new →
    Allowed cfg text w (.legacyTask payload birth) db (.create (new.row cfg))
  | recover {a db job workerId now} :
    Recovers cfg w a job →
    Allowed cfg text w a db (.recover job workerId now)
  | claim {a db job workerId now} :
    job.jobType ∈ claims a →
    Allowed cfg text w a db (.claim job workerId now)
  | child {workerId limit recovery query run db new} {root : InteractionJob} :
    root ∈ w.db.queue.jobs.rows →
    root.jobType = .orchestrateInteraction →
    Child root.toJobIdentity new →
    Allowed cfg text w (.orchestrate workerId limit recovery query run) db (.create (new.row cfg))
  | orchestrated {workerId limit recovery query run db job result tokensUsed now} :
    job.jobType = .orchestrateInteraction →
    HandsOff text db job.toJobIdentity result [] →
    Allowed cfg text w (.orchestrate workerId limit recovery query run) db
      (.succeed job result tokensUsed now [])
  | unorchestrated {workerId limit recovery query run db job failure clock} :
    job.jobType = .orchestrateInteraction →
    job.status = .running →
    failure.retryable →
    Allowed cfg text w (.orchestrate workerId limit recovery query run) db (.fail job failure clock)
  | refuse {workerId limit recovery query clocks db job clock admission} {row : InteractionJob} :
    job.jobType = .llmAnalysis →
    row ∈ w.db.queue.jobs.rows →
    row.toJobIdentity = job.toJobIdentity →
    row.status ≠ .running ∨ row.stale (Queue.lockCutoff cfg recovery.now) →
    Allowed cfg text w (.claimAnalyses workerId limit recovery query clocks) db
      (.refuse job clock admission)
  | report {n f outcome conclusion clock job db l} :
    w.inflight[n]? = some f →
    f.work.conclusion cfg text clock outcome = some conclusion →
    job ∈ w.db.queue.jobs.rows →
    WorkOf job.toJobIdentity f.work →
    reportMoves cfg text f.work conclusion clock job db l →
    Allowed cfg text w (.report n outcome clock) db l

/-- Every execution is one of a job that has a row, by a worker for jobs of its type. -/
def Sound (w : World) : Prop :=
  ∀ f ∈ w.inflight, ∃ job ∈ w.db.queue.jobs.rows, WorkOf job.toJobIdentity f.work

section Step

variable {cfg : Settings} {text : Text} {ok : Db → Label → Prop} {db : Db}

/-- The moves of a transaction, if it is committed. -/
lemma path_transact {α : Type} {x : Tx α}
    (h : ∀ a db', x db = .ok a db' → Path (Move cfg) ok db db') :
    Path (Move cfg) ok db (World.transact db x) := by
  unfold World.transact commit
  cases e : x db with
  | ok a db' => exact h a db' e
  | error => exact .refl

lemma path_transact_of_within {α : Type} {x : Tx α} (h : Within (Path (Move cfg) ok) x) :
    Path (Move cfg) ok db (World.transact db x) :=
  path_transact fun _ _ e => h.of_ok e

lemma path_claimWorld {α : Type} {w : World} {x : Tx (List α)} {work : α → Work}
    (h : ∀ a db', x w.db = .ok a db' → Path (Move cfg) ok w.db db') :
    Path (Move cfg) ok w.db (w.claim x work).db := by
  unfold World.claim commit
  cases e : x w.db with
  | ok a db' => exact h a db' e
  | error => exact .refl

/-- The webhook creates an orchestration job at most. -/
lemma within_endInteraction {request : EndRequest} (aside : ∀ db, ok db .aside)
    (root : ∀ db new, RootOf new → ok db (.create (new.row cfg))) :
    Within (Path (Move cfg) ok) (endInteraction cfg text request) := by
  refine .bind .get fun db => ?_
  split
  · exact .throw
  · split
    · exact .throw
    split
    · exact .throw
    refine .bind (within_aside (fun _ => .updateInteraction fun _ => rfl) aside) fun _ => ?_
    refine .bind .ofExcept fun _ => ?_
    refine .bind (within_createIfAbsent fun db => root db _ .webhook) fun _ => ?_
    exact .bind (within_emit (by decide) aside) fun _ => .pure

/-- A UUID of the payload is read from its text. -/
lemma ofString_of_uuidField {payload : Dict} {key : String} {id : UUID}
    (h : uuidField text payload key = .ok id) :
    UUID.ofString (text.str (payload.getD key .null)) = .ok id := by
  unfold uuidField at h
  unfold Dict.getD
  split at h
  case h_1 value e => rw [e]; exact h
  case h_2 => cases h

/-- The transaction of the legacy task inserts at most an orchestration job. -/
lemma within_persistLegacyPayload {payload : Dict} {birth : Birth}
    (root : ∀ db new, RootOf new → ok db (.create (new.row cfg))) :
    Within (Path (Move cfg) ok) (persistLegacyPayload cfg text payload birth) := by
  refine .bind_of .ofExcept fun _ id _ h => ?_
  obtain ⟨e, -⟩ := Program.ofExcept_run_ok.1 h
  refine Within.bind (R := Path (Move cfg) ok) .ofExcept (fun _ => ?_) _
  refine .bind .ofExcept fun _ => .bind .ofExcept fun _ => .bind .ofExcept fun _ => ?_
  exact within_createIfAbsent fun db => root db _ (.legacy (ofString_of_uuidField e))

/-- The rows after a recovery: rows from before it, and rows of jobs that were stale. -/
lemma of_mem_recovered {workerId : String} {recovery : RecoveryClock} {row : InteractionJob}
    (h : row ∈ (recovered cfg workerId recovery db).queue.jobs.rows) :
    row ∈ db.queue.jobs.rows ∨ ∃ row₀ ∈ db.queue.jobs.rows,
      row₀.toJobIdentity = row.toJobIdentity ∧
        row₀.stale (Queue.lockCutoff cfg recovery.now) := by
  have p : Path (Move cfg) (fun _ l => ∃ job ∈ db.queue.jobs.rows, ∃ workerId now,
      l = .recover job workerId now ∧ job.stale (Queue.lockCutoff cfg recovery.now)) db
      (recovered cfg workerId recovery db) :=
    path_recover fun _ job mem stale => ⟨job, mem, _, _, rfl, stale⟩
  refine p.invariant (I := fun s => ∀ row ∈ s.queue.jobs.rows, row ∈ db.queue.jobs.rows ∨
    ∃ row₀ ∈ db.queue.jobs.rows, row₀.toJobIdentity = row.toJobIdentity ∧
      row₀.stale (Queue.lockCutoff cfg recovery.now)) (fun _ h => .inl h) ?_ row h
  intro s l s' ih m hl row h
  obtain ⟨job, mem, workerId, now, rfl, stale⟩ := hl
  rcases (m.effect.rows row).1 h with ⟨h, _⟩ | h | h
  · exact ih row h
  · cases h
  · cases h
    exact .inr ⟨job, mem, rfl, stale⟩

/-- The claim after a recovery takes rows that were not running, or were stale. -/
lemma claimable {workerId workerId' : String} {recovery : RecoveryClock} {jobTypes : List JobType}
    {limit : ℕ} {query : ClaimQuery} {job : InteractionJob}
    (h : job ∈ claimedJobs workerId jobTypes limit query
      (recovered cfg workerId' recovery db)) :
    ∃ row ∈ db.queue.jobs.rows, row.toJobIdentity = job.toJobIdentity ∧
      (row.status ≠ .running ∨ row.stale (Queue.lockCutoff cfg recovery.now)) := by
  obtain ⟨row, ready, rfl, _⟩ := of_mem_claimedJobs h
  obtain ⟨mem, _, status, _⟩ := Queue.of_mem_readyJobs ready
  rcases of_mem_recovered mem with mem | ⟨row₀, mem, same, stale⟩
  · exact ⟨row, mem, rfl, .inl fun running => by rw [running] at status; simp at status⟩
  · exact ⟨row₀, mem, same, .inr stale⟩

end Step

variable {cfg : Settings} {text : Text}

/-- A recovery and a claim after it are moves that the action allows. -/
lemma path_recoverAndClaim {w : World} {a : Action} {recovery : RecoveryClock}
    {jobTypes : List JobType} {workerId : String} {limit : ℕ} {query : ClaimQuery}
    (hr : recovery? a = some recovery) (hc : claims a = jobTypes) :
    Path (Move cfg) (Allowed cfg text w a) w.db
      (claimed workerId jobTypes limit query (recovered cfg workerId recovery w.db)) := by
  refine Library.Path.trans (path_recover fun _ job mem stale => .recover ⟨recovery, hr, mem, stale⟩)
    (path_claim fun _ job h => .claim ?_)
  rw [hc]
  exact (Queue.of_mem_readyJobs h).2.1

lemma path_runOnce {w : World} {workerId : String} {limit : ℕ} {recovery : RecoveryClock}
    {query : ClaimQuery} {run : UUID → JobRun} {a : Unit} {db' : Db}
    (h : WorkflowOrchestrator.runOnce cfg text workerId limit recovery query run w.db = .ok a db') :
    Path (Move cfg) (Allowed cfg text w (.orchestrate workerId limit recovery query run)) w.db
      db' := by
  rw [WorkflowOrchestrator.runOnce, Program.bind_of_ok recoverStaleRunningJobs_run,
    Program.bind_of_ok claimReadyJobs_run] at h
  have p : Path (Move cfg) (runMoves cfg text (claimedJobs workerId [.orchestrateInteraction] limit
      query (recovered cfg workerId recovery w.db))) _
      (finalState (WorkflowOrchestrator.processJobs cfg text run _ _)) :=
    path_processJobs nodup_claimedJobs fun job h =>
      ⟨jobType_of_claimedJobs h, running_of_claimedJobs job h⟩
  rw [h] at p
  refine (path_recoverAndClaim rfl rfl).trans (p.mono fun db l hl => ?_)
  rcases hl with rfl | ⟨job, hj, hl⟩
  · exact .aside
  obtain ⟨root, mem, same, _⟩ := claimable hj
  have type : job.jobType = .orchestrateInteraction := jobType_of_claimedJobs hj
  -- the moves of `_process_job` on a snapshot, as moves on the row it was taken from
  cases l with
  | aside => exact .aside
  | create row =>
    obtain ⟨new, rfl, child⟩ := hl
    exact .child mem ((congrArg JobIdentity.jobType same).trans type) (same ▸ child)
  | succeed job' =>
    obtain ⟨e, rfl, keys⟩ := hl
    exact .orchestrated ((congrArg JobIdentity.jobType e).trans type)
      ⟨fun _ => e ▸ keys.1, fun key hk => .inl (keys.2 key (e ▸ hk))⟩
  | fail job' =>
    obtain ⟨e, running, retryable⟩ := hl
    exact .unorchestrated ((congrArg JobIdentity.jobType e).trans type) running retryable
  | claim => cases hl
  | recover => cases hl
  | refuse => cases hl

lemma path_claimAdmittedJobs {w : World} {workerId : String} {limit : ℕ} {recovery : RecoveryClock}
    {query : ClaimQuery} {clock : UUID → Clock} {a : List ClaimedLLMJob} {db' : Db}
    (h : LLMWorkerService.claimAdmittedJobs cfg workerId limit recovery query clock w.db =
      .ok a db') :
    Path (Move cfg) (Allowed cfg text w (.claimAnalyses workerId limit recovery query clock)) w.db
      db' := by
  rw [LLMWorkerService.claimAdmittedJobs, Program.bind_of_ok recoverStaleRunningJobs_run,
    Program.bind_of_ok claimReadyJobs_run] at h
  have p : Path (Move cfg) (admitMoves (claimedJobs workerId [.llmAnalysis] limit query
      (recovered cfg workerId recovery w.db))) _
      (finalState (LLMWorkerService.admitJobs cfg clock _ _)) :=
    path_admitJobs nodup_claimedJobs running_of_claimedJobs
  rw [h] at p
  refine (path_recoverAndClaim rfl rfl).trans (p.mono fun db l hl => ?_)
  rcases hl with rfl | ⟨job, hj, clock, admission, rfl⟩
  · exact .aside
  obtain ⟨row, mem, same, free⟩ := claimable hj
  exact .refuse (jobType_of_claimedJobs hj) mem same free

/-- An action is a path of moves that it is allowed to make. -/
theorem step_path (cfg : Settings) (text : Text) {w : World} (sound : Sound w) (a : Action) :
    Path (Move cfg) (Allowed cfg text w a) w.db (World.step cfg text w a).db := by
  cases a with
  | createIfAbsent new => exact path_transact_of_within (within_createIfAbsent fun _ => .bare)
  | recoverStaleRunningJobs workerId recovery =>
    exact path_recover fun _ job mem stale => .recover ⟨recovery, rfl, mem, stale⟩
  | endInteraction request =>
    simp only [World.step, World.endInteraction, commit]
    cases e : endInteraction cfg text request w.db with
    | error => exact .refl
    | ok job db =>
      have p := (within_endInteraction (fun _ => .aside) fun _ _ h => .webhook h).of_ok e
        (R := Path (Move cfg) (Allowed cfg text w (.endInteraction request)))
      simp only
      -- the event of the enqueued job is a transaction of its own
      split
      · exact p.trans (path_transact_of_within
          (.bind within_interrupt fun _ => within_emit (by decide) fun _ => .aside))
      · exact p
  | legacyTask payload birth =>
    exact path_transact_of_within (within_persistLegacyPayload fun _ _ h => .legacy h)
  | orchestrate workerId limit recovery query run =>
    exact path_transact fun _ _ h => path_runOnce h
  | claimAnalyses workerId limit recovery query clock =>
    exact path_claimWorld fun _ _ h => path_claimAdmittedJobs h
  | claimRecordings workerId limit query =>
    refine path_claimWorld fun _ _ h => ?_
    cases h
    exact path_claim fun _ job h => .claim (Queue.of_mem_readyJobs h).2.1
  | claimResults workerId limit query =>
    refine path_claimWorld fun _ _ h => ?_
    cases h
    exact path_claim fun _ job h => .claim (Queue.of_mem_readyJobs h).2.1
  | processResult n fault =>
    simp only [World.step, World.processResult]
    split
    case h_2 => exact .refl
    case h_1 snapshot claim _ =>
      split
      case h_2 => exact .refl
      case h_1 u db e =>
        exact (aside_process.of_ok e).path fun _ => .aside
  | report n outcome clock =>
    simp only [World.step, World.report]
    split
    case h_2 => exact .refl
    case h_1 f hf =>
      split
      case h_2 => exact .refl
      case h_1 conclusion hc =>
        obtain ⟨job, mem, of⟩ := sound f (List.mem_of_getElem? hf)
        exact path_transact fun _ _ e => (path_conclude mem of hc e).mono fun _ _ hl =>
          .report hf hc mem of hl
  | crash n => exact .refl

end PostCall.Machine
