import PostCall.Properties.Attempts

/-!
# Retry accounting

Where no lock times out, each claim of a job that does not go through the rate limiter is followed by
one report at most. So the attempts of the job count its failures, the snapshot of the recording
worker holds the same number as the row, and the delay of a deferral is a function of how many
deferrals there were. A job whose executions all fail in a way that may be retried is claimed, and
fails, exactly as often as its limit says; a recording that is not to be had ends its job at once.
-/

namespace PostCall.Properties
open PostCall.Library PostCall.Python PostCall.Model PostCall.Machine

variable {cfg : Settings} {text : Text} {w w₀ w' : World} {a : Action} {as : List Action}

/-! ### How attempts are spent -/

/-- Each attempt went into a failure that deferred the job, but for the one that runs, that succeeded
or that ended it. -/
def Balanced (status : JobStatus) (attempts deferred failed : ℕ) : Prop :=
  match status with
  | .pending | .deferred => attempts = deferred ∧ failed = deferred
  | .running | .succeeded => attempts = deferred + 1 ∧ failed = deferred
  | .deadLettered => attempts = failed ∧ failed = deferred + 1
  | .failed => False

/-- The attempts of a job are balanced. -/
structure Spent (v : JobView) : Prop where
  unborn : v.row = none → v = .unborn
  balanced : ∀ job, v.row = some job → job.jobType ∈ plainTypes →
    Balanced job.status job.attempts (v.events.count (.deferred job.id))
      (v.events.count (.failed job.id))

/-- The attempts of a job that waits are its deferrals. -/
lemma Balanced.of_waiting {job : InteractionJob} {deferred failed : ℕ}
    (h : Balanced job.status job.attempts deferred failed)
    (waiting : job.status = .pending ∨ job.status = .deferred) :
    job.attempts = deferred ∧ failed = deferred := by
  rcases waiting with status | status <;> rwa [status] at h

/-- Those of a running job are one more. -/
lemma Balanced.of_running {job : InteractionJob} {deferred failed : ℕ}
    (h : Balanced job.status job.attempts deferred failed) (running : job.status = .running) :
    job.attempts = deferred + 1 ∧ failed = deferred := by
  rwa [running] at h

/-- A spared move in order keeps the attempts balanced. -/
lemma spent_of_life {v v' : JobView} {l : Label} (step : Life cfg v l v') (h : Spent v)
    (order : orderly v l) (spared : sparedMoves v l) : Spent v' := by
  refine ⟨fun none => absurd none step.row_ne_none, fun row hrow type => ?_⟩
  cases step with
  | create pristine =>
    obtain ⟨new, rfl⟩ := pristine
    cases h.unborn rfl
    cases hrow
    exact ⟨rfl, rfl⟩
  | claim ready =>
    cases hrow
    obtain ⟨attempts, failed⟩ := (h.balanced _ rfl type).of_waiting ready
    exact ⟨by simp [attempts], by simpa using failed⟩
  | recover => exact order.elim
  | succeed running =>
    cases hrow
    obtain ⟨attempts, failed⟩ := (h.balanced _ rfl type).of_running running
    exact ⟨by simp [attempts], by simpa using failed⟩
  | retry =>
    cases hrow
    obtain ⟨attempts, failed⟩ := (h.balanced _ rfl type).of_running order
    exact ⟨by simp [attempts], by simpa using failed⟩
  | bury =>
    cases hrow
    obtain ⟨attempts, failed⟩ := (h.balanced _ rfl type).of_running order
    exact ⟨by simp [attempts, failed], by simpa using failed⟩
  -- the rate limiter sees analyses only
  | refuse => exact absurd (by cases hrow; exact type) spared

/-- Where no lock times out, no recovery is left to spare. -/
lemma spared_of_noTimeout (calm : NoTimeout cfg w a) : Spared cfg w a :=
  fun job timeout => absurd timeout (calm job)

/-- A job has its dead letter, with its attempts, once it is in the dead letters, and none before. -/
structure Lettered (v : JobView) : Prop where
  unborn : v.row = none → v.letters = []
  alive : ∀ job, v.row = some job → job.status ≠ .deadLettered → v.letters = []
  dead : ∀ job, v.row = some job → job.status = .deadLettered →
    ∃ letter, v.letters = [letter] ∧ letter.attempts = job.attempts

/-- A job that is not dead needs no letter. -/
lemma Lettered.of_nil {row : InteractionJob} {events : List JobEvent} {letters : List DeadLetterJob}
    (nil : letters = []) (alive : row.status ≠ .deadLettered) :
    Lettered ⟨some row, events, letters⟩ := by
  refine ⟨(fun h => by cases h), fun _ _ _ => nil, ?_⟩
  rintro _ ⟨⟩ dead
  exact absurd dead alive

/-- A spared move in order keeps the letters. -/
lemma lettered_of_life {v v' : JobView} {l : Label} (step : Life cfg v l v') (h : Lettered v)
    (order : orderly v l) : Lettered v' := by
  cases step with
  | create pristine =>
    obtain ⟨new, rfl⟩ := pristine
    exact .of_nil (h.unborn rfl) (by simp [NewJob.row])
  | claim ready =>
    refine .of_nil (h.alive _ rfl ?_) (by simp)
    rcases ready with ready | ready <;> simp [ready]
  | recover => exact order.elim
  | succeed running => exact .of_nil (h.alive _ rfl (by simp [running])) (by simp)
  | retry =>
    refine .of_nil (h.alive _ rfl ?_) (by simp)
    rw [show _ = JobStatus.running from order]
    decide
  | @bury _ letters job failure clock =>
    have running : job.status = .running := order
    have nil : letters = [] := h.alive _ rfl (by simp [running])
    refine ⟨(fun h => by cases h), ?_, ?_⟩
    · rintro _ ⟨⟩ alive
      exact absurd rfl alive
    · rintro _ ⟨⟩ _
      exact ⟨_, by rw [nil]; rfl, rfl⟩
  | refuse running => exact .of_nil (h.alive _ rfl (by simp [running])) (by simp)

lemma lettered_of_run (run : Run (World.step cfg text) (NoTimeout cfg) w₀ as w) (init : Initial w₀)
    (id : UUID) : Lettered (view w.db.queue id) := by
  have steps : ∀ w a, NoTimeout cfg w a → Steps cfg text w a id anyStep :=
    fun _ _ _ _ _ _ _ _ _ _ => trivial
  refine view_of_orderly run (fun _ _ calm => calm) init id ?_ steps
    fun _ _ _ h step order _ => lettered_of_life step h order
  exact ⟨fun _ => rfl, fun _ h => (nomatch h), fun _ h => (nomatch h)⟩

/-- The attempts of every job are balanced after a run without timeouts. -/
lemma spent_of_run (run : Run (World.step cfg text) (NoTimeout cfg) w₀ as w) (init : Initial w₀)
    (id : UUID) : Spent (view w.db.queue id) := by
  refine view_of_orderly run (fun _ _ calm => calm) init id ?_
    (fun _ _ calm => (spared_of_noTimeout calm).steps)
    fun _ _ _ h step order spared => spent_of_life step h order spared
  exact ⟨fun _ => rfl, fun _ h => (nomatch h)⟩

/-! ### Executions that all fail -/

/-- The executions of the job report failures that may be retried. -/
def FailsRetryably (cfg : Settings) (text : Text) (id : UUID) (w : World) (a : Action) : Prop :=
  ∀ n f outcome clock conclusion, a = .report n outcome clock → w.inflight[n]? = some f →
    f.jobId = id → f.work.conclusion cfg text clock outcome = some conclusion →
    ∃ failure, conclusion = .error failure ∧ failure.retryable

/-- What such a job goes through: failures that may be retried, and no success. -/
def failing (_ : JobView) : Label → Prop
  | .succeed job _ _ _ _ => job.jobType ∉ plainTypes
  | .fail job failure _ => job.jobType ∈ plainTypes → failure.retryable
  | _ => True

/-- Where all executions fail, the moves are failures. -/
lemma FailsRetryably.steps {id : UUID} (h : FailsRetryably cfg text id w a) :
    Steps cfg text w a id failing := by
  intro db l db' k m allowed at'
  cases at' with
  | birth => trivial
  | about about e =>
    cases allowed with
    | orchestrated type => simp [failing, plainTypes, type]
    | unorchestrated _ _ retryable => exact fun _ => retryable
    | @report n f outcome conclusion clock job _ l hf hc mem of moves =>
      cases l with
      -- a report that fails completes nothing
      | succeed =>
        cases about
        obtain ⟨⟨rfl, _, _⟩, aside⟩ := moves
        obtain ⟨failure, error, _⟩ := h n f outcome clock conclusion rfl hf (of.jobId.trans e) hc
        cases aside failure error
      | fail =>
        cases about
        obtain ⟨rfl, rfl, _⟩ := moves
        obtain ⟨failure, error, retryable⟩ := h n f outcome clock _ rfl hf (of.jobId.trans e) hc
        cases error
        exact fun _ => retryable
      | _ => trivial
    | _ => trivial

/-- The job has not succeeded, and it is in the dead letters once its attempts have run out. -/
structure Exhausting (v : JobView) : Prop where
  alive : ∀ job, v.row = some job → job.jobType ∈ plainTypes → job.status ≠ .succeeded
  dead : ∀ job, v.row = some job → job.jobType ∈ plainTypes → job.status = .deadLettered →
    job.maxAttempts ≤ job.attempts

/-- A job that has not ended is still being tried. -/
lemma Exhausting.of_status {row : InteractionJob} {events : List JobEvent}
    {letters : List DeadLetterJob} (status : row.status ≠ .succeeded ∧ row.status ≠ .deadLettered) :
    Exhausting ⟨some row, events, letters⟩ := by
  refine ⟨?_, ?_⟩
  · rintro _ ⟨⟩ _
    exact status.1
  · rintro _ ⟨⟩ _ e
    exact absurd e status.2

lemma exhausting_of_life {v v' : JobView} {l : Label} (step : Life cfg v l v')
    (fails : failing v l) : Exhausting v' := by
  cases step with
  | create pristine =>
    obtain ⟨new, rfl⟩ := pristine
    exact .of_status (by simp [NewJob.row])
  | succeed =>
    refine ⟨?_, ?_⟩
    · rintro _ ⟨⟩ type
      exact absurd type fails
    · rintro _ ⟨⟩ type
      exact absurd type fails
  | @bury _ letters job failure clock gone =>
    refine ⟨?_, ?_⟩
    · rintro _ ⟨⟩ _
      simp
    · rintro _ ⟨⟩ type _
      -- a failure that may be retried is not, so there was no attempt left
      by_contra exhausted
      have left : job.attempts < job.maxAttempts := Nat.lt_of_not_le exhausted
      rw [Failure.nextRunAt_of_lt (fails type) left] at gone
      cases gone
  | _ => exact .of_status (by simp)

/-- What the history counts. -/
def timesDeferred (q : Queue) (id : UUID) : ℕ := q.history.count (.deferred id)

def timesFailed (q : Queue) (id : UUID) : ℕ := q.history.count (.failed id)

def timesDeadLettered (q : Queue) (id : UUID) : ℕ := q.history.count (.deadLettered id)

/-- The account of a job whose executions all failed in a way that may be retried. -/
structure Exhausted (cfg : Settings) (text : Text) (w : World) (job : InteractionJob) : Prop where
  unfinished : job.status ≠ .deadLettered → job.status ≠ .succeeded ∧
    timesFailed w.db.queue job.id < job.maxAttempts ∧
    timesDeferred w.db.queue job.id = timesFailed w.db.queue job.id ∧
    w.db.queue.timesClaimed job.id ≤ timesFailed w.db.queue job.id + 1 ∧
    timesDeadLettered w.db.queue job.id = 0
  finished : job.status = .deadLettered →
    timesFailed w.db.queue job.id = job.maxAttempts ∧
    w.db.queue.timesClaimed job.id = job.maxAttempts ∧
    timesDeferred w.db.queue job.id = job.maxAttempts - 1 ∧
    timesDeadLettered w.db.queue job.id = 1 ∧
    ∃ letter, w.db.queue.deadLetterJobs.filter (·.originalJobId = job.id) = [letter] ∧
      letter.attempts = job.maxAttempts
  final : job.status = .deadLettered → ∀ later w',
    Run (World.step cfg text) (NoTimeout cfg) w later w' →
    w'.db.queue.timesClaimed job.id = w.db.queue.timesClaimed job.id

/-- The history and the view count the same. -/
lemma count_view {q : Queue} {id : UUID} {e : JobEvent} (h : e.job = id) :
    q.history.count e = (view q id).events.count e := by
  unfold view
  rw [List.count_filter (by simpa using h)]

/-- A job whose executions all failed in a way that may be retried is accounted for. -/
theorem exhausted_of_run {id : UUID} (run : Run (World.step cfg text)
      (fun w a => NoTimeout cfg w a ∧ FailsRetryably cfg text id w a) w₀ as w)
    (init : Initial w₀) {job : InteractionJob} (mem : job ∈ w.db.queue.jobs.rows)
    (e : job.id = id) (type : job.jobType ∈ plainTypes) (limit : 1 ≤ job.maxAttempts) :
    Exhausted cfg text w job := by
  subst e
  have calm := run.mono fun _ _ h => h.1
  have fence : Fenced w := Fenced.run calm (fun _ _ h => h.unrecovered) (.of_idle init.2)
  have row := view_row mem
  have spent := (spent_of_run calm init job.id).balanced job row type
  have regular := regular_of_run run init job.id
  obtain ⟨within, waiting⟩ := withinLimit_of_run (calm.mono fun _ _ => spared_of_noTimeout) init
    job.id job row type limit
  have exhausting : Exhausting (view w.db.queue job.id) := by
    refine view_of_orderly run (fun _ _ h => h.1) init job.id ?_ (fun _ _ h => h.2.steps)
      fun _ _ _ _ step _ fails => exhausting_of_life step fails
    exact ⟨fun _ h => (nomatch h), fun _ h => (nomatch h)⟩
  have lettered := lettered_of_run calm init job.id
  have claims : w.db.queue.timesClaimed job.id = job.attempts := by
    rw [timesClaimed_view, regular.attempts job row]
  have buried : timesDeadLettered w.db.queue job.id = (view w.db.queue job.id).letters.length :=
    (count_view rfl).trans (regular.letters job row).symm
  have deferrals : timesDeferred w.db.queue job.id =
    (view w.db.queue job.id).events.count (.deferred job.id) := count_view rfl
  have failures : timesFailed w.db.queue job.id =
    (view w.db.queue job.id).events.count (.failed job.id) := count_view rfl
  rw [← deferrals, ← failures] at spent
  refine ⟨fun unfinished => ?_, fun finished => ?_, fun finished later w' run' => ?_⟩
  · have alive := exhausting.alive job row type
    have unburied : timesDeadLettered w.db.queue job.id = 0 := by
      rw [buried, lettered.alive job row unfinished, List.length_nil]
    have counts : timesFailed w.db.queue job.id < job.maxAttempts ∧
        timesDeferred w.db.queue job.id = timesFailed w.db.queue job.id ∧
        job.attempts ≤ timesFailed w.db.queue job.id + 1 := by
      cases status : job.status with
      | pending =>
        obtain ⟨attempts, failed⟩ := spent.of_waiting (.inl status)
        have := waiting (.inl status)
        omega
      | deferred =>
        obtain ⟨attempts, failed⟩ := spent.of_waiting (.inr status)
        have := waiting (.inr status)
        omega
      | running =>
        obtain ⟨attempts, failed⟩ := spent.of_running status
        omega
      | succeeded => exact absurd status alive
      | failed => exact ((regular.wellFormed job row).notFailed status).elim
      | deadLettered => exact absurd status unfinished
    exact ⟨alive, counts.1, counts.2.1, claims ▸ counts.2.2, unburied⟩
  · obtain ⟨letter, one, attempts⟩ := lettered.dead job row finished
    rw [finished] at spent
    obtain ⟨failed, deferred⟩ := spent
    have all : job.attempts = job.maxAttempts :=
      le_antisymm within (exhausting.dead job row type finished)
    have one' : timesDeadLettered w.db.queue job.id = 1 := by
      rw [buried, one, List.length_singleton]
    exact ⟨failed.symm.trans all, claims.trans all, by omega, one', letter, one, attempts.trans all⟩
  · have timely : Run (World.step cfg text) (Timely cfg text) w later w' :=
      (fence.strengthen run' fun _ _ calm => calm.unrecovered).mono fun _ _ h => timely_of_fenced h.1
    have same := view_of_terminal timely fence.sound mem (.inr finished)
    rw [timesClaimed_view, timesClaimed_view, same]

/-! ### One failure -/

/-- All settings of retries are positive. -/
structure PositiveRetries (cfg : Settings) : Prop where
  recordingInitial : 0 < cfg.recordingInitialRetrySeconds
  recordingMax : 0 < cfg.recordingMaxRetrySeconds
  workflowBase : 0 < cfg.workflowBaseRetrySeconds
  workflowMax : 0 < cfg.workflowMaxRetrySeconds

/-- The telephony provider has no recording yet: `RecordingNotReady`. -/
def notReady (text : Text) : Work → Outcome → Bool
  | .recording snapshot, .recording answer =>
    match RecordingWorkerService.poll text snapshot answer with
    | .error (.notReady _) => true
    | _ => false
  | _, _ => false

/-- The recording is not to be had: `RecordingUnavailable`. -/
def unavailable (text : Text) : Work → Outcome → Bool
  | .recording snapshot, .recording answer =>
    match RecordingWorkerService.poll text snapshot answer with
    | .error (.unavailable _) => true
    | _ => false
  | _, _ => false

/-- The delay of the `n`-th deferral, in seconds. -/
def retryDelay (cfg : Settings) (notReady : Bool) (n : ℕ) : ℤ :=
  if notReady then
    min (min (cfg.recordingInitialRetrySeconds * 2 ^ (n - 1)) cfg.recordingMaxRetrySeconds)
      cfg.workflowMaxRetrySeconds
  else min (cfg.workflowBaseRetrySeconds * 2 ^ (n - 1)) cfg.workflowMaxRetrySeconds

lemma doubling_le (base : ℕ) (n : ℕ) : (base : ℤ) * 2 ^ (n - 1) ≤ base * 2 ^ (n + 1 - 1) :=
  mul_le_mul_of_nonneg_left (pow_le_pow_right₀ one_le_two (Nat.sub_le_sub_right (Nat.le_succ n) 1))
    (Int.natCast_nonneg base)

/-- No delay is shorter than the one before. -/
lemma retryDelay_mono (kind : Bool) (n : ℕ) :
    retryDelay cfg kind n ≤ retryDelay cfg kind (n + 1) := by
  unfold retryDelay
  split
  · exact min_le_min (min_le_min (doubling_le _ n) le_rfl) le_rfl
  · exact min_le_min (doubling_le _ n) le_rfl

lemma retryDelay_le (kind : Bool) (n : ℕ) : retryDelay cfg kind n ≤ cfg.workflowMaxRetrySeconds := by
  unfold retryDelay
  split <;> exact min_le_right _ _

/-- What the handler computes for a failure, when the snapshot shows the attempts of the row. -/
lemma nextDelay_eq (positive : PositiveRetries cfg) {work : Work} {outcome : Outcome} {clock : Clock}
    {failure : Failure} {job : InteractionJob} (of : WorkOf job.toJobIdentity work)
    (type : job.jobType ∈ plainTypes) (attempts : ∀ n, attempts? work = some n → n = job.attempts)
    (hc : work.conclusion cfg text clock outcome = some (.error failure)) :
    (retryPolicy cfg).nextDelay job.attempts failure.retryAfterSeconds =
      retryDelay cfg (notReady text work outcome) job.attempts := by
  cases concludes_of_conclusion hc with
  | unanalysed =>
    cases of with
    | analysis _ type' => simp [plainTypes, type'] at type
  | @unfetched snapshot answer e polled =>
    have attempts : snapshot.attempts = job.attempts := attempts _ rfl
    cases e with
    | notReady message =>
      have kind : notReady text (.recording snapshot) (.recording answer) = true := by
        simp only [notReady, polled]
      -- a delay of zero would count as absent, and the handler would take its own
      have delay : (0 : ℤ) < min ((cfg.recordingInitialRetrySeconds : ℤ) * 2 ^ (job.attempts - 1))
          cfg.recordingMaxRetrySeconds :=
        lt_min (mul_pos (Int.natCast_pos.2 positive.recordingInitial) (pow_pos two_pos _))
          (Int.natCast_pos.2 positive.recordingMax)
      rw [kind]
      simp only [RecordingWorkerService.failureOf, RecordingWorkerService.nextRecordingDelay,
        attempts, RetryPolicy.nextDelay, if_pos delay, retryDelay, retryPolicy, if_true]
    | unavailable _ | other _ =>
      have kind : notReady text (.recording snapshot) (.recording answer) = false := by
        simp only [notReady, polled]
      rw [kind]
      rfl
  | unprocessed => rfl

/-- A failure may be retried, unless the recording is not to be had. -/
lemma retryable_eq {work : Work} {outcome : Outcome} {clock : Clock} {failure : Failure}
    {job : InteractionJob} (of : WorkOf job.toJobIdentity work) (type : job.jobType ∈ plainTypes)
    (hc : work.conclusion cfg text clock outcome = some (.error failure)) :
    failure.retryable = !unavailable text work outcome := by
  cases concludes_of_conclusion hc with
  | unanalysed =>
    cases of with
    | analysis _ type' => simp [plainTypes, type'] at type
  | unfetched polled =>
    simp only [unavailable, polled]
    split
    case h_1 e =>
      cases e
      rfl
    case h_2 other =>
      unfold RecordingWorkerService.failureOf
      split
      · rfl
      · exact absurd rfl (other _)
      · rfl
  | unprocessed => rfl

/-- An execution that finds out that the recording is not to be had fails. -/
lemma conclusion_of_unavailable {work : Work} {outcome : Outcome} {clock : Clock}
    (gone : unavailable text work outcome) :
    ∃ failure, work.conclusion cfg text clock outcome = some (.error failure) := by
  unfold unavailable at gone
  split at gone
  case h_1 snapshot answer =>
    split at gone
    case h_1 message polled =>
      refine ⟨RecordingWorkerService.failureOf cfg snapshot (.unavailable message), ?_⟩
      simp only [Work.conclusion, RecordingWorkerService.process, polled]
    case h_2 => cases gone
  case h_2 => cases gone

/-- What a reported failure of a job does: one entry in the error log of its interaction, the dead
letters if the recording is not to be had or no attempt is left, and a deferral with its delay
otherwise. -/
structure FailureHandled (cfg : Settings) (w w' : World) (job : InteractionJob) (failure : Failure)
    (clock : Clock) (notReady unavailable : Bool) : Prop where
  logged : ∃ log, errorLog? w.db job.interactionId = some log ∧
    errorLog? w'.db job.interactionId =
      some (log ++ [⟨failure.stage, failure.errorCode, failure.errorMessage, clock 1⟩])
  elsewhere : ∀ id ≠ job.interactionId, errorLog? w'.db id = errorLog? w.db id
  deadLettered : unavailable ∨ job.maxAttempts ≤ job.attempts →
    (∃ row ∈ w'.db.queue.jobs.rows, row.id = job.id ∧ row.status = .deadLettered) ∧
    ∃ letter, w'.db.queue.deadLetterJobs.filter (·.originalJobId = job.id) = [letter] ∧
      letter.attempts = job.attempts
  deferred : unavailable = false → job.attempts < job.maxAttempts →
    timesDeferred w'.db.queue job.id = timesDeferred w.db.queue job.id + 1 ∧
    ∃ row ∈ w'.db.queue.jobs.rows, row.id = job.id ∧ row.status = .deferred ∧
      row.runAfter =
        clock 0 + seconds (retryDelay cfg notReady (timesDeferred w'.db.queue job.id))

lemma report_failure_db {n : ℕ} {f : InFlight} {outcome : Outcome} {clock : Clock}
    {failure : Failure} {job : InteractionJob} (hf : w.inflight[n]? = some f)
    (hc : f.work.conclusion cfg text clock outcome = some (.error failure))
    (mem : job ∈ w.db.queue.jobs.rows) (id : job.id = f.jobId) :
    (World.step cfg text w (.report n outcome clock)).db = w.db.handle cfg clock job failure := by
  have run : Tx.conclude cfg clock f.jobId (.error failure) w.db =
      .ok ⟨⟩ (w.db.handle cfg clock job failure) := by
    simp only [Tx.conclude, Tx.handleFailure, Program.bind_of_ok Program.get_run, ← id,
      Queue.get?_of_mem mem, Program.modify_run]
  simp only [World.step, World.report, hf, hc, World.transact, commit, run]

/-- Without a next time, the row is a dead letter. -/
lemma mem_handle_of_none {clock : Clock} {failure : Failure} {job : InteractionJob}
    (mem : job ∈ w.db.queue.jobs.rows) (none : failure.nextRunAt cfg (clock 0) job = none) :
    job.deadLetter failure.errorCode failure.errorMessage (clock 2) ∈
      (w.db.handle cfg clock job failure).queue.jobs.rows := by
  have m : Move cfg w.db (.fail job failure clock) (w.db.handle cfg clock job failure) := .fail mem
  rw [m.effect.rows]
  exact .inr (.inr (by simp [Label.after?, none]))

/-- With one, it is deferred to it, once more than before. -/
lemma mem_handle_of_some {clock : Clock} {failure : Failure} {job : InteractionJob} {runAfter : Time}
    (mem : job ∈ w.db.queue.jobs.rows)
    (next : failure.nextRunAt cfg (clock 0) job = some runAfter) :
    job.defer runAfter failure.errorCode failure.errorMessage ∈
        (w.db.handle cfg clock job failure).queue.jobs.rows ∧
      timesDeferred (w.db.handle cfg clock job failure).queue job.id =
        timesDeferred w.db.queue job.id + 1 := by
  have m : Move cfg w.db (.fail job failure clock) (w.db.handle cfg clock job failure) := .fail mem
  constructor
  · rw [m.effect.rows]
    exact .inr (.inr (by simp [Label.after?, next]))
  · unfold timesDeferred
    rw [m.effect.history]
    simp [Label.events, next]

/-- A failure that is reported of a job whose lock never timed out. -/
theorem failureHandled_of_run (positive : PositiveRetries cfg)
    (run : Run (World.step cfg text) (NoTimeout cfg) w₀ as w) (init : Initial w₀)
    {job : InteractionJob} (mem : job ∈ w.db.queue.jobs.rows) (type : job.jobType ∈ plainTypes)
    {n : ℕ} {f : InFlight} {outcome : Outcome} {clock : Clock} {failure : Failure}
    (hf : w.inflight[n]? = some f) (id : job.id = f.jobId)
    (hc : f.work.conclusion cfg text clock outcome = some (.error failure)) :
    FailureHandled cfg w (World.step cfg text w (.report n outcome clock)) job failure clock
      (notReady text f.work outcome) (unavailable text f.work outcome) := by
  have fence : Fenced w := Fenced.run run (fun _ _ h => h.unrecovered) (.of_idle init.2)
  obtain ⟨row, holds⟩ := fence.holds f (List.mem_of_getElem? hf)
  obtain rfl : row = job := Table.eq_of_key holds.mem mem (holds.of.jobId.symm.trans id.symm)
  have m : Move cfg w.db (.fail row failure clock) (w.db.handle cfg clock row failure) := .fail mem
  have spent := ((spent_of_run run init row.id).balanced row (view_row mem) type).of_running
    holds.running
  have counted : timesDeferred w.db.queue row.id =
    (view w.db.queue row.id).events.count (.deferred row.id) := count_view rfl
  -- each attempt before this one was deferred
  have number : row.attempts = timesDeferred w.db.queue row.id + 1 := counted ▸ spent.1
  obtain ⟨log, known⟩ := Option.isSome_iff_exists.1 (known_of_run run init row mem)
  have after := report_failure_db hf hc mem id
  have retryable := retryable_eq holds.of type hc
  constructor
  · refine ⟨log, known, ?_⟩
    rw [after, m.errorLog, known]
    simp [Label.entries]
  · intro id ne
    rw [after, m.errorLog]
    simp [Label.entries, ne]
  · intro gone
    have none : failure.nextRunAt cfg (clock 0) row = none := by
      rcases gone with permanent | reached
      · exact Failure.nextRunAt_of_permanent (by rw [retryable, permanent]; rfl)
      · exact Failure.nextRunAt_of_le reached
    let dead := row.deadLetter failure.errorCode failure.errorMessage (clock 2)
    have buried :
        dead ∈ (World.step cfg text w (.report n outcome clock)).db.queue.jobs.rows := by
      rw [after]
      exact mem_handle_of_none mem none
    have calm : NoTimeout cfg w (.report n outcome clock) := by
      rintro job ⟨recovery, recovers, _⟩
      cases recovers
    have lettered := lettered_of_run (run.snoc calm) init dead.id
    exact ⟨⟨dead, buried, rfl, rfl⟩, lettered.dead dead (view_row buried) rfl⟩
  · intro available left
    let runAfter := clock 0 + seconds ((retryPolicy cfg).nextDelay row.attempts
      failure.retryAfterSeconds)
    have next : failure.nextRunAt cfg (clock 0) row = some runAfter :=
      Failure.nextRunAt_of_lt (by rw [retryable, available]; rfl) left
    obtain ⟨there, deferrals⟩ := mem_handle_of_some mem next
    rw [after]
    refine ⟨deferrals, _, there, rfl, rfl, ?_⟩
    rw [deferrals, ← number]
    simp only [InteractionJob.defer, runAfter, nextDelay_eq positive holds.of type holds.attempts hc]

/-- Where no lock times out, a job that does not go through the rate limiter is executed as often as
its limit says if each execution fails in a way that may be retried, and each failure is handled with
one entry in the error log, and with a delay that doubles up to its cap. An execution that finds out
that the recording is not to be had is a failure, and the last one. -/
theorem retries_exact (positive : PositiveRetries cfg)
    (run : Run (World.step cfg text) (NoTimeout cfg) w₀ as w) (init : Initial w₀) :
    ∀ job ∈ w.db.queue.jobs.rows, job.jobType ∈ plainTypes → 1 ≤ job.maxAttempts →
      (Run (World.step cfg text)
          (fun w a => NoTimeout cfg w a ∧ FailsRetryably cfg text job.id w a) w₀ as w →
        Exhausted cfg text w job) ∧
      (∀ n f outcome clock, w.inflight[n]? = some f → job.id = f.jobId →
        (unavailable text f.work outcome →
          ∃ failure, f.work.conclusion cfg text clock outcome = some (.error failure)) ∧
        ∀ failure, f.work.conclusion cfg text clock outcome = some (.error failure) →
          FailureHandled cfg w (World.step cfg text w (.report n outcome clock)) job failure clock
            (notReady text f.work outcome) (unavailable text f.work outcome)) ∧
      ∀ kind n, retryDelay cfg kind n ≤ retryDelay cfg kind (n + 1) ∧
        retryDelay cfg kind n ≤ cfg.workflowMaxRetrySeconds := by
  intro job mem type limit
  refine ⟨fun fails => exhausted_of_run fails init mem rfl type limit, ?_, fun kind n => ?_⟩
  · intro n f outcome clock hf id
    exact ⟨conclusion_of_unavailable, fun failure hc =>
      failureHandled_of_run positive run init mem type hf id hc⟩
  · exact ⟨retryDelay_mono kind n, retryDelay_le kind n⟩

/-- A report whose outcome can be read as a failure that may be retried. -/
lemma FailsRetryably.of_report {id : UUID} {n : ℕ} {outcome : Outcome} {clock : Clock}
    (fails : (w.inflight[n]?.bind (·.work.conclusion cfg text clock outcome)).all fun
      | .error failure => failure.retryable
      | .ok _ => false) :
    FailsRetryably cfg text id w (.report n outcome clock) := by
  intro n f outcome clock conclusion e hf _ hc
  cases e
  rw [hf, Option.bind_some, hc, Option.all_some] at fails
  cases conclusion with
  | error failure => exact ⟨failure, rfl, fails⟩
  | ok => cases fails

/-- The telephony provider says that there is no recording. -/
def recordingGone : Outcome := .recording (.response 410 (.ok .null) "")

/-- A recording job with two attempts, of which both fail. -/
def failedTwice : List Action := [
  .createIfAbsent { NewJob.plain 1 .recordingFetch [("call_sid", .str "c"),
    ("exotel_account_id", .str "a")] with maxAttempts := some 2 },
  .claimRecordings "first" 1 (.at 0),
  .report 0 recordingLost fun _ => seconds 1,
  .claimRecordings "second" 1 (.at (seconds 3600)),
  .report 0 recordingLost fun _ => seconds 3601]

theorem retries_exact_plain :
    (∃ job ∈ (after failedTwice).db.queue.jobs.rows, job.status = .deadLettered ∧
      Exhausted settings .plain (after failedTwice) job) ∧
    ∃ job ∈ (after claimedOnce).db.queue.jobs.rows, ∃ failure,
      FailureHandled settings (after claimedOnce)
        (World.step settings .plain (after claimedOnce) (.report 0 recordingGone fun _ => seconds 1))
        job failure (fun _ => seconds 1) false true := by
  have positive : PositiveRetries settings := ⟨by decide, by decide, by decide, by decide⟩
  have fails : ∀ id w a, (∀ n outcome clock, a ≠ .report n outcome clock) →
      FailsRetryably settings .plain id w a :=
    fun _ _ _ h n _ outcome clock _ e => absurd e (h n outcome clock)
  have run : Run (World.step settings .plain) (NoTimeout settings) (.ofInteraction .plain)
      failedTwice (after failedTwice) := .of_checked (by decide)
  have failing : Run (World.step settings .plain) (fun w a => NoTimeout settings w a ∧
      FailsRetryably settings .plain 1 w a) (.ofInteraction .plain) failedTwice (after failedTwice) :=
    .cons ⟨by decide, fails _ _ _ nofun⟩ (.cons ⟨by decide, fails _ _ _ nofun⟩
      (.cons ⟨by decide, .of_report (by decide)⟩ (.cons ⟨by decide, fails _ _ _ nofun⟩
        (.cons ⟨by decide, .of_report (by decide)⟩ .nil))))
  have claimed : Run (World.step settings .plain) (NoTimeout settings) (.ofInteraction .plain)
      claimedOnce (after claimedOnce) := .of_checked (by decide)
  constructor
  · obtain ⟨exhausted, -⟩ := retries_exact positive run ⟨rfl, rfl⟩ _ (List.mem_singleton.2 rfl)
      (by decide) (by decide)
    exact ⟨_, List.mem_singleton.2 rfl, by decide, exhausted failing⟩
  · obtain ⟨-, handled, -⟩ := retries_exact positive claimed ⟨rfl, rfl⟩ _
      (List.mem_singleton.2 rfl) (by decide) (by decide)
    obtain ⟨failing, done⟩ := handled 0 _ recordingGone (fun _ => seconds 1) rfl rfl
    obtain ⟨failure, hc⟩ := failing (by decide)
    exact ⟨_, List.mem_singleton.2 rfl, failure, done failure hc⟩

end PostCall.Properties
