import PostCall.Library.Run
import PostCall.Model.LlmWorker

/-!
# Moves

What the transactions are made of. A move changes the row of one job, as one operation of the job
repository does, or inserts one, or leaves the queue alone. Two moves are compound, because nothing
may come between their parts: a failure is written down, logged and decided at once, and a job that
succeeds queues its successors with it. A label says which move it is, with the row before it.

The lemmas say what a move leaves: rows are never removed, their identities never change, and a row
that no label names stays as it is.
-/

namespace PostCall.Machine
open PostCall.Library PostCall.Python PostCall.Model

/-- The name of a move. -/
inductive Label where
  | aside
  | create (row : InteractionJob)
  | claim (job : InteractionJob) (workerId : String) (now : Time)
  | recover (job : InteractionJob) (workerId : String) (now : Time)
  | succeed (job : InteractionJob) (result : Dict) (tokensUsed : ℤ) (now : Time)
      (children : List InteractionJob)
  | fail (job : InteractionJob) (failure : Failure) (clock : Clock)
  | refuse (job : InteractionJob) (clock : Clock) (admission : ReservationResult)

namespace Label

/-- The row, before the move, of the job that the move is about. -/
def job? : Label → Option InteractionJob
  | .aside | .create _ => none
  | .claim job _ _ | .recover job _ _ | .succeed job _ _ _ _ | .fail job _ _ | .refuse job _ _ =>
    some job

/-- The rows that the move inserts. -/
def born : Label → List InteractionJob
  | .create row => [row]
  | .succeed _ _ _ _ children => children
  | _ => []

end Label

namespace Label

/-- The row after the move. -/
def after? (cfg : Settings) : Label → Option InteractionJob
  | .aside | .create _ => none
  | .claim job workerId now => some (job.claim workerId now)
  | .recover job workerId now => some (job.recover workerId now)
  | .succeed job result tokensUsed now _ => some (job.markSucceeded result tokensUsed now)
  | .fail job failure clock =>
    match failure.nextRunAt cfg (clock 0) job with
    | some runAfter => some (job.defer runAfter failure.errorCode failure.errorMessage)
    | none => some (job.deadLetter failure.errorCode failure.errorMessage (clock 2))
  | .refuse job clock admission =>
    some (job.defer (clock 1 + seconds admission.deferSeconds) admission.reason
      "LLM admission deferred by rate limiter")

/-- What the move writes into the history, newest first. -/
def events (cfg : Settings) : Label → List JobEvent
  | .aside | .create _ => []
  | .claim job _ _ => [.claimed job.id]
  | .recover job _ _ => [.recovered job.id]
  | .succeed job _ _ _ _ => [.succeeded job.id]
  | .fail job failure clock =>
    match failure.nextRunAt cfg (clock 0) job with
    | some _ => [.deferred job.id, .failed job.id]
    | none => [.deadLettered job.id, .failed job.id]
  | .refuse job _ _ => [.deferred job.id, .refused job.id job.attempts]

/-- The dead letters that the move adds. -/
def letters (cfg : Settings) : Label → List DeadLetterJob
  | .fail job failure clock =>
    match failure.nextRunAt cfg (clock 0) job with
    | some _ => []
    | none => [.ofJob job failure.stage failure.errorCode failure.errorMessage]
  | _ => []

end Label

/-- Whether the event records a deferral or a dead letter. -/
def isRetryEvent (e : AuditEvent) : Bool := e.status = "deferred" || e.status = "dead_lettered"

/-- The error log of an interaction, if it has a row. -/
def errorLog? (db : Db) (id : UUID) : Option (List ErrorEntry) :=
  (db.interactions.find? id).map (·.errorLog)

/-- The error log after a change of an interaction. -/
lemma errorLog?_updateInteraction {db : Db} {id id' : UUID} {f : Interaction → Interaction} {same} :
    errorLog? (db.updateInteraction id f same) id' =
      if id' = id then (db.interactions.find? id').map (fun i => (f i).errorLog)
      else errorLog? db id' := by
  simp only [errorLog?, Db.updateInteraction, Table.find?_modify]
  split
  · rw [Option.map_map]
    rfl
  · rfl

/-- A change that leaves the queue, the error logs and the record of retries alone. -/
structure Aside (db db' : Db) : Prop where
  queue : db'.queue = db.queue
  errorLog : ∀ id, errorLog? db' id = errorLog? db id
  retries : db'.auditEvents.filter isRetryEvent = db.auditEvents.filter isRetryEvent

/-- A row as its insertion makes it. -/
def Pristine (cfg : Settings) (row : InteractionJob) : Prop := ∃ new : NewJob, row = new.row cfg

/-- The moves. -/
inductive Move (cfg : Settings) : Db → Label → Db → Prop where
  | aside {db db'} :
    Aside db db' →
    Move cfg db .aside db'
  | create {db row queue} :
    Pristine cfg row →
    (errorLog? db row.interactionId).isSome →
    db.queue.add? row = some queue →
    Move cfg db (.create row) { db with queue := queue }
  | claim {db job workerId now} :
    job ∈ db.queue.jobs.rows →
    job.status = .pending ∨ job.status = .deferred →
    job.runAfter ≤ now →
    Move cfg db (.claim job workerId now) (db.mapQueue (·.claim workerId now job.id))
  | recover {db job workerId now} {moved : UUID → Time} :
    job ∈ db.queue.jobs.rows →
    job.status = .running →
    moved job.id = now →
    Move cfg db (.recover job workerId now) (db.mapQueue (·.recover workerId moved job.id))
  | succeed {db job result tokensUsed now children queue} :
    job ∈ db.queue.jobs.rows →
    job.status = .running →
    (∀ row ∈ children, Pristine cfg row ∧ (errorLog? db row.interactionId).isSome) →
    (db.queue.markSucceeded job.id result tokensUsed now).addAll? children = some queue →
    Move cfg db (.succeed job result tokensUsed now children) { db with queue := queue }
  | fail {db job failure clock} :
    job ∈ db.queue.jobs.rows →
    Move cfg db (.fail job failure clock) (db.handle cfg clock job failure)
  | refuse {db job clock admission} :
    job ∈ db.queue.jobs.rows →
    job.status = .running →
    Move cfg db (.refuse job clock admission) (db.deferRefused clock job admission)

/-- What a move adds to the error log of an interaction. -/
def Label.entries : Label → UUID → List ErrorEntry
  | .fail job failure clock, id =>
    if id = job.interactionId then
      [⟨failure.stage, failure.errorCode, failure.errorMessage, clock 1⟩]
    else []
  | _, _ => []

namespace Aside

lemma refl (db : Db) : Aside db db := ⟨rfl, fun _ => rfl, rfl⟩

lemma trans {db db' db'' : Db} (h : Aside db db') (h' : Aside db' db'') : Aside db db'' :=
  ⟨h'.queue.trans h.queue, fun id => (h'.errorLog id).trans (h.errorLog id),
    h'.retries.trans h.retries⟩

instance : IsPreorder Db Aside where
  refl := refl
  trans _ _ _ := trans

lemma usage {db : Db} {usage : UsageTable} : Aside db { db with usage := usage } :=
  ⟨rfl, fun _ => rfl, rfl⟩

lemma leads {db : Db} {leads : LeadTable} : Aside db { db with leads := leads } :=
  ⟨rfl, fun _ => rfl, rfl⟩

lemma emit {db : Db} {job : InteractionJob} {stage status message : String} {code : Option String}
    (h : status ≠ "deferred" ∧ status ≠ "dead_lettered") :
    Aside db (db.emit job stage status message code) :=
  ⟨rfl, fun _ => rfl, by simp [Db.emit, isRetryEvent, AuditEvent.ofJob, h]⟩

lemma updateInteraction {db : Db} {id : UUID} {f : Interaction → Interaction} {same}
    (keep : ∀ i, (f i).errorLog = i.errorLog) : Aside db (db.updateInteraction id f same) := by
  refine ⟨rfl, fun id' => ?_, rfl⟩
  rw [errorLog?_updateInteraction]
  split
  · simp only [keep, errorLog?]
  · rfl

end Aside

/-! ### What a move leaves -/

/-- A move replaces the row of its job, inserts rows under new ids, and adds to the history and to
the dead letters. -/
structure Effect (cfg : Settings) (db : Db) (l : Label) (db' : Db) : Prop where
  rows : ∀ row, row ∈ db'.queue.jobs.rows ↔
    (row ∈ db.queue.jobs.rows ∧ ∀ job, l.job? = some job → row.id ≠ job.id) ∨
      row ∈ l.born ∨ l.after? cfg = some row
  fresh : ∀ row ∈ l.born, db.queue.get? row.id = none
  history : db'.queue.history = l.events cfg ++ db.queue.history
  letters : db'.queue.deadLetterJobs = db.queue.deadLetterJobs ++ l.letters cfg

/-- The rows after a change of one of them. -/
lemma mem_updateJob {q : Queue} {job row : InteractionJob} {event : JobEvent}
    {f : InteractionJob → InteractionJob} {same} (h : job ∈ q.jobs.rows) :
    row ∈ (q.updateJob job.id event f same).jobs.rows ↔
      (row ∈ q.jobs.rows ∧ row.id ≠ job.id) ∨ f job = row := by
  constructor
  · intro h'
    rcases Queue.of_mem_updateJob h h' with rfl | h'
    · exact .inr rfl
    · exact .inl h'
  · rintro (⟨h', ne⟩ | rfl)
    · exact Queue.mem_updateJob_of_ne h' ne
    · exact Queue.mem_updateJob_self h

namespace Move

variable {cfg : Settings} {db db' : Db} {l : Label}

/-- The job of a move is in the table. -/
lemma job_mem (m : Move cfg db l db') {job : InteractionJob} (h : l.job? = some job) :
    job ∈ db.queue.jobs.rows := by
  cases m with
  | aside => cases h
  | create => cases h
  | claim mem => cases h; exact mem
  | recover mem => cases h; exact mem
  | succeed mem => cases h; exact mem
  | fail mem => cases h; exact mem
  | refuse mem => cases h; exact mem

theorem effect (m : Move cfg db l db') : Effect cfg db l db' := by
  cases m with
  | aside h => exact ⟨by simp [h.queue, Label.job?, Label.born, Label.after?], by simp [Label.born],
      by simp [h.queue, Label.events], by simp [h.queue, Label.letters]⟩
  | create _ _ h =>
    obtain ⟨rows, letters, history, fresh⟩ := Queue.add?_eq_some h
    exact ⟨by simp [rows, Label.job?, Label.born, Label.after?], by simpa [Label.born] using fresh,
      by simp [history, Label.events], by simp [letters, Label.letters]⟩
  | claim mem =>
    refine ⟨fun row => ?_, by simp [Label.born], rfl, (List.append_nil _).symm⟩
    rw [Db.mapQueue_queue, Queue.claim, mem_updateJob mem]
    simp [Label.job?, Label.born, Label.after?]
  | recover mem _ e =>
    subst e
    refine ⟨fun row => ?_, by simp [Label.born], rfl, (List.append_nil _).symm⟩
    rw [Db.mapQueue_queue, Queue.recover, mem_updateJob mem]
    simp [Label.job?, Label.born, Label.after?]
  | succeed mem _ _ h =>
    obtain ⟨rows, letters, history, fresh⟩ := Queue.addAll?_eq_some h
    refine ⟨fun row => ?_, fun row hr => ?_, history, letters.trans (List.append_nil _).symm⟩
    case refine_2 =>
      have none := fresh row hr
      rw [Queue.markSucceeded, Queue.get?_updateJob] at none
      split at none
      · exact Option.map_eq_none_iff.1 none
      · exact none
    -- the rows are those of the completion, and the children behind them
    rw [rows, List.mem_append, Queue.markSucceeded, mem_updateJob mem]
    simp only [Label.job?, Label.born, Label.after?, Option.some.injEq, forall_eq']
    tauto
  | @fail job failure clock mem =>
    have mem : job ∈ (db.queue.recordFailure job.id).jobs.rows := mem
    cases h : failure.nextRunAt cfg (clock 0) job with
    | some runAfter =>
      refine ⟨?_, by simp [Label.born], ?_, ?_⟩
      all_goals rw [Db.handle_queue, h]
      · intro row
        simp only
        rw [Queue.defer, mem_updateJob mem]
        simp [Label.job?, Label.born, Label.after?, h, Queue.recordFailure]
      · simp only [Label.events, h]
        rfl
      · simp only [Label.letters, h, List.append_nil]
        rfl
    | none =>
      refine ⟨?_, by simp [Label.born], ?_, ?_⟩
      all_goals rw [Db.handle_queue, h]
      · intro row
        simp only [Queue.deadLetter]
        rw [mem_updateJob mem]
        simp [Label.job?, Label.born, Label.after?, h, Queue.recordFailure]
      · simp only [Label.events, h]
        rfl
      · simp only [Label.letters, h]
        rfl
  | @refuse job _ _ mem _ =>
    have mem : job ∈ (db.queue.recordRefusal job.id job.attempts).jobs.rows := mem
    refine ⟨fun row => ?_, by simp [Label.born], rfl, (List.append_nil _).symm⟩
    rw [Db.deferRefused_queue, Queue.defer, mem_updateJob mem]
    simp [Label.job?, Label.born, Label.after?, Queue.recordRefusal]

/-- What a move does to the error log of an interaction. -/
theorem errorLog (m : Move cfg db l db') (id : UUID) :
    errorLog? db' id = (errorLog? db id).map (· ++ l.entries id) := by
  have same : ∀ log : Option (List ErrorEntry), log.map (· ++ []) = log := by simp
  cases m with
  | aside h => rw [h.errorLog]; exact (same _).symm
  | @fail job failure clock mem =>
    -- the entry is written whether the job is deferred or dead-lettered
    have log : errorLog? (db.handle cfg clock job failure) id =
        errorLog? (db.appendError job.interactionId
          ⟨failure.stage, failure.errorCode, failure.errorMessage, clock 1⟩) id := by
      unfold Db.handle
      cases failure.nextRunAt cfg (clock 0) job <;> rfl
    rw [log, Db.appendError, errorLog?_updateInteraction]
    simp only [Label.entries]
    split
    · rw [errorLog?, Option.map_map]
      rfl
    · exact (same _).symm
  | create => exact (same _).symm
  | claim => exact (same _).symm
  | recover => exact (same _).symm
  | succeed => exact (same _).symm
  | refuse => exact (same _).symm

/-- A move keeps the identity of its job. -/
lemma identity_after {row job : InteractionJob} (h : l.after? cfg = some row)
    (e : l.job? = some job) : row.toJobIdentity = job.toJobIdentity := by
  cases l with
  | aside => cases e
  | create => cases e
  | claim => cases e; cases h; rfl
  | recover => cases e; cases h; rfl
  | succeed => cases e; cases h; rfl
  | fail =>
    cases e
    simp only [Label.after?] at h
    split at h <;> (cases h; rfl)
  | refuse => cases e; cases h; rfl

/-- A move about a job leaves a row of it. -/
lemma after_of_job (cfg : Settings) {job : InteractionJob} (e : l.job? = some job) :
    ∃ row, l.after? cfg = some row := by
  cases l with
  | aside => cases e
  | create => cases e
  | claim => exact ⟨_, rfl⟩
  | recover => exact ⟨_, rfl⟩
  | succeed => exact ⟨_, rfl⟩
  | fail =>
    simp only [Label.after?]
    split <;> exact ⟨_, rfl⟩
  | refuse => exact ⟨_, rfl⟩

/-- A move that leaves a row is about a job. -/
lemma job_of_after {row : InteractionJob} (h : l.after? cfg = some row) :
    ∃ job, l.job? = some job := by
  cases l with
  | aside => cases h
  | create => cases h
  | claim job => exact ⟨job, rfl⟩
  | recover job => exact ⟨job, rfl⟩
  | succeed job => exact ⟨job, rfl⟩
  | fail job => exact ⟨job, rfl⟩
  | refuse job => exact ⟨job, rfl⟩

/-- A row that a move is not about stays. -/
lemma mem_of_ne (m : Move cfg db l db') {row : InteractionJob} (h : row ∈ db.queue.jobs.rows)
    (ne : ∀ job, l.job? = some job → row.id ≠ job.id) : row ∈ db'.queue.jobs.rows :=
  (m.effect.rows row).2 (.inl ⟨h, ne⟩)

/-- A move about one job leaves the rows of the others. -/
lemma mem_of_others (m : Move cfg db l db') {job : InteractionJob} {jobs : List InteractionJob}
    (about : l.job? = some job) (other : ∀ row ∈ jobs, row.id ≠ job.id)
    (mem : ∀ row ∈ jobs, row ∈ db.queue.jobs.rows) : ∀ row ∈ jobs, row ∈ db'.queue.jobs.rows := by
  intro row h
  refine m.mem_of_ne (mem row h) fun job' e => ?_
  cases about.symm.trans e
  exact other row h

/-- Rows are never removed, and their identities never change. -/
theorem identity (m : Move cfg db l db') {row : InteractionJob} (h : row ∈ db.queue.jobs.rows) :
    ∃ row' ∈ db'.queue.jobs.rows, row'.toJobIdentity = row.toJobIdentity := by
  by_cases ne : ∀ job, l.job? = some job → row.id ≠ job.id
  · exact ⟨row, m.mem_of_ne h ne, rfl⟩
  · simp only [not_forall, not_not] at ne
    obtain ⟨job, e, same⟩ := ne
    obtain ⟨row', h'⟩ := after_of_job cfg e
    have : row = job := Table.eq_of_key h (m.job_mem e) same
    exact ⟨row', (m.effect.rows row').2 (.inr (.inr h')), this ▸ identity_after h' e⟩

/-- A row after a move has the identity of a row before it, or was inserted. -/
theorem of_mem (m : Move cfg db l db') {row : InteractionJob} (h : row ∈ db'.queue.jobs.rows) :
    (∃ row₀ ∈ db.queue.jobs.rows, row.toJobIdentity = row₀.toJobIdentity) ∨ row ∈ l.born := by
  rcases (m.effect.rows row).1 h with ⟨h, _⟩ | h | h
  · exact .inl ⟨row, h, rfl⟩
  · exact .inr h
  · obtain ⟨job, e⟩ := job_of_after h
    exact .inl ⟨job, m.job_mem e, identity_after h e⟩

/-- Every job is one of a recorded interaction. -/
theorem known (m : Move cfg db l db')
    (h : ∀ row ∈ db.queue.jobs.rows, (errorLog? db row.interactionId).isSome) :
    ∀ row ∈ db'.queue.jobs.rows, (errorLog? db' row.interactionId).isSome := by
  intro row mem
  rw [m.errorLog, Option.isSome_map]
  rcases m.of_mem mem with ⟨row₀, mem₀, same⟩ | born
  · rw [show row.interactionId = row₀.interactionId from congrArg JobIdentity.interactionId same]
    exact h row₀ mem₀
  · cases m with
    | create _ known => rw [List.mem_singleton.1 born]; exact known
    | succeed _ _ known => exact (known row born).2
    | aside => cases born
    | claim => cases born
    | recover => cases born
    | fail => cases born
    | refuse => cases born

end Move

/-! ### What a path leaves -/

section Path

variable {cfg : Settings} {ok : Db → Label → Prop} {db db' : Db}

/-- Rows are never removed, and their identities never change. -/
theorem Path.identity (p : Path (Move cfg) ok db db') {row : InteractionJob}
    (h : row ∈ db.queue.jobs.rows) :
    ∃ row' ∈ db'.queue.jobs.rows, row'.toJobIdentity = row.toJobIdentity := by
  refine p.invariant
    (I := fun s => ∃ row' ∈ s.queue.jobs.rows, row'.toJobIdentity = row.toJobIdentity)
    ⟨row, h, rfl⟩ fun s l s' found m _ => ?_
  obtain ⟨row', h', e⟩ := found
  obtain ⟨row'', h'', e'⟩ := m.identity h'
  exact ⟨row'', h'', e'.trans e⟩

/-- A key that is present stays present. -/
theorem Path.key (p : Path (Move cfg) ok db db') {key : String}
    (h : ∃ row ∈ db.queue.jobs.rows, row.idempotencyKey = key) :
    ∃ row ∈ db'.queue.jobs.rows, row.idempotencyKey = key := by
  obtain ⟨row, mem, e⟩ := h
  obtain ⟨row', mem', same⟩ := Path.identity p mem
  exact ⟨row', mem', (congrArg JobIdentity.idempotencyKey same).trans e⟩

/-- A row that no move of the path is about stays. -/
theorem Path.mem_of_ne (p : Path (Move cfg) ok db db') {row : InteractionJob}
    (h : row ∈ db.queue.jobs.rows)
    (ne : ∀ db l job, ok db l → l.job? = some job → row.id ≠ job.id) :
    row ∈ db'.queue.jobs.rows :=
  p.invariant (I := fun s => row ∈ s.queue.jobs.rows) h fun s l _ mem m hl =>
    m.mem_of_ne mem fun job e => ne s l job hl e

end Path

end PostCall.Machine
