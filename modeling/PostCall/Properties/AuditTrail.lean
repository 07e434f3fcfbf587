import PostCall.Properties.Deferrals

/-!
# The audit trail

The repository moves a job and writes no event; that is left to its callers. The failure handler and
the rate limiter's branch of the LLM worker follow each deferral and each dead letter with an event,
so the trail repeats what they did, in order. The recovery of stale locks moves a job back as well,
and nobody writes that down: the trail accounts for the deferrals of a job exactly if no recovery has
moved it.
-/

namespace PostCall.Properties
open PostCall.Library PostCall.Python PostCall.Model PostCall.Machine

variable {cfg : Settings} {text : Text} {w w₀ : World} {as : List Action} {db db' : Db} {l : Label}
  {id : UUID}

/-- The status that an operation of the repository gives the row of its job. -/
def movesTo : JobEvent → Option JobStatus
  | .claimed _ => some .running
  | .recovered _ | .deferred _ => some .deferred
  | .succeeded _ => some .succeeded
  | .deadLettered _ => some .deadLettered
  | .failed _ | .refused _ _ => none

/-- How often the repository moved the job to a status. -/
def transitions (q : Queue) (id : UUID) (status : JobStatus) : ℕ :=
  q.history.countP fun e => e.job = id && movesTo e = some status

/-- The number of events of a job with a status. -/
def audited (db : Db) (id : UUID) (status : String) : ℕ :=
  db.auditEvents.countP fun e => e.jobId = id && e.status = status

/-- The trail accounts for the retries and for the dead letters of a job. -/
structure FullTrail (db : Db) (id : UUID) : Prop where
  deferred : transitions db.queue id .deferred = audited db id "deferred"
  deadLettered : transitions db.queue id .deadLettered = audited db id "dead_lettered"

instance : Decidable (FullTrail db id) :=
  decidable_of_iff (_ ∧ _) ⟨fun h => ⟨h.1, h.2⟩, fun h => ⟨h.deferred, h.deadLettered⟩⟩

/-- The row of a job has the status that its latest transition moved it to. -/
structure Tracked (v : JobView) : Prop where
  unborn : v.row = none → v = .unborn
  status : ∀ job, v.row = some job → job.status = (v.events.findSome? movesTo).getD .pending

lemma tracked_of_life {v v' : JobView} (step : Life cfg v l v') (h : Tracked v) : Tracked v' := by
  refine ⟨fun none => absurd none step.row_ne_none, fun row hrow => ?_⟩
  cases step with
  | create pristine =>
    obtain ⟨new, rfl⟩ := pristine
    cases h.unborn rfl
    cases hrow
    rfl
  | claim => cases hrow; rfl
  | recover => cases hrow; rfl
  | succeed => cases hrow; rfl
  | retry => cases hrow; rfl
  | bury => cases hrow; rfl
  | refuse => cases hrow; rfl

/-- After every run, each row has the status of its latest transition. -/
theorem status_of_run (run : Run (World.step cfg text) anyStep w₀ as w) (init : Initial w₀) :
    ∀ job ∈ w.db.queue.jobs.rows,
      job.status = ((view w.db.queue job.id).events.findSome? movesTo).getD .pending := by
  intro job mem
  have tracked : Tracked (view w.db.queue job.id) := by
    have start : Tracked (view w₀.db.queue job.id) := by
      rw [view_of_initial init]
      exact ⟨fun _ => rfl, fun _ h => nomatch h⟩
    have steps : ∀ w a, Sound w → True → Steps cfg text w a job.id fun _ _ => True :=
      fun _ _ _ _ _ _ _ _ _ _ _ => trivial
    exact view_of_run run (sound_of_idle init.2) job.id start steps fun _ _ _ h step _ =>
      tracked_of_life step h
  exact tracked.status job (view_row mem)

/-! ### What the trail repeats of the history -/

/-- The operations that their callers write an event for. -/
def isTold : JobEvent → Bool
  | .deferred _ | .deadLettered _ => true
  | _ => false

/-- The operation that an event of the trail tells of. -/
def tells (e : AuditEvent) : Option JobEvent :=
  if e.status = "deferred" then some (.deferred e.jobId)
  else if e.status = "dead_lettered" then some (.deadLettered e.jobId)
  else none

/-- The operations that the trail tells of, in order. -/
def told (db : Db) : List JobEvent := db.auditEvents.filterMap tells

/-- The trail tells of every deferral and every dead letter that a caller made, in order. -/
def Repeats (db : Db) : Prop := told db = (db.queue.history.filter isTold).reverse

lemma told_of_filter {events : List AuditEvent} :
    (events.filter isRetryEvent).filterMap tells = events.filterMap tells := by
  rw [List.filterMap_filter]
  congr 1
  funext e
  -- an event that is no retry event tells nothing
  unfold isRetryEvent tells
  grind

/-- The same events of retries tell the same. -/
lemma told_of_same (h : db'.auditEvents.filter isRetryEvent = db.auditEvents.filter isRetryEvent) :
    told db' = told db := by
  unfold told
  rw [← told_of_filter, h, told_of_filter]

lemma told_emit {job : InteractionJob} {stage status message : String} {code : Option String} :
    told (db.emit job stage status message code) =
      told db ++ (tells (.ofJob job stage status message code)).toList := by
  unfold told
  rw [Db.emit, List.filterMap_append]
  cases e : tells (.ofJob job stage status message code) <;> simp [e]

/-- A move adds to the trail what it adds to the history. -/
lemma told_of_move (m : Move cfg db l db') :
    told db' = told db ++ ((l.events cfg).filter isTold).reverse := by
  have same : told db = told db ++ [] := (List.append_nil _).symm
  cases m with
  | aside h => exact (told_of_same h.retries).trans same
  | create => exact same
  | claim => exact same
  | recover => exact same
  | succeed => exact same
  | @fail job failure clock mem =>
    -- an event, whether the job is deferred or dead-lettered
    unfold Db.handle
    cases next : failure.nextRunAt cfg (clock 0) job with
    | some runAfter =>
      simp only [Label.events, next]
      rw [told_emit]
      rfl
    | none =>
      simp only [Label.events, next]
      rw [told_emit]
      rfl
  | refuse =>
    rw [Db.deferRefused, told_emit]
    rfl

/-- A move keeps the trail and the history together. -/
lemma Repeats.move (h : Repeats db) (m : Move cfg db l db') : Repeats db' := by
  unfold Repeats at *
  rw [told_of_move m, h, m.effect.history, List.filter_append, List.reverse_append]

/-- After every run the trail tells of every deferral and every dead letter that a caller made. -/
theorem repeats_of_run (run : Run (World.step cfg text) anyStep w₀ as w) (init : Initial w₀)
    (blank : w₀.db.auditEvents.filter isRetryEvent = []) : Repeats w.db := by
  have start : Repeats w₀.db := by
    unfold Repeats told
    rw [← told_of_filter, blank, init.1]
    rfl
  refine (run.invariant (I := fun w => Sound w ∧ Repeats w.db) ⟨sound_of_idle init.2, start⟩
    fun w a inv _ => ?_).2
  obtain ⟨sound, repeats⟩ := inv
  exact ⟨sound_step sound, (step_path cfg text sound a).invariant repeats fun _ _ _ h m _ => h.move m⟩

/-! ### Counting -/

/-- An event is told as often as it happened. -/
lemma Repeats.count (h : Repeats db) {e : JobEvent} (known : isTold e) :
    (told db).count e = db.queue.history.count e := by
  rw [h, List.count_reverse, List.count_filter known]

/-- The events of a job with a status are those that tell of one operation. -/
lemma audited_eq_count {status : String} {operation : JobEvent}
    (one : ∀ e : AuditEvent, tells e = some operation ↔ e.jobId = id ∧ e.status = status) :
    audited db id status = (told db).count operation := by
  rw [audited, told, List.count_filterMap]
  congr 1
  funext e
  rw [Bool.eq_iff_iff, Bool.and_eq_true, decide_eq_true_eq, decide_eq_true_eq, beq_iff_eq]
  exact (one e).symm

lemma audited_deferred : audited db id "deferred" = (told db).count (.deferred id) := by
  refine audited_eq_count fun e => ?_
  unfold tells
  grind

lemma audited_deadLettered : audited db id "dead_lettered" = (told db).count (.deadLettered id) := by
  refine audited_eq_count fun e => ?_
  unfold tells
  grind

/-- A job becomes a dead letter by this event only. -/
lemma transitions_deadLettered {q : Queue} :
    transitions q id .deadLettered = q.history.count (.deadLettered id) := by
  rw [transitions, List.count_eq_countP]
  congr 1
  funext e
  rw [Bool.eq_iff_iff]
  simp only [Bool.and_eq_true, decide_eq_true_eq, beq_iff_eq]
  cases e <;> simp [movesTo, JobEvent.job]

/-- A job is deferred by a caller or by a recovery. -/
lemma transitions_deferred {q : Queue} : transitions q id .deferred =
    q.history.count (.deferred id) + q.history.count (.recovered id) := by
  unfold transitions
  induction q.history with
  | nil => rfl
  | cons e history ih =>
    rw [List.countP_cons, List.count_cons, List.count_cons, ih]
    simp only [Bool.and_eq_true, decide_eq_true_eq, beq_iff_eq]
    cases e <;> simp [movesTo, JobEvent.job] <;> omega

/-! ### Recoveries -/

/-- The action finds no stale lock of the job. -/
def Unexpired (cfg : Settings) (id : UUID) (w : World) (a : Action) : Prop :=
  ∀ job, Recovers cfg w a job → job.id ≠ id

/-- A job whose lock was never found stale was not moved back. -/
lemma not_recovered_of_unexpired (run : Run (World.step cfg text) (Unexpired cfg id) w₀ as w)
    (init : Initial w₀) : .recovered id ∉ w.db.queue.history := by
  refine (run.invariant (I := fun w => Sound w ∧ .recovered id ∉ w.db.queue.history)
    ⟨sound_of_idle init.2, by simp [init.1, Queue.empty]⟩ fun w a inv unexpired => ?_).2
  obtain ⟨sound, never⟩ := inv
  refine ⟨sound_step sound, (step_path cfg text sound a).invariant
    (I := fun db => .recovered id ∉ db.queue.history) never fun db l db' never m allowed => ?_⟩
  rw [m.effect.history, List.mem_append, not_or]
  refine ⟨fun recovered => ?_, never⟩
  obtain ⟨job, about, own⟩ := Label.job_of_event recovered
  cases l with
  | recover =>
    cases about
    cases allowed with
    | recover timeout => exact unexpired _ timeout own.symm
    | report _ _ _ _ moves => exact moves.1.elim
  | fail =>
    simp only [Label.events] at recovered
    split at recovered <;> simp at recovered
  | _ => simp [Label.events] at recovered

/-- In every run, the trail accounts for the retries and dead letters of a job exactly if the job was
never moved back by a recovery; and it was not where no action found its lock stale. -/
theorem fullTrail_iff_unrecovered (run : Run (World.step cfg text) anyStep w₀ as w)
    (init : Initial w₀) (blank : w₀.db.auditEvents.filter isRetryEvent = []) :
    ∀ id, (FullTrail w.db id ↔ .recovered id ∉ w.db.queue.history) ∧
      (Run (World.step cfg text) (Unexpired cfg id) w₀ as w → FullTrail w.db id) := by
  intro id
  have repeats := repeats_of_run run init blank
  have deadLettered : transitions w.db.queue id .deadLettered = audited w.db id "dead_lettered" := by
    rw [transitions_deadLettered, audited_deadLettered, repeats.count rfl]
  have deferred : transitions w.db.queue id .deferred =
      audited w.db id "deferred" + w.db.queue.history.count (.recovered id) := by
    rw [transitions_deferred, audited_deferred, repeats.count rfl]
  have exact : FullTrail w.db id ↔ .recovered id ∉ w.db.queue.history := by
    rw [← List.count_eq_zero]
    constructor
    · intro h
      have := h.deferred
      omega
    · intro never
      exact ⟨by omega, deadLettered⟩
  exact ⟨exact, fun unexpired => exact.2 (not_recovered_of_unexpired unexpired init)⟩

/-- An analysis fails, and is claimed again. -/
def retriedOnce : List Action := [
  .createIfAbsent (.plain 1 .llmAnalysis),
  .claimAnalyses "worker" 1 (.at 0) (.at 0) fun _ _ => 0,
  .report 0 providerLost fun _ => seconds 1,
  .claimAnalyses "worker" 1 (.at (seconds 90)) (.at (seconds 90)) fun _ _ => seconds 90]

theorem fullTrail_iff_unrecovered_plain : FullTrail (after retriedOnce).db 1 ∧
    audited (after retriedOnce).db 1 "deferred" = 1 := by
  have run : Run (World.step settings .plain) anyStep (.ofInteraction .plain) retriedOnce
    (after retriedOnce) := .of_foldl retriedOnce
  exact ⟨(fullTrail_iff_unrecovered run ⟨rfl, rfl⟩ rfl 1).1.2 (by decide), by decide⟩

/-- A worker dies with its job, and the recovery moves the job back. -/
def movedBack : List Action := [
  .createIfAbsent (.plain 1 .signalJobs),
  .claimResults "worker" 1 (.at 0),
  .crash 0,
  .recoverStaleRunningJobs "recoverer" (.at (seconds 301))]

/-- The job is deferred, and no event says so. -/
theorem not_fullTrail : ¬ ∀ as id, FullTrail (after as).db id := by
  intro h
  have := h movedBack 1
  revert this
  decide

end PostCall.Properties
