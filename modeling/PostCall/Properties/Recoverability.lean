import PostCall.Machine.Regular

/-!
# No job is lost

A lock is held exactly by the running rows, so that a recovery finds every running row whose lock is
old enough, and a claim finds every other row that is not finished. A recovery followed by a claim
takes every unfinished job whose time has come.
-/

namespace PostCall.Properties
open PostCall.Library PostCall.Python PostCall.Model PostCall.Machine

variable {cfg : Settings} {text : Text} {w w₀ : World} {as : List Action}

/-- The job may be taken at a time: it waits and is due, or its lock has timed out. -/
def Due (cfg : Settings) (job : InteractionJob) (t : Time) : Prop :=
  (job.status = .pending ∨ job.status = .deferred → job.runAfter < t) ∧
    (job.status = .running → ∀ lockedAt, job.lockedAt = some lockedAt →
      lockedAt + seconds cfg.jobLockTimeoutSeconds < t)

/-- A running job that is due is stale. -/
lemma stale_of_due {job : InteractionJob} {t : Time} (well : WellFormed job) (due : Due cfg job t)
    (running : job.status = .running) : job.stale (Queue.lockCutoff cfg t) := by
  obtain ⟨lockedAt, locked⟩ := Option.isSome_iff_exists.1 (well.lockedAt.2 running)
  have late := due.2 running lockedAt locked
  have before : lockedAt < Queue.lockCutoff cfg t := lt_sub_iff_add_lt.2 late
  simp [InteractionJob.stale, running, locked, before]

/-- A recovery leaves a row for every unfinished job that is due, and the row is ready. -/
lemma ready_of_due {db : Db} {job : InteractionJob} (workerId : String)
    {recovery : RecoveryClock} {t : Time} (well : WellFormed job) (mem : job ∈ db.queue.jobs.rows)
    (unfinished : job.status ≠ .succeeded ∧ job.status ≠ .deadLettered)
    (due : Due cfg job recovery.now) (le : recovery.now ≤ t) (moved : recovery.moved job.id ≤ t) :
    ∃ row ∈ (recovered cfg workerId recovery db).queue.jobs.rows,
      row.toJobIdentity = job.toJobIdentity ∧ row.attempts = job.attempts ∧
        (row.status = .pending ∨ row.status = .deferred) ∧ row.runAfter ≤ t := by
  by_cases running : job.status = .running
  · exact ⟨_, mem_recovered_of_stale mem (stale_of_due well due running), rfl, rfl, .inr rfl, moved⟩
  · have waiting : job.status = .pending ∨ job.status = .deferred := by
      cases status : job.status with
      | pending => exact .inl rfl
      | deferred => exact .inr rfl
      | running => exact absurd status running
      | succeeded => exact absurd status unfinished.1
      | failed => exact absurd status well.notFailed
      | deadLettered => exact absurd status unfinished.2
    -- only a running row is stale, so the recovery leaves this one alone
    have fresh : ¬ job.stale (Queue.lockCutoff cfg recovery.now) := fun stale =>
      running (InteractionJob.running_of_stale stale)
    exact ⟨job, mem_recovered_of_fresh mem fresh, rfl, rfl, waiting, (due.1 waiting).le.trans le⟩

/-- In every state that a run reaches, the status of a row determines its lock and is never `FAILED`,
and a recovery followed by a claim of its type takes every unfinished job that is due. -/
theorem claimed_of_due (run : Run (World.step cfg text) anyStep w₀ as w) (init : Initial w₀) :
    (∀ job ∈ w.db.queue.jobs.rows,
      (job.lockedBy.isSome ↔ job.status = .running) ∧
      (job.lockedAt.isSome ↔ job.status = .running) ∧
      (job.status = .pending → job.attempts = 0) ∧ job.status ≠ .failed) ∧
    ∀ job ∈ w.db.queue.jobs.rows, job.status ≠ .succeeded → job.status ≠ .deadLettered →
      ∀ (recoverer workerId : String) (recovery : RecoveryClock) (jobTypes : List JobType)
        (limit : ℕ) (query : ClaimQuery),
      Due cfg job recovery.now → recovery.now ≤ query.now → recovery.moved job.id ≤ query.now →
      job.jobType ∈ jobTypes → (∀ id, query.locked id = false) →
      let q := Queue.recoverStaleRunningJobs cfg w.db.queue recoverer recovery
      (q.jobs.rows.filter (·.ready jobTypes query.now query.locked)).length ≤ limit →
      ∃ row ∈ (q.claimReadyJobs workerId jobTypes limit query).2,
        row.toJobIdentity = job.toJobIdentity ∧ row.status = .running ∧
          row.attempts = job.attempts + 1 := by
  have wellFormed : ∀ job ∈ w.db.queue.jobs.rows, WellFormed job := fun job mem =>
    (regular_of_run run init job.id).wellFormed job (view_row mem)
  constructor
  · intro job mem
    have well := wellFormed job mem
    exact ⟨well.lockedBy, well.lockedAt, well.pending, well.notFailed⟩
  intro job mem succeeded buried recoverer workerId recovery jobTypes limit query due le moved type
    unlocked q fits
  obtain ⟨row, found, same, attempts, waiting, ready⟩ :=
    ready_of_due recoverer (wellFormed job mem) mem ⟨succeeded, buried⟩ due le moved
  have type' : row.jobType ∈ jobTypes := (congrArg JobIdentity.jobType same) ▸ type
  have selected : row ∈ q.readyJobs jobTypes limit query := by
    refine mem_select_of_le found ?_ fits
    simp only [InteractionJob.ready, Bool.and_eq_true, List.contains_iff_mem, Bool.or_eq_true,
      decide_eq_true_eq, Bool.not_eq_true']
    exact ⟨⟨⟨type', waiting⟩, ready⟩, unlocked row.id⟩
  refine ⟨row.claim workerId query.now, List.mem_map_of_mem selected, same, rfl, ?_⟩
  rw [InteractionJob.claim_attempts, attempts]

instance {job : InteractionJob} {t : Time} : Decidable (Due cfg job t) :=
  inferInstanceAs (Decidable ((_ → _) ∧ (_ → ∀ lockedAt ∈ job.lockedAt, _ < t)))

/-- The worker that claimed a job is lost, and another job comes in. -/
def workerLost : List Action :=
  [.createIfAbsent (.plain 1 .signalJobs), .claimResults "lost" 1 (.at 0), .crash 0,
    .createIfAbsent (.plain 2 .leadStageUpdate)]

theorem claimed_of_due_plain :
    let q := (workerLost.foldl (World.step settings .plain) (.ofInteraction .plain)).db.queue
    let clock : RecoveryClock := .at (seconds 301)
    q.jobs.rows.map (·.status) = [.running, .pending] ∧
      ∀ job ∈ q.jobs.rows, ∃ row ∈ ((q.recoverStaleRunningJobs settings "recoverer" clock).claimReadyJobs
          "worker" [.signalJobs, .leadStageUpdate] 2 (.at (seconds 301))).2,
        row.toJobIdentity = job.toJobIdentity ∧ row.status = .running ∧
          row.attempts = job.attempts + 1 := by
  intro q clock
  have due : ∀ job ∈ q.jobs.rows, job.status ≠ .succeeded ∧ job.status ≠ .deadLettered ∧
      Due settings job clock.now ∧ clock.moved job.id ≤ seconds 301 ∧
      job.jobType ∈ [.signalJobs, .leadStageUpdate] := by decide +kernel
  refine ⟨by decide +kernel, fun job mem => ?_⟩
  obtain ⟨succeeded, buried, due, moved, type⟩ := due job mem
  exact (claimed_of_due (Run.of_foldl workerLost) ⟨rfl, rfl⟩).2 job mem succeeded buried "recoverer"
    "worker" clock _ 2 (.at (seconds 301)) due (le_refl _) moved type (fun _ => rfl)
    (by decide +kernel)

end PostCall.Properties
