import PostCall.Properties.Retries

/-!
# The retry budget of an analysis

The claim counts an attempt before the rate limiter is asked, and the failure handler reads that
count. So a refusal uses up an attempt like a failure does, until the attempts have reached the
limit. An analysis is given its full number of calls to the provider exactly if it was never refused
below its limit.
-/

namespace PostCall.Properties
open PostCall.Library PostCall.Python PostCall.Model PostCall.Machine

variable {cfg : Settings} {text : Text} {w w₀ : World} {a : Action} {as : List Action}

/-- A refusal at an attempt below the limit. -/
def refusedBelow (limit : ℕ) : JobEvent → Bool
  | .refused _ attempts => attempts < limit
  | _ => false

/-- Each attempt below the limit went into a failure or into a refusal. -/
def Charged (limit : ℕ) (status : JobStatus) (attempts failed refused : ℕ) : Prop :=
  match status with
  | .pending | .deferred => failed + refused = min attempts (limit - 1)
  | .running | .succeeded => failed + refused = min (attempts - 1) (limit - 1) ∧ 1 ≤ attempts
  | .deadLettered => failed + refused = max limit 1
  | .failed => False

/-- The attempts of an analysis are charged. -/
structure Charges (v : JobView) : Prop where
  unborn : v.row = none → v = .unborn
  charged : ∀ job, v.row = some job → job.jobType = .llmAnalysis →
    Charged job.maxAttempts job.status job.attempts (v.events.count (.failed job.id))
      (v.events.countP (refusedBelow job.maxAttempts))

/-- The LLM worker reports every failure as one that may be retried. -/
def analysisFailures (_ : JobView) : Label → Prop
  | .fail job failure _ => job.jobType = .llmAnalysis → failure.retryable
  | _ => True

lemma retryable_of_processPostCall {outcome : ProviderOutcome} {failure : Failure}
    (h : LLMWorkerService.processPostCall cfg outcome = .error failure) : failure.retryable := by
  cases outcome with
  | returns response =>
    simp only [LLMWorkerService.processPostCall] at h
    split at h
    · cases h
    · cases h
      rfl
  | rateLimited => cases h; rfl
  | raises => cases h; rfl

lemma steps_analysisFailures {id : UUID} : Steps cfg text w a id analysisFailures := by
  intro db l db' k m allowed at'
  cases at' with
  | birth => trivial
  | about about =>
    cases allowed with
    | unorchestrated _ _ retryable => exact fun _ => retryable
    | @report n f outcome conclusion clock job _ l hf hc mem of moves =>
      cases l with
      | fail =>
        obtain ⟨rfl, rfl, _⟩ := moves
        intro type
        generalize f.work = work at of hc
        cases of with
        | analysis =>
          cases concludes_of_conclusion hc with
          | unanalysed called => exact retryable_of_processPostCall called
        | recording _ type' => simp [type] at type'
        | result _ type' => simp [type] at type'
        | processed _ type' => simp [type] at type'
      | _ => trivial
    | _ => trivial

/-- What is charged to a job that waits. -/
lemma Charged.of_waiting {limit : ℕ} {job : InteractionJob} {failed refused : ℕ}
    (h : Charged limit job.status job.attempts failed refused)
    (waiting : job.status = .pending ∨ job.status = .deferred) :
    failed + refused = min job.attempts (limit - 1) := by
  rcases waiting with status | status <;> rwa [status] at h

/-- What is charged to a job that runs. -/
lemma Charged.of_running {limit : ℕ} {job : InteractionJob} {failed refused : ℕ}
    (h : Charged limit job.status job.attempts failed refused) (running : job.status = .running) :
    failed + refused = min (job.attempts - 1) (limit - 1) ∧ 1 ≤ job.attempts := by
  rwa [running] at h

/-- A step of an orderly life keeps the attempts charged. -/
lemma charges_of_life {v v' : JobView} {l : Label} (step : Life cfg v l v') (h : Charges v)
    (order : orderly v l) (retryable : analysisFailures v l) : Charges v' := by
  refine ⟨fun none => absurd none step.row_ne_none, fun row hrow type => ?_⟩
  cases step with
  | create pristine =>
    obtain ⟨new, rfl⟩ := pristine
    cases h.unborn rfl
    cases hrow
    simp [Charged, NewJob.row]
  | claim ready =>
    cases hrow
    have spent := (h.charged _ rfl type).of_waiting ready
    exact ⟨by simpa [refusedBelow] using spent, by simp⟩
  | recover => exact order.elim
  | succeed running =>
    cases hrow
    have spent := (h.charged _ rfl type).of_running running
    simpa [Charged, refusedBelow] using spent
  | @retry events _ job failure _ runAfter next =>
    cases hrow
    obtain ⟨spent, one⟩ := (h.charged _ rfl type).of_running order
    -- a failure below the limit
    have left := (Failure.of_nextRunAt next).2.1
    simp only [Charged, InteractionJob.defer, List.count_cons, List.countP_cons, refusedBelow] at *
    simp
    omega
  | @bury events _ job failure clock gone =>
    cases hrow
    obtain ⟨spent, one⟩ := (h.charged _ rfl type).of_running order
    -- a failure at the limit, since it may be retried and is not
    have reached : job.maxAttempts ≤ job.attempts := by
      by_contra under
      have left : job.attempts < job.maxAttempts := Nat.lt_of_not_le under
      rw [Failure.nextRunAt_of_lt (retryable type) left] at gone
      cases gone
    simp only [Charged, InteractionJob.deadLetter, List.count_cons, List.countP_cons, refusedBelow] at *
    simp
    omega
  | @refuse events _ job clock admission running =>
    cases hrow
    obtain ⟨spent, one⟩ := (h.charged _ rfl type).of_running running
    simp only [Charged, InteractionJob.defer, List.count_cons, List.countP_cons, refusedBelow] at *
    simp
    split <;> omega

/-- The attempts of every analysis are charged after a run without timeouts. -/
lemma charges_of_run (run : Run (World.step cfg text) (NoTimeout cfg) w₀ as w) (init : Initial w₀)
    (id : UUID) : Charges (view w.db.queue id) := by
  refine view_of_orderly run (fun _ _ calm => calm) init id ?_ (fun _ _ _ => steps_analysisFailures)
    fun _ _ _ h step order retryable => charges_of_life step h order retryable
  exact ⟨fun _ => rfl, fun _ h => (nomatch h)⟩

/-- Where no lock times out, an analysis in the dead letters has failed as often as its limit says
exactly if the rate limiter never refused it at an attempt below that limit. -/
theorem failures_of_deadLettered_iff (run : Run (World.step cfg text) (NoTimeout cfg) w₀ as w)
    (init : Initial w₀) :
    ∀ job ∈ w.db.queue.jobs.rows, job.jobType = .llmAnalysis → job.status = .deadLettered →
      (job.maxAttempts ≤ timesFailed w.db.queue job.id ↔
        ∀ attempts, .refused job.id attempts ∈ w.db.queue.history → job.maxAttempts ≤ attempts) := by
  intro job mem type buried
  have charged := (charges_of_run run init job.id).charged job (view_row mem) type
  rw [buried] at charged
  have failures : timesFailed w.db.queue job.id =
    (view w.db.queue job.id).events.count (.failed job.id) := count_view rfl
  rw [← failures] at charged
  have unrefused : (view w.db.queue job.id).events.countP (refusedBelow job.maxAttempts) = 0 ↔
      ∀ attempts, .refused job.id attempts ∈ w.db.queue.history → job.maxAttempts ≤ attempts := by
    rw [List.countP_eq_zero]
    constructor
    · intro h attempts refused
      have := h (.refused job.id attempts) (List.mem_filter.2 ⟨refused, by simp [JobEvent.job]⟩)
      simpa [refusedBelow] using this
    · intro h e he
      obtain ⟨he, about⟩ := List.mem_filter.1 he
      cases e with
      | refused id attempts =>
        obtain rfl : id = job.id := of_decide_eq_true about
        simpa [refusedBelow] using h attempts he
      | _ => simp [refusedBelow]
  -- without attempts to spend, no refusal is below the limit
  have unlimited : job.maxAttempts = 0 →
      (view w.db.queue job.id).events.countP (refusedBelow job.maxAttempts) = 0 := by
    intro zero
    rw [zero, List.countP_eq_zero]
    intro e _
    cases e <;> simp [refusedBelow]
  rw [← unrefused]
  simp only [Charged] at charged
  omega

/-- The settings with a limit of two attempts. -/
def twoAttempts : Settings := { settings with workflowMaxAttempts := 2 }

/-- The system with a ledger whose first minute is used up. -/
def usedUp : World where
  db := {
    (World.ofInteraction .plain).db with
    usage := ⟨[{
      customerId := GLOBAL_RATE_LIMIT_ID
      windowStart := 0
      budgetTokens := 90000
      reservedTokens := 90000
      usedTokens := 0
      requestsReserved := 8
      requestsUsed := 0 }], by simp, by simp⟩ }
  inflight := []

/-- The provider does not answer. -/
def providerLost : Outcome := .analysis (.raises ⟨"TimeoutError", ""⟩) fun _ => ⟨0, 0, 0⟩

/-- An analysis is refused in the first minute, and then it is admitted and fails. -/
def refusedOnce : List Action := [
  .createIfAbsent (.plain 1 .llmAnalysis),
  .claimAnalyses "worker" 1 (.at 0) (.at 0) fun _ _ => 0,
  .claimAnalyses "worker" 1 (.at (seconds 61)) (.at (seconds 61)) fun _ _ => seconds 61,
  .report 0 providerLost fun _ => seconds 62]

/-- Two attempts, one of which the rate limiter refused. -/
theorem failures_of_deadLettered_iff_plain :
    ∃ attempts, .refused 1 attempts ∈
      (refusedOnce.foldl (World.step twoAttempts .plain) usedUp).db.queue.history ∧ attempts < 2 := by
  have run : Run (World.step twoAttempts .plain) (NoTimeout twoAttempts) usedUp refusedOnce
    (refusedOnce.foldl (World.step twoAttempts .plain) usedUp) := .of_checked (by decide)
  have exact := failures_of_deadLettered_iff run ⟨rfl, rfl⟩ _ (List.mem_singleton.2 rfl) (by decide)
    (by decide)
  have few : ¬ ∀ attempts, .refused 1 attempts ∈
      (refusedOnce.foldl (World.step twoAttempts .plain) usedUp).db.queue.history →
      2 ≤ attempts := fun all => absurd (exact.2 all) (by decide)
  simpa using few

/-- A job with a limit of two attempts is in the dead letters after one failure. -/
theorem not_failures_of_deadLettered : ¬ ∀ cfg w₀ as, Initial w₀ →
    Run (World.step cfg .plain) (NoTimeout cfg) w₀ as (as.foldl (World.step cfg .plain) w₀) →
    ∀ job ∈ (as.foldl (World.step cfg .plain) w₀).db.queue.jobs.rows,
      job.jobType = .llmAnalysis → job.status = .deadLettered →
      job.maxAttempts ≤ timesFailed (as.foldl (World.step cfg .plain) w₀).db.queue job.id := by
  intro h
  have := h twoAttempts usedUp refusedOnce ⟨rfl, rfl⟩ (.of_checked (by decide)) _
    (List.mem_singleton.2 rfl) (by decide) (by decide)
  revert this
  decide

end PostCall.Properties
