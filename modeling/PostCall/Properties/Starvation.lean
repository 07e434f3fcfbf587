import PostCall.Properties.Analysed
import PostCall.Properties.Overflow

/-!
# Deferral without end

The rate limiter defers a job to the next minute, and it looks neither at the attempts of the job nor
at whether any minute could admit it. A job of high priority is granted in a minute in which nothing is
reserved, and so is one whose estimate is within its customer's budget; a job of lower priority that
asks for more than that budget is refused in every minute.
-/

namespace PostCall.Properties
open PostCall.Library PostCall.Python PostCall.Model PostCall.Machine

variable {cfg : Settings} {text : Text} {t t' : UsageTable} {job : InteractionJob} {now : Time}
  {budget : Option ℤ} {w₀ w : World} {as : List Action}

/-- Nothing is reserved in the window, by anyone. -/
def NothingReserved (t : UsageTable) (windowStart : Time) : Prop :=
  ∀ customer, counter t (customer, windowStart) .reservedTokens = 0 ∧
    counter t (customer, windowStart) .requestsReserved = 0

/-- The rate limiter admits the job. -/
def Admits (cfg : Settings) (t : UsageTable) (now : Time) (budget : Option ℤ)
    (job : InteractionJob) : Prop :=
  ∃ t' result,
    t.rateLimiterAdmit cfg job.customerId job.tokenEstimate job.priority now budget =
      .ok (t', result) ∧ result.allowed

/-- The priority of the job lets it borrow, or its estimate is within the budget of its customer. -/
def WithinBudget (cfg : Settings) (budget : Option ℤ) (job : InteractionJob) : Prop :=
  job.priority = .high ∨ max job.tokenEstimate 1 ≤ customerBudget cfg budget

lemma estimate_le {j : Json} {completionBuffer : ℕ} {n : ℤ}
    (h : Model.estimate cfg j completionBuffer = .ok n) : n ≤ cfg.llmMaxPromptTokens := by
  obtain ⟨_, _, h⟩ := Program.except_ok.1 h
  cases h
  exact min_le_right _ _

/-- The buffer for the completion is always asked for, up to the cap. -/
lemma le_estimate {j : Json} {completionBuffer : ℕ} {n : ℤ}
    (h : Model.estimate cfg j completionBuffer = .ok n) (factor : 1 ≤ cfg.llmReservationSafetyFactor) :
    min (completionBuffer : ℤ) cfg.llmMaxPromptTokens ≤ n := by
  obtain ⟨length, _, h⟩ := Program.except_ok.1 h
  cases h
  refine min_le_min_right _ (Int.le_floor.2 ?_)
  have raw : (completionBuffer : ℚ) ≤ (max (length / 4) 1 + completionBuffer : ℕ) := by
    exact_mod_cast Nat.le_add_left _ _
  exact_mod_cast raw.trans (le_mul_of_one_le_right (Nat.cast_nonneg _) factor)

/-- An empty window has room for what fits the platform at all. -/
lemma underOverflowLimit_zero {limit : ℤ} (positive : 0 < limit) : underOverflowLimit 0 limit := by
  simp only [underOverflowLimit, if_pos positive.ne', Int.cast_zero, zero_div]
  decide +kernel

/-- The decision in a window in which nothing is reserved. -/
lemma decideOn_of_nothingReserved {customer : UUID} {windowStart : Time} {budgetTokens tokens : ℤ}
    {allowOverflow : Bool} (fresh : NothingReserved t windowStart) (positive : 1 ≤ tokens)
    (platform : tokens ≤ cfg.llmTokensPerMinute) (requests : 1 ≤ cfg.llmRequestsPerMinute) :
    (decideOn cfg t customer windowStart budgetTokens tokens allowOverflow).allowed ↔
      allowOverflow ∨ tokens ≤ budgetTokens := by
  have requests : (1 : ℤ) ≤ cfg.llmRequestsPerMinute := by exact_mod_cast requests
  have under := underOverflowLimit_zero (positive.trans platform)
  unfold decideOn decideAdmission
  simp only [(fresh _).1, (fresh _).2, zero_add]
  rw [if_neg (not_lt.2 platform), if_neg (not_lt.2 requests)]
  by_cases fits : tokens ≤ budgetTokens
  · simp [fits]
  · cases allowOverflow <;> simp [fits, under]

/-- Whatever is reserved, a call that is admitted has high priority or is within the budget. -/
lemma withinBudget_of_admits (nonneg : NonNegative t) (admits : Admits cfg t now budget job) :
    WithinBudget cfg budget job := by
  obtain ⟨t', result, h, allowed⟩ := admits
  have decision := (congrArg BudgetDecision.allowed (reserve_decided h)).symm.trans allowed
  rcases decided.of_allowed decision with fits | ⟨high, _⟩
  · have reserved := nonneg (job.customerId, minuteWindow now)
    exact .inr ((le_add_of_nonneg_left reserved).trans fits)
  · refine .inl ?_
    by_contra low
    simp [low] at high

/-- In every run of the system's own actions, an analysis is granted in a minute in which nothing is
reserved if and only if it has high priority or is within the budget of its customer; otherwise it is
refused in every minute. The platform admits the largest estimate, and the limits of the platform and
of the customer fit their column. -/
theorem granted_iff_withinBudget (run : Run (World.step cfg text) Served w₀ as w) (init : Initial w₀)
    (largest : cfg.llmMaxPromptTokens ≤ cfg.llmTokensPerMinute)
    (tokens : 1 ≤ cfg.llmTokensPerMinute) (requests : 1 ≤ cfg.llmRequestsPerMinute)
    (platform : fitsInteger cfg.llmTokensPerMinute) (mem : job ∈ w.db.queue.jobs.rows)
    (type : job.jobType = .llmAnalysis) (fits : fitsInteger (customerBudget cfg budget)) :
    (∀ t now, NothingReserved t (minuteWindow now) →
      (Admits cfg t now budget job ↔ WithinBudget cfg budget job)) ∧
    (¬ WithinBudget cfg budget job → ∀ t now, NonNegative t → ¬ Admits cfg t now budget job) := by
  refine ⟨fun t now fresh => ?_, fun exceeds t now nonneg admits =>
    exceeds (withinBudget_of_admits nonneg admits)⟩
  obtain ⟨root, _, transcriptText, c, queued⟩ := queued_of_run run init job mem type
  have capped : max job.tokenEstimate 1 ≤ cfg.llmTokensPerMinute := by
    have le := estimate_le queued.estimated
    omega
  obtain ⟨t', result, h⟩ : ∃ t' result, t.rateLimiterAdmit cfg job.customerId job.tokenEstimate
      job.priority now budget = .ok (t', result) := reserve_returns.2 ⟨.inr platform, .inr (.inr fits)⟩
  have answered := congrArg BudgetDecision.allowed (reserve_decided h)
  have decision := @decideOn_of_nothingReserved cfg t job.customerId (minuteWindow now)
    (customerBudget cfg budget) _ (job.priority = .high) fresh (le_max_right job.tokenEstimate 1)
    capped requests
  rw [← answered, decide_eq_true_eq] at decision
  unfold WithinBudget
  rw [← decision]
  constructor
  · rintro ⟨_, _, h', allowed⟩
    cases h.symm.trans h'
    exact allowed
  · exact fun allowed => ⟨t', result, h, allowed⟩

/-- A call whose customer may spend this many tokens in a minute, up to the claim of its analysis. -/
def withBudget (n : ℤ) : List Action := (legacyCall [
  ("transcript_text", .str "agent: Hello."),
  ("additional_data", .dict [("customer_token_budget_per_minute", .int n)])]).take 2

/-- The run of a call with a budget is served. -/
lemma served_withBudget {n : ℤ} : Run (World.step settings .plain) Served (.ofInteraction .plain)
    (withBudget n) (after (withBudget n)) := by
  refine served_of_forall fun a mem new e => ?_
  simp [withBudget, legacyCall, e] at mem

/-- The analysis of that call has medium priority. -/
lemma exists_analysis {n : ℤ} (h : n = 100 ∨ n = 12000) :
    ∃ job ∈ (after (withBudget n)).db.queue.jobs.rows, job.jobType = .llmAnalysis ∧
      job.priority = .medium ∧ LLMWorkerService.customerBudget job.payload = .ok (some n) := by
  have budgeted : ∃ job ∈ (after (withBudget n)).db.queue.jobs.rows, job.jobType = .llmAnalysis ∧
      job.priority = .medium ∧
      (LLMWorkerService.customerBudget job.payload).toOption = some (some n) := by
    rcases h with rfl | rfl <;> decide +kernel
  obtain ⟨job, mem, type, priority, read⟩ := budgeted
  refine ⟨job, mem, type, priority, ?_⟩
  cases e : LLMWorkerService.customerBudget job.payload with
  | error => simp [e, Except.toOption] at read
  | ok budget => simpa [e, Except.toOption] using read

lemma nothingReserved_empty {windowStart : Time} : NothingReserved .empty windowStart :=
  fun _ => ⟨rfl, rfl⟩

/-- A budget of 12000 tokens grants the analysis. -/
theorem granted_iff_withinBudget_plain :
    ∃ job ∈ (after (withBudget 12000)).db.queue.jobs.rows, job.jobType = .llmAnalysis ∧
      Admits settings .empty 0 (some 12000) job := by
  obtain ⟨job, mem, type, _, _⟩ := @exists_analysis 12000 (.inr rfl)
  obtain ⟨_, _, _, _, queued⟩ := queued_of_run served_withBudget ⟨rfl, rfl⟩ job mem type
  have within : WithinBudget settings (some 12000) job :=
    .inr (max_le (estimate_le queued.estimated) (by decide))
  have granted := (granted_iff_withinBudget served_withBudget ⟨rfl, rfl⟩ (by decide) (by decide)
    (by decide) (by decide) mem type (by decide : fitsInteger (customerBudget settings (some 12000)))).1
  exact ⟨job, mem, type, (granted .empty 0 nothingReserved_empty).2 within⟩

/-- An analysis of medium priority, and a customer that may spend a hundred tokens in a minute: it is
refused in a minute in which nothing is reserved. -/
theorem not_granted : ¬ ∀ (cfg : Settings) (text : Text) (w₀ w : World) (as : List Action)
    (job : InteractionJob) (n : ℤ) (t : UsageTable) (now : Time), Initial w₀ →
    Run (World.step cfg text) Served w₀ as w →
    cfg.llmMaxPromptTokens ≤ cfg.llmTokensPerMinute → 1 ≤ cfg.llmRequestsPerMinute →
    job ∈ w.db.queue.jobs.rows → job.jobType = .llmAnalysis →
    LLMWorkerService.customerBudget job.payload = .ok (some n) → 0 < n →
    NothingReserved t (minuteWindow now) → Admits cfg t now (some n) job := by
  intro granted
  obtain ⟨job, mem, type, priority, budgeted⟩ := @exists_analysis 100 (.inl rfl)
  obtain ⟨_, _, _, _, queued⟩ := queued_of_run served_withBudget ⟨rfl, rfl⟩ job mem type
  have asked : min 500 12000 ≤ job.tokenEstimate :=
    le_estimate queued.estimated (by norm_num [settings])
  have admits := granted settings .plain _ _ _ job 100 .empty 0 ⟨rfl, rfl⟩ served_withBudget
    (by decide) (by decide) mem type budgeted (by decide) nothingReserved_empty
  rcases withinBudget_of_admits (fun _ => le_rfl) admits with high | fits
  · rw [priority] at high
    cases high
  · exact absurd ((asked.trans (le_max_left _ _)).trans fits) (by decide)

end PostCall.Properties
