import PostCall.Machine.Ledger
import PostCall.Machine.Workers

/-!
# Admission

The claim of the LLM worker interprets the payload of each job that it has claimed, in the one
transaction of the whole batch. It commits exactly if every budget can be read and every row of the
ledger that it has to create fits its column: one payload that does not keeps all jobs of the batch
from being claimed, and the same batch is selected the next time.
-/

namespace PostCall.Properties
open PostCall.Library PostCall.Python PostCall.Model PostCall.Machine

variable {cfg : Settings} {db db' : Db} {job : InteractionJob} {jobs : List InteractionJob}
  {clock : UUID → Clock} {snapshots : List ClaimedLLMJob}

/-- Each job ended the transaction in the final database: it is running, with a reservation and a
snapshot, or it was deferred. -/
inductive Settled (cfg : Settings) (clock : UUID → Clock) (db : Db) :
    UsageTable → List InteractionJob → List ClaimedLLMJob → UsageTable → Prop where
  | nil {t} :
    Settled cfg clock db t [] [] t
  | admitted {t t' t'' job jobs snapshots budget result} :
    t.rateLimiterAdmit cfg job.customerId job.tokenEstimate job.priority (clock job.id 0) budget =
      .ok (t', result) →
    result.allowed →
    job.status = .running →
    job ∈ db.queue.jobs.rows →
    Settled cfg clock db t' jobs snapshots t'' →
    Settled cfg clock db t (job :: jobs) (LLMWorkerService.snapshot job :: snapshots) t''
  | deferred {t t' t'' job jobs snapshots budget result row} :
    t.rateLimiterAdmit cfg job.customerId job.tokenEstimate job.priority (clock job.id 0) budget =
      .ok (t', result) →
    ¬ result.allowed →
    row.toJobIdentity = job.toJobIdentity →
    row.status = .deferred →
    row ∈ db.queue.jobs.rows →
    Settled cfg clock db t' jobs snapshots t'' →
    Settled cfg clock db t (job :: jobs) snapshots t''

/-- The claim commits, and every job it claimed is admitted or deferred. -/
def Claims (cfg : Settings) (workerId : String) (limit : ℕ) (recovery : RecoveryClock)
    (query : ClaimQuery) (clock : UUID → Clock) (db : Db) : Prop :=
  ∃ snapshots db',
    LLMWorkerService.claimAdmittedJobs cfg workerId limit recovery query clock db =
      .ok snapshots db' ∧
    Settled cfg clock db' db.usage
      (claimedJobs workerId [.llmAnalysis] limit query (recovered cfg workerId recovery db))
      snapshots db'.usage

/-- The budget that a payload brings: its additional data are an object, or nothing, and what they say
about the budget is nothing, or something that `int()` reads. -/
inductive Override (payload : Dict) : Option ℤ → Prop where
  | absent {additional : Dict} :
    orElse (payload.get? "additional_data") (.dict []) = .dict additional →
    ¬ (additional.getD "customer_token_budget_per_minute" .null).truthy →
    Override payload none
  | given {additional : Dict} {n} :
    orElse (payload.get? "additional_data") (.dict []) = .dict additional →
    (additional.getD "customer_token_budget_per_minute" .null).truthy →
    (additional.getD "customer_token_budget_per_minute" .null).toInt = .ok n →
    Override payload (some n)

/-- `_customer_budget` returns what the payload brings, and raises if it brings no budget. -/
lemma customerBudget_eq_ok {payload : Dict} {budget : Option ℤ} :
    LLMWorkerService.customerBudget payload = .ok budget ↔ Override payload budget := by
  unfold LLMWorkerService.customerBudget
  constructor
  · intro h
    cases object : orElse (payload.get? "additional_data") (.dict []) with
    | dict additional =>
      rw [object] at h
      simp only [Json.asDict, bind, Except.bind] at h
      split at h
      case isFalse absent =>
        cases h
        exact .absent object absent
      case isTrue given =>
        cases read : (Dict.getD additional "customer_token_budget_per_minute" .null).toInt with
        | error e =>
          rw [read] at h
          cases h
        | ok n =>
          rw [read] at h
          cases h
          exact .given object given read
    | _ =>
      rw [object] at h
      cases h
  · intro h
    cases h with
    | absent object absent =>
      rw [object]
      simp only [Json.asDict, bind, Except.bind, if_neg absent]
      rfl
    | given object given read =>
      rw [object]
      simp only [Json.asDict, bind, Except.bind, if_pos given, read]
      rfl

/-- Each budget can be read, and each row of the ledger is known or fits its column: what `known`
holds of is there, and a job leaves the rows of its window to the jobs after it. -/
def Admissible (cfg : Settings) (clock : UUID → Clock) :
    (UUID × Time → Prop) → List InteractionJob → Prop
  | _, [] => True
  | known, job :: jobs =>
    let windowStart := minuteWindow (clock job.id 0)
    (∃ budget, Override job.payload budget ∧
      (known (job.customerId, windowStart) ∨ job.customerId = GLOBAL_RATE_LIMIT_ID ∨
        fitsInteger (customerBudget cfg budget))) ∧
    (known (GLOBAL_RATE_LIMIT_ID, windowStart) ∨ fitsInteger cfg.llmTokensPerMinute) ∧
    Admissible cfg clock (fun k => known k ∨ k = (GLOBAL_RATE_LIMIT_ID, windowStart) ∨
      k = (job.customerId, windowStart)) jobs

/-- An admission that returns has read the budget and asked the rate limiter. -/
lemma of_admitJob_ok {clock : Clock} {snapshot : Option ClaimedLLMJob}
    (h : LLMWorkerService.admitJob cfg clock job db = .ok snapshot db') :
    ∃ budget usage result, LLMWorkerService.customerBudget job.payload = .ok budget ∧
      db.usage.rateLimiterAdmit cfg job.customerId job.tokenEstimate job.priority (clock 0) budget =
        .ok (usage, result) ∧ db'.usage = usage ∧
      if result.allowed then
        snapshot = some (LLMWorkerService.snapshot job) ∧ db'.queue = db.queue
      else
        snapshot = none ∧ db' = ({ db with usage := usage } : Db).deferRefused clock job result := by
  obtain ⟨budget, s₁, h₁, first⟩ := Program.bind_ok.1 h
  obtain ⟨hb, e₁⟩ := Program.ofExcept_run_ok.1 h₁
  subst e₁
  rw [Program.bind_of_ok Program.get_run] at first
  obtain ⟨⟨usage, result⟩, s₂, h₂, second⟩ := Program.bind_ok.1 first
  obtain ⟨admitted, e₂⟩ := Program.ofExcept_run_ok.1 h₂
  subst e₂
  obtain ⟨_, s₃, h₃, rest⟩ := Program.bind_ok.1 second
  cases h₃
  refine ⟨budget, usage, result, hb, admitted, ?_⟩
  simp only at rest
  split at rest
  case isTrue allowed =>
    cases rest
    rw [if_pos allowed]
    exact ⟨rfl, rfl, rfl⟩
  case isFalse refused =>
    cases rest
    rw [if_neg refused]
    exact ⟨rfl, rfl, rfl⟩

/-- When one pass returns. -/
lemma admitJob_returns {clock : Clock} :
    (∃ snapshot db', LLMWorkerService.admitJob cfg clock job db = .ok snapshot db') ↔
      (∃ budget, Override job.payload budget ∧
        (Known db.usage (job.customerId, minuteWindow (clock 0)) ∨
          job.customerId = GLOBAL_RATE_LIMIT_ID ∨ fitsInteger (customerBudget cfg budget))) ∧
      (Known db.usage (GLOBAL_RATE_LIMIT_ID, minuteWindow (clock 0)) ∨
        fitsInteger cfg.llmTokensPerMinute) := by
  constructor
  · rintro ⟨snapshot, db', h⟩
    obtain ⟨budget, usage, result, hb, admitted, _⟩ := of_admitJob_ok h
    obtain ⟨platform, customer⟩ := reserve_returns.1 ⟨usage, result, admitted⟩
    exact ⟨⟨budget, customerBudget_eq_ok.1 hb, customer⟩, platform⟩
  · rintro ⟨⟨budget, brings, customer⟩, platform⟩
    obtain ⟨usage, result, admitted⟩ : ∃ usage result,
        db.usage.rateLimiterAdmit cfg job.customerId job.tokenEstimate job.priority (clock 0)
          budget = .ok (usage, result) := reserve_returns.2 ⟨platform, customer⟩
    rcases admitJob_cases cfg db clock job with ⟨e, h⟩ | ⟨s, h, _⟩ | ⟨_, _, h⟩
    · -- it cannot have raised
      unfold LLMWorkerService.admitJob at h
      rw [customerBudget_eq_ok.2 brings, Program.ofExcept_ok, pure_bind,
        Program.bind_of_ok Program.get_run, admitted, Program.ofExcept_ok, pure_bind] at h
      simp only at h
      rw [Program.bind_of_ok Program.modify_run] at h
      split at h <;> cases h
    · exact ⟨_, _, h⟩
    · exact ⟨_, _, h⟩

/-- A pass of a loop that returns: the rate limiter answers for the job, whose row is in the end as the
pass leaves it, and the passes on the later jobs find theirs as they were. -/
lemma pass_of_admitJobs (nodup : ((job :: jobs).map (·.id)).Nodup)
    (claimed : ∀ row ∈ job :: jobs, row.status = .running ∧ row ∈ db.queue.jobs.rows)
    (h : LLMWorkerService.admitJobs cfg clock (job :: jobs) db = .ok snapshots db') :
    ∃ s later budget result, LLMWorkerService.admitJobs cfg clock jobs s = .ok later db' ∧
      (∀ row ∈ jobs, row.status = .running ∧ row ∈ s.queue.jobs.rows) ∧
      LLMWorkerService.customerBudget job.payload = .ok budget ∧
      db.usage.rateLimiterAdmit cfg job.customerId job.tokenEstimate job.priority (clock job.id 0)
        budget = .ok (s.usage, result) ∧
      if result.allowed then
        snapshots = LLMWorkerService.snapshot job :: later ∧ job ∈ db'.queue.jobs.rows
      else
        snapshots = later ∧ job.defer (clock job.id 1 + seconds result.deferSeconds) result.reason
          "LLM admission deferred by rate limiter" ∈ db'.queue.jobs.rows := by
  simp only [List.map_cons, List.nodup_cons, List.mem_map, not_exists, not_and] at nodup
  obtain ⟨running, mem⟩ := claimed job List.mem_cons_self
  obtain ⟨snapshot, s, h₁, first⟩ := Program.bind_ok.1 h
  obtain ⟨later, s', h₂, rest⟩ := Program.bind_ok.1 first
  cases rest
  obtain ⟨budget, usage, result, read, admitted, booked, outcome⟩ := of_admitJob_ok h₁
  rw [← booked] at admitted
  split at outcome
  case isTrue allowed =>
    obtain ⟨rfl, same⟩ := outcome
    have rows : ∀ row ∈ jobs, row.status = .running ∧ row ∈ s.queue.jobs.rows := by
      intro row hr
      rw [same]
      exact claimed row (List.mem_cons_of_mem _ hr)
    refine ⟨s, later, budget, result, h₂, rows, read, admitted, ?_⟩
    rw [if_pos allowed]
    exact ⟨rfl, mem_of_admitJobs nodup.2 rows h₂ (same ▸ mem) nodup.1⟩
  case isFalse refused =>
    obtain ⟨rfl, rfl⟩ := outcome
    have m : Move cfg { db with usage := usage } (.refuse job (clock job.id) result)
        (({ db with usage := usage } : Db).deferRefused (clock job.id) job result) :=
      .refuse mem running
    have rows : ∀ row ∈ jobs, row.status = .running ∧ row ∈
        (({ db with usage := usage } : Db).deferRefused (clock job.id) job
          result).queue.jobs.rows := claimed_of_refused cfg nodup.1 claimed
    have deferred := (m.effect.rows _).2 (.inr (.inr rfl))
    refine ⟨_, later, budget, result, h₂, rows, read, admitted, ?_⟩
    rw [if_neg refused]
    exact ⟨rfl, mem_of_admitJobs nodup.2 rows h₂ deferred nodup.1⟩

/-- A loop that returned settled every job. -/
lemma settled_of_admitJobs (nodup : (jobs.map (·.id)).Nodup)
    (claimed : ∀ job ∈ jobs, job.status = .running ∧ job ∈ db.queue.jobs.rows)
    (h : LLMWorkerService.admitJobs cfg clock jobs db = .ok snapshots db') :
    Settled cfg clock db' db.usage jobs snapshots db'.usage := by
  induction jobs generalizing db snapshots with
  | nil =>
    cases h
    exact .nil
  | cons job jobs ih =>
    obtain ⟨s, later, budget, result, h₂, rows, _, admitted, outcome⟩ :=
      pass_of_admitJobs nodup claimed h
    have settled := ih (List.nodup_cons.1 nodup).2 rows h₂
    split at outcome
    case isTrue allowed =>
      obtain ⟨rfl, mem⟩ := outcome
      exact .admitted admitted allowed (claimed job List.mem_cons_self).1 mem settled
    case isFalse refused =>
      obtain ⟨rfl, mem⟩ := outcome
      refine .deferred admitted refused ?_ ?_ mem settled
      · rfl
      · rfl

/-- The admissions return exactly where every job can be admitted. -/
lemma admitJobs_returns :
    (∃ snapshots db', LLMWorkerService.admitJobs cfg clock jobs db = .ok snapshots db') ↔
      Admissible cfg clock (Known db.usage) jobs := by
  induction jobs generalizing db with
  | nil => exact ⟨fun _ => trivial, fun _ => ⟨[], db, rfl⟩⟩
  | cons job jobs ih =>
    -- the rows that the pass on this job leaves to the later ones
    have known : ∀ {snapshot s},
        LLMWorkerService.admitJob cfg (clock job.id) job db = .ok snapshot s →
        Known s.usage = fun k => Known db.usage k ∨
          k = (GLOBAL_RATE_LIMIT_ID, minuteWindow (clock job.id 0)) ∨
          k = (job.customerId, minuteWindow (clock job.id 0)) := by
      intro snapshot s h
      obtain ⟨_, _, _, _, admitted, e, _⟩ := of_admitJob_ok h
      funext k
      rw [e]
      exact propext (known_reserve admitted)
    constructor
    · rintro ⟨snapshots, db', h⟩
      obtain ⟨snapshot, s, h₁, first⟩ := Program.bind_ok.1 h
      obtain ⟨later, s', h₂, _⟩ := Program.bind_ok.1 first
      obtain ⟨readable, platform⟩ := admitJob_returns.1 ⟨snapshot, s, h₁⟩
      refine ⟨readable, platform, ?_⟩
      rw [← known h₁]
      exact ih.1 ⟨later, s', h₂⟩
    · rintro ⟨readable, platform, rest⟩
      obtain ⟨snapshot, s, h₁⟩ := admitJob_returns.2 ⟨readable, platform⟩
      rw [← known h₁] at rest
      obtain ⟨later, s', h₂⟩ := ih.2 rest
      refine ⟨snapshot.toList ++ later, s', ?_⟩
      rw [LLMWorkerService.admitJobs, Program.bind_of_ok h₁, Program.bind_of_ok h₂]
      rfl

section Claim

variable {workerId : String} {limit : ℕ} {recovery : RecoveryClock} {query : ClaimQuery}

/-- The claim is a recovery, a claim of ready jobs and their admissions. -/
lemma claimAdmittedJobs_run :
    LLMWorkerService.claimAdmittedJobs cfg workerId limit recovery query clock db =
      LLMWorkerService.admitJobs cfg clock
        (claimedJobs workerId [.llmAnalysis] limit query (recovered cfg workerId recovery db))
        (claimed workerId [.llmAnalysis] limit query (recovered cfg workerId recovery db)) := by
  rw [LLMWorkerService.claimAdmittedJobs, Program.bind_of_ok recoverStaleRunningJobs_run,
    Program.bind_of_ok claimReadyJobs_run]

/-- A claim that returns settles every job that it claimed. -/
lemma settled_of_claim
    (h : LLMWorkerService.claimAdmittedJobs cfg workerId limit recovery query clock db =
      .ok snapshots db') :
    Settled cfg clock db' db.usage
      (claimedJobs workerId [.llmAnalysis] limit query (recovered cfg workerId recovery db))
      snapshots db'.usage := by
  have usage : (claimed workerId [.llmAnalysis] limit query
      (recovered cfg workerId recovery db)).usage = db.usage := rfl
  rw [claimAdmittedJobs_run] at h
  rw [← usage]
  exact settled_of_admitJobs nodup_claimedJobs running_of_claimedJobs h

end Claim

/-- Two customers have an analysis each, and the budget of the first one is not a number. -/
def unreadable : List Action := [
  .createIfAbsent (.plain 1 .llmAnalysis [
    ("additional_data", .dict [("customer_token_budget_per_minute", .str "unlimited")])]),
  .createIfAbsent { NewJob.plain 2 .llmAnalysis with customerId := 2 }]

end PostCall.Properties
