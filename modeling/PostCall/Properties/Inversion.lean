import PostCall.Properties.Admission
import PostCall.Properties.Claims

/-!
# No priority inversion

The admission policy is antitone in what the ledger has counted and in the estimate, and monotone in
the budget and in high priority. The counters only grow while a batch is admitted and the batch is
ordered by priority, so in one minute a job is refused if an earlier job of its customer was, with an
estimate that is no larger and a budget that is no smaller.
-/

namespace PostCall.Properties
open PostCall.Library PostCall.Python PostCall.Model PostCall.Machine

variable {cfg : Settings} {db db' : Db} {job : InteractionJob} {jobs : List InteractionJob}
  {clock : UUID → Clock} {snapshots : List ClaimedLLMJob} {t t' : UsageTable}

/-! ### The policy -/

/-- A platform that has reserved more is not further under the limit of the overflow. -/
lemma underOverflowLimit_antitone {reserved reserved' tokens limit : ℤ} (le : reserved ≤ reserved')
    (room : reserved' + tokens ≤ limit) (positive : 1 ≤ tokens)
    (under : underOverflowLimit reserved' limit) : underOverflowLimit reserved limit := by
  unfold underOverflowLimit at under ⊢
  simp only [decide_eq_true_eq] at under ⊢
  rcases lt_trichotomy limit 0 with negative | rfl | positive
  · -- the ledger is below a negative limit, so its utilisation is above one
    rw [if_pos negative.ne] at under
    have below : reserved' < limit := by omega
    have above : (1 : ℚ) < reserved' / limit := by
      rw [one_lt_div_of_neg (by exact_mod_cast negative)]
      exact_mod_cast below
    linarith
  · norm_num at under
  · rw [if_pos positive.ne'] at under ⊢
    refine lt_of_le_of_lt ?_ under
    gcongr

/-- The policy is antitone in the counters and in the estimate, and monotone in the budget and in
high priority. -/
lemma decideAdmission_antitone {tokenLimit requestLimit customerLimit customerLimit' requests
    requests' tokens tokens' : ℤ} {reserved reserved' reserving reserving' : ℤ}
    {customerRequests customerRequests' : ℤ} {priority priority' : JobPriority}
    (platform : reserved ≤ reserved') (count : requests ≤ requests')
    (customer : reserving ≤ reserving') (estimate : tokens ≤ tokens') (positive : 1 ≤ tokens)
    (budget : customerLimit' ≤ customerLimit) (high : priority' = .high → priority = .high)
    (allowed : (decideAdmission ⟨tokenLimit, requestLimit, reserved', requests'⟩
      ⟨customerLimit', requestLimit, reserving', customerRequests'⟩ tokens' priority').allowed) :
    (decideAdmission ⟨tokenLimit, requestLimit, reserved, requests⟩
      ⟨customerLimit, requestLimit, reserving, customerRequests⟩ tokens priority).allowed := by
  obtain ⟨room, slot⟩ := of_decideAdmission allowed
  simp only at room slot
  unfold decideAdmission
  rw [if_neg (by simp only; omega), if_neg (by simp only; omega)]
  simp only
  rcases decided.of_allowed allowed with fits | ⟨rfl, under⟩
  · rw [if_pos (by simp only at fits; omega)]
  · have under := underOverflowLimit_antitone platform room (positive.trans estimate) under
    split
    · rfl
    · rw [high rfl, under]
      rfl

/-- The second ledger has counted no less than the first one. -/
def CountsUpTo (t t' : UsageTable) : Prop := ∀ k f, counter t k f ≤ counter t' k f

/-- What the call on the first ledger refuses, a call that asks for no less on a ledger that has counted
no less refuses as well. -/
lemma decideOn_antitone {customer : UUID} {windowStart : Time} {budget budget' tokens tokens' : ℤ}
    {allowOverflow allowOverflow' : Bool} (counts : CountsUpTo t t') (estimate : tokens ≤ tokens')
    (positive : 1 ≤ tokens) (le : budget' ≤ budget) (high : allowOverflow' → allowOverflow)
    (allowed : (decideOn cfg t' customer windowStart budget' tokens' allowOverflow').allowed) :
    (decideOn cfg t customer windowStart budget tokens allowOverflow).allowed := by
  refine decideAdmission_antitone (counts _ _) (counts _ _) (counts _ _) estimate positive le
    (fun e => ?_) allowed
  split at e
  case isTrue given => rw [if_pos (high given)]
  case isFalse => cases e

/-! ### The loop -/

lemma counts_rateLimiterAdmit {customer : UUID} {tokenEstimate : ℤ} {priority : JobPriority}
    {now : Time} {budget : Option ℤ} {result : ReservationResult}
    (h : t.rateLimiterAdmit cfg customer tokenEstimate priority now budget = .ok (t', result)) :
    CountsUpTo t t' := by
  intro k f
  cases allowed : result.allowed with
  | false => exact (counter_of_refused h allowed k f).ge
  | true =>
    have nonneg : 0 ≤ reserved (max tokenEstimate 1) f := by
      cases f <;> simp [reserved]
    rw [counter_of_allowed h allowed]
    split <;> split <;> omega

/-- Whether the ledger grants the job, with the budget that its payload brings. -/
def Granted (cfg : Settings) (clock : UUID → Clock) (t : UsageTable) (job : InteractionJob) : Prop :=
  ∃ budget, LLMWorkerService.customerBudget job.payload = .ok budget ∧
    (decideOn cfg t job.customerId (minuteWindow (clock job.id 0)) (customerBudget cfg budget)
      (max job.tokenEstimate 1) (job.priority = .high)).allowed

/-- The second job has the customer of the first one, and asks for no less: its estimate is no smaller
and its budget no larger. -/
structure Dominates (cfg : Settings) (j k : InteractionJob) : Prop where
  customer : j.customerId = k.customerId
  estimate : j.tokenEstimate ≤ k.tokenEstimate
  budget : ∀ b b', LLMWorkerService.customerBudget j.payload = .ok b →
    LLMWorkerService.customerBudget k.payload = .ok b' →
    customerBudget cfg b' ≤ customerBudget cfg b

/-- The row of a job that was refused: it waits for the next window. -/
def refusedRow (clock : UUID → Clock) (job : InteractionJob) (reason : String) : InteractionJob :=
  job.defer (clock job.id 1 + seconds (secondsToNextWindow (clock job.id 0))) reason
    "LLM admission deferred by rate limiter"

/-- What a pass leaves of its job: the ledger grants the job and its row is as it was, or it does not,
and the row is deferred. -/
inductive Judged (cfg : Settings) (clock : UUID → Clock) (db' : Db) (t : UsageTable)
    (job : InteractionJob) : Prop where
  | granted :
    Granted cfg clock t job →
    job ∈ db'.queue.jobs.rows →
    Judged cfg clock db' t job
  | refused {reason} :
    ¬ Granted cfg clock t job →
    refusedRow clock job reason ∈ db'.queue.jobs.rows →
    Judged cfg clock db' t job

/-- The transaction left the job deferred. -/
def TurnedAway (db' : Db) (job : InteractionJob) : Prop :=
  ∃ row ∈ db'.queue.jobs.rows, row.id = job.id ∧ row.status = .deferred

/-- Exactly the jobs that are not granted are turned away. -/
lemma Judged.refused_iff (h : Judged cfg clock db' t job) (running : job.status = .running) :
    TurnedAway db' job ↔ ¬ Granted cfg clock t job := by
  cases h with
  | granted granted mem =>
    refine iff_of_false ?_ (not_not.2 granted)
    -- the row that the job was claimed with is still the row of its id
    rintro ⟨row, hr, same, deferred⟩
    rw [Table.eq_of_key hr mem same, running] at deferred
    cases deferred
  | refused refused mem => exact iff_of_true ⟨_, mem, rfl, rfl⟩ refused

lemma deferSeconds_of_refused {customer : UUID} {tokens : ℤ} {allowOverflow : Bool} {now : Time}
    {budget : Option ℤ} {result : ReservationResult}
    (h : t.reserve cfg customer tokens allowOverflow now budget = .ok (t', result))
    (refused : ¬ result.allowed) : result.deferSeconds = secondsToNextWindow now := by
  obtain ⟨_, _, _, _, read, read', _, _⟩ := of_reserve_ok h
  unfold UsageTable.reserve at h
  simp only [bind, Except.bind, read, read'] at h
  split at h
  · cases h
    exact absurd rfl refused
  · cases h
    rfl

/-- One pass of the loop refuses its job if the ledger does not grant it, and leaves a ledger that has
counted no less to the passes on the later jobs. -/
lemma judged_of_pass (nodup : ((job :: jobs).map (·.id)).Nodup)
    (claimed : ∀ row ∈ job :: jobs, row.status = .running ∧ row ∈ db.queue.jobs.rows)
    (h : LLMWorkerService.admitJobs cfg clock (job :: jobs) db = .ok snapshots db') :
    ∃ s later, LLMWorkerService.admitJobs cfg clock jobs s = .ok later db' ∧
      CountsUpTo db.usage s.usage ∧
      (∀ row ∈ jobs, row.status = .running ∧ row ∈ s.queue.jobs.rows) ∧
      (∃ budget, LLMWorkerService.customerBudget job.payload = .ok budget) ∧
      Judged cfg clock db' db.usage job := by
  obtain ⟨s, later, budget, result, h₂, rows, read, admitted, outcome⟩ :=
    pass_of_admitJobs nodup claimed h
  refine ⟨s, later, h₂, counts_rateLimiterAdmit admitted, rows, ⟨budget, read⟩, ?_⟩
  have granted : Granted cfg clock db.usage job ↔ result.allowed := by
    have answered := congrArg BudgetDecision.allowed (reserve_decided admitted)
    constructor
    · rintro ⟨budget', read', allowed⟩
      cases read.symm.trans read'
      exact answered.trans allowed
    · exact fun allowed => ⟨budget, read, answered.symm.trans allowed⟩
  split at outcome
  case isTrue allowed => exact .granted (granted.2 allowed) outcome.2
  case isFalse refused =>
    have mem := outcome.2
    rw [deferSeconds_of_refused admitted refused] at mem
    exact .refused (granted.not.2 refused) mem

/-- Every job of the batch meets a ledger that has counted no less than the one before the batch. -/
lemma judged_of_admitJobs (nodup : (jobs.map (·.id)).Nodup)
    (claimed : ∀ row ∈ jobs, row.status = .running ∧ row ∈ db.queue.jobs.rows)
    (h : LLMWorkerService.admitJobs cfg clock jobs db = .ok snapshots db') :
    ∀ k ∈ jobs, ∃ t, CountsUpTo db.usage t ∧ Judged cfg clock db' t k := by
  induction jobs generalizing db snapshots with
  | nil => exact fun _ hk => absurd hk List.not_mem_nil
  | cons job jobs ih =>
    obtain ⟨s, later, h₂, counts, rows, _, verdict⟩ := judged_of_pass nodup claimed h
    intro k hk
    rcases List.mem_cons.1 hk with rfl | hk
    · exact ⟨db.usage, fun _ _ => le_rfl, verdict⟩
    · obtain ⟨t, counts', verdict'⟩ := ih (List.nodup_cons.1 nodup).2 rows h₂ k hk
      exact ⟨t, fun key f => (counts key f).trans (counts' key f), verdict'⟩

/-- In one minute, what a ledger does not grant to a job it grants, counting no less, to none that asks
for no less. -/
lemma granted_of_dominates {j k : InteractionJob} (counts : CountsUpTo t t')
    (window : minuteWindow (clock j.id 0) = minuteWindow (clock k.id 0))
    (readable : ∃ budget, LLMWorkerService.customerBudget j.payload = .ok budget)
    (priority : k.priority = .high → j.priority = .high) (dominates : Dominates cfg j k)
    (granted : Granted cfg clock t' k) : Granted cfg clock t j := by
  obtain ⟨b, read⟩ := readable
  obtain ⟨b', read', allowed⟩ := granted
  rw [← dominates.customer, ← window] at allowed
  exact ⟨b, read, decideOn_antitone counts (max_le_max_right 1 dominates.estimate)
    (le_max_right _ _) (dominates.budget b b' read read') (by simpa using priority) allowed⟩

/-- In one window no job that comes later is preferred. -/
lemma pairwise_of_admitJobs (nodup : (jobs.map (·.id)).Nodup)
    (claimed : ∀ row ∈ jobs, row.status = .running ∧ row ∈ db.queue.jobs.rows)
    (ordered : jobs.Pairwise fun j k => k.priority = .high → j.priority = .high)
    (window : ∀ j ∈ jobs, ∀ k ∈ jobs,
      minuteWindow (clock j.id 0) = minuteWindow (clock k.id 0))
    (h : LLMWorkerService.admitJobs cfg clock jobs db = .ok snapshots db') :
    jobs.Pairwise fun j k => Dominates cfg j k → TurnedAway db' j → TurnedAway db' k := by
  induction jobs generalizing db snapshots with
  | nil => exact .nil
  | cons job jobs ih =>
    obtain ⟨s, later, h₂, counts, rows, readable, verdict⟩ := judged_of_pass nodup claimed h
    obtain ⟨first, ordered⟩ := List.pairwise_cons.1 ordered
    have nodup := (List.nodup_cons.1 nodup).2
    refine .cons (fun k hk dominates hj => ?_) (ih nodup rows ordered (fun j hj k hk =>
      window j (List.mem_cons_of_mem _ hj) k (List.mem_cons_of_mem _ hk)) h₂)
    obtain ⟨t, counts', verdict'⟩ := judged_of_admitJobs nodup rows h₂ k hk
    refine (verdict'.refused_iff (claimed k (List.mem_cons_of_mem _ hk)).1).2 fun granted => ?_
    refine (verdict.refused_iff (claimed job List.mem_cons_self).1).1 hj ?_
    exact granted_of_dominates (fun key f => (counts key f).trans (counts' key f))
      (window job List.mem_cons_self k (List.mem_cons_of_mem _ hk)) readable (first k hk) dominates
      granted

/-! ### The batch -/

section Claim

variable {workerId : String} {limit : ℕ} {recovery : RecoveryClock} {query : ClaimQuery}

/-- A batch has its jobs of high priority first. -/
lemma high_of_not_outranks {a b : InteractionJob} (h : ¬ Outranks b a) (high : b.priority = .high) :
    a.priority = .high := by
  by_contra low
  refine h (.inl ?_)
  rw [high]
  cases e : a.priority
  case high => exact absurd e low
  all_goals decide

/-- For every ledger and every batch of a claim that is admitted within one minute: a job that the rate
limiter refuses is followed by no job of its customer that it grants, with an estimate that is no
smaller and a budget that is no larger. -/
theorem no_priority_inversion
    (h : LLMWorkerService.claimAdmittedJobs cfg workerId limit recovery query clock db =
      .ok snapshots db')
    (window : ∀ j ∈ claimedJobs workerId [.llmAnalysis] limit query
        (recovered cfg workerId recovery db),
      ∀ k ∈ claimedJobs workerId [.llmAnalysis] limit query (recovered cfg workerId recovery db),
      minuteWindow (clock j.id 0) = minuteWindow (clock k.id 0)) :
    (claimedJobs workerId [.llmAnalysis] limit query (recovered cfg workerId recovery db)).Pairwise
      fun j k => Dominates cfg j k → TurnedAway db' j → TurnedAway db' k := by
  rw [claimAdmittedJobs_run] at h
  refine pairwise_of_admitJobs nodup_claimedJobs running_of_claimedJobs ?_ window h
  have ordered := (claimsFirst (recovered cfg workerId recovery db).queue workerId [.llmAnalysis]
    limit query).ordered
  exact List.pairwise_map.2 (ordered.imp fun h => high_of_not_outranks h)

end Claim

/-- A customer has two analyses, each beyond its budget of the minute. -/
def twoLarge : List Action := [
  .createIfAbsent { NewJob.plain 1 .llmAnalysis with priority := .low, tokenEstimate := 30000 },
  .createIfAbsent { NewJob.plain 2 .llmAnalysis with priority := .low, tokenEstimate := 40000 }]

theorem no_priority_inversion_plain : ∃ snapshots db',
    LLMWorkerService.claimAdmittedJobs settings "worker" 10 (.at 0) (.at 0) (fun _ _ => 0)
      (after twoLarge).db = .ok snapshots db' ∧
    (claimedJobs "worker" [.llmAnalysis] 10 (.at 0)
      (recovered settings "worker" (.at 0) (after twoLarge).db)).Pairwise
      fun j k => Dominates settings j k → TurnedAway db' j → TurnedAway db' k := by
  have returned : (commit (LLMWorkerService.claimAdmittedJobs settings "worker" 10 (.at 0) (.at 0)
      (fun _ _ => 0)) (after twoLarge).db).isSome := by decide +kernel
  cases h : LLMWorkerService.claimAdmittedJobs settings "worker" 10 (.at 0) (.at 0)
      (fun _ _ => 0) (after twoLarge).db with
  | error => simp [commit, h] at returned
  | ok snapshots db' => exact ⟨snapshots, db', rfl, no_priority_inversion h fun _ _ _ _ => rfl⟩

example : ((commit (LLMWorkerService.claimAdmittedJobs settings "worker" 10 (.at 0) (.at 0)
    (fun _ _ => 0)) (after twoLarge).db).map fun (_, db) => db.queue.jobs.rows.map (·.status)) =
    some [.deferred, .deferred] := by decide +kernel

end PostCall.Properties
