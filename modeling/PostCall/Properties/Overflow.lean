import Mathlib.Algebra.Order.BigOperators.Group.List
import PostCall.Properties.Conservation

/-!
# Overflow

A call of high priority may go beyond its customer's budget while the platform has room. What a
customer reserves in a window is then bounded through the platform: the row of a customer never
exceeds the row of the platform, and that row was below the threshold when the call was let in.
-/

namespace PostCall.Properties
open PostCall.Library PostCall.Python PostCall.Model PostCall.Machine

variable {cfg : Settings} {t t' : UsageTable} {s : Ledger} {calls : List LedgerCall}
  {customer : UUID} {windowStart : Time} {bound : ℚ}

/-- The largest of some numbers, or zero if there is none above it. -/
def largest (l : List ℤ) : ℤ := l.foldr max 0

lemma le_largest {l : List ℤ} {n : ℤ} (h : n ∈ l) : n ≤ largest l := by
  induction l with
  | nil => cases h
  | cons m l ih =>
    rcases List.mem_cons.1 h with rfl | h
    · exact le_max_left _ _
    · exact (ih h).trans (le_max_right _ _)

lemma largest_nonneg (l : List ℤ) : 0 ≤ largest l := by
  induction l with
  | nil => exact le_rfl
  | cons m l ih => exact ih.trans (le_max_right _ _)

/-- The budget a call passes, if it is an admission for this customer in this window. -/
def budgetPassed (cfg : Settings) (customer : UUID) (windowStart : Time) : LedgerCall → Option ℤ
  | .reserve customerId _ _ now budget =>
    if customerId = customer ∧ minuteWindow now = windowStart then some (customerBudget cfg budget)
    else none
  | .recordUsage .. => none

/-- The estimate of a call, if it is an admission of high priority for this customer in this
window. -/
def highEstimate (customer : UUID) (windowStart : Time) : LedgerCall → Option ℤ
  | .reserve customerId tokenEstimate priority now _ =>
    if customerId = customer ∧ minuteWindow now = windowStart ∧ priority = .high then
      some (max tokenEstimate 1)
    else none
  | .recordUsage .. => none

/-- The budgets passed by the calls of a customer in a window. -/
def budgetsPassed (cfg : Settings) (customer : UUID) (windowStart : Time)
    (calls : List LedgerCall) : List ℤ := calls.filterMap (budgetPassed cfg customer windowStart)

/-- The estimates of the calls of high priority of a customer in a window. -/
def highEstimates (customer : UUID) (windowStart : Time) (calls : List LedgerCall) : List ℤ :=
  calls.filterMap (highEstimate customer windowStart)

/-- Seventy percent of the tokens of the platform. -/
def overflowThreshold (cfg : Settings) : ℚ := 7 / 10 * cfg.llmTokensPerMinute

/-- The comparison of floats is the one of rationals. -/
lemma underOverflowLimit_iff {n limit : ℤ} (positive : 0 < limit) :
    underOverflowLimit n limit ↔ (n : ℚ) < 7 / 10 * limit := by
  have ne : limit ≠ 0 := positive.ne'
  have positive : (0 : ℚ) < limit := by exact_mod_cast positive
  simp only [underOverflowLimit, if_pos ne, decide_eq_true_eq]
  exact div_lt_iff₀ positive

/-- A reservation that is let in fits the customer's budget, or is of high priority and finds the
platform below the threshold. -/
lemma of_decideOn {budgetTokens tokens : ℤ} {allowOverflow : Bool}
    (positive : 0 < cfg.llmTokensPerMinute)
    (h : (decideOn cfg t customer windowStart budgetTokens tokens allowOverflow).allowed) :
    counter t (customer, windowStart) .reservedTokens + tokens ≤ budgetTokens ∨
      (allowOverflow ∧ (counter t (GLOBAL_RATE_LIMIT_ID, windowStart) .reservedTokens : ℚ) <
        overflowThreshold cfg) := by
  have positive : (0 : ℤ) < cfg.llmTokensPerMinute := by exact_mod_cast positive
  rcases decided.of_allowed h with fits | ⟨high, under⟩
  · exact .inl fits
  · have under := (underOverflowLimit_iff positive).1 under
    refine .inr ⟨?_, by exact_mod_cast under⟩
    by_contra low
    rw [if_neg low] at high
    cases high

/-- Nothing negative is reserved. -/
def NonNegative (t : UsageTable) : Prop := ∀ k, 0 ≤ counter t k .reservedTokens

lemma nonNegative_step (h : NonNegative s.usage) (call : LedgerCall) :
    NonNegative (s.step cfg call).usage := by
  intro k
  cases call with
  | reserve customerId tokenEstimate priority now budget =>
    simp only [Ledger.step]
    split
    case h_2 => exact h k
    case h_1 usage result e =>
      cases allowed : result.allowed with
      | false => exact (counter_of_refused e allowed k _).symm ▸ h k
      | true =>
        rw [counter_of_allowed e allowed k]
        have nonneg := h k
        have positive : (1 : ℤ) ≤ max tokenEstimate 1 := le_max_right _ _
        simp only [reserved]
        split <;> split <;> omega
  | recordUsage customerId actualTokens now budget =>
    simp only [Ledger.step]
    split
    case h_2 => exact h k
    case h_1 e =>
      rw [(recordUsage_ok e).counter]
      simpa [used] using h k

/-- The row of a customer does not exceed the row of the platform. -/
lemma customer_le_platform (conserved : Conserved t) (nonneg : NonNegative t)
    (real : customer ≠ GLOBAL_RATE_LIMIT_ID) :
    counter t (customer, windowStart) .reservedTokens ≤
      counter t (GLOBAL_RATE_LIMIT_ID, windowStart) .reservedTokens := by
  rw [conserved]
  have each : ∀ u ∈ t.rows, 0 ≤ u.reservedTokens := fun u mem =>
    (nonneg u.key).trans_eq (counter_of_mem mem rfl)
  have terms : ∀ n ∈ t.rows.map (fun u => if u.windowStart = windowStart ∧
      u.customerId ≠ GLOBAL_RATE_LIMIT_ID then Counter.reservedTokens.of u else 0), 0 ≤ n := by
    intro n h
    obtain ⟨u, mem, rfl⟩ := List.mem_map.1 h
    split
    · exact each u mem
    · exact le_rfl
  cases found : t.find? (customer, windowStart) with
  | none =>
    rw [counter, found]
    exact List.sum_nonneg terms
  | some u =>
    obtain ⟨mem, key⟩ := Table.find?_eq_some.1 found
    obtain ⟨ofCustomer, ofWindow⟩ := Prod.mk.inj key
    rw [counter_of_mem mem key]
    refine List.single_le_sum terms _ (List.mem_map.2 ⟨u, mem, ?_⟩)
    rw [if_pos ⟨ofWindow, ofCustomer ▸ real⟩]

/-- The bound covers what a call may reserve for the customer: within its budget, and beyond it when
the call is of high priority. -/
def Covered (cfg : Settings) (customer : UUID) (windowStart : Time) (bound : ℚ)
    (call : LedgerCall) : Prop :=
  (∀ budget ∈ budgetPassed cfg customer windowStart call, (budget : ℚ) ≤ bound) ∧
    ∀ estimate ∈ highEstimate customer windowStart call, overflowThreshold cfg + estimate ≤ bound

/-- A call that is covered keeps within the bound. -/
lemma reserved_step (positive : 0 < cfg.llmTokensPerMinute) (kept : Kept cfg s)
    (nonneg : NonNegative s.usage) (real : customer ≠ GLOBAL_RATE_LIMIT_ID) {call : LedgerCall}
    (covered : Covered cfg customer windowStart bound call)
    (le : (counter s.usage (customer, windowStart) .reservedTokens : ℚ) ≤ bound) :
    (counter (s.step cfg call).usage (customer, windowStart) .reservedTokens : ℚ) ≤ bound := by
  cases call with
  | reserve customerId tokenEstimate priority now budget =>
    simp only [Ledger.step]
    split
    case h_2 => exact le
    case h_1 usage result e =>
      cases allowed : result.allowed with
      | false => rwa [counter_of_refused e allowed]
      | true =>
        rw [counter_of_allowed e allowed, if_neg fun e => real (congrArg Prod.fst e), add_zero]
        split
        case isFalse => rwa [add_zero]
        case isTrue same =>
          obtain ⟨rfl, rfl⟩ := Prod.mk.inj same
          have decided := congrArg BudgetDecision.allowed (reserve_decided e)
          have fits := of_decideOn positive (decided.symm.trans allowed)
          rcases fits with fits | ⟨high, under⟩
          · have within := covered.1 (customerBudget cfg budget) (by simp [budgetPassed])
            exact le_trans (by exact_mod_cast fits) within
          · -- the customer's row was below the threshold, because the platform's was
            have high : priority = .high := by simpa using high
            have below := @customer_le_platform _ _ (minuteWindow now) kept.conserved nonneg
              real
            have below : (counter s.usage (customer, minuteWindow now) .reservedTokens : ℚ) <
                overflowThreshold cfg := lt_of_le_of_lt (by exact_mod_cast below) under
            have within := covered.2 (max tokenEstimate 1) (by simp [highEstimate, high])
            simp only [reserved, Int.cast_add]
            exact (add_le_add_left below.le _).trans within
  | recordUsage customerId actualTokens now budget =>
    simp only [Ledger.step]
    split
    case h_2 => exact le
    case h_1 e =>
      rw [(recordUsage_ok e).counter]
      simpa [used] using le

lemma reserved_of_run (positive : 0 < cfg.llmTokensPerMinute)
    (run : Run (Ledger.step cfg) RealCustomer ⟨.empty, []⟩ calls s)
    (real : customer ≠ GLOBAL_RATE_LIMIT_ID) (nonneg : 0 ≤ bound)
    (covered : ∀ call ∈ calls, Covered cfg customer windowStart bound call) :
    (counter s.usage (customer, windowStart) .reservedTokens : ℚ) ≤ bound := by
  have start : Kept cfg ⟨.empty, []⟩ := kept_of_run .nil
  refine ((run.of_forall_mem covered).invariant
    (I := fun s => Kept cfg s ∧ NonNegative s.usage ∧
      (counter s.usage (customer, windowStart) .reservedTokens : ℚ) ≤ bound)
    ⟨start, fun _ => le_rfl, nonneg⟩ ?_).2.2
  rintro s call ⟨kept, nonneg, le⟩ ⟨realCall, covered⟩
  exact ⟨kept_of_booked (booked_step cfg s call) realCall kept, nonNegative_step nonneg call,
    reserved_step positive kept nonneg real covered le⟩

/-- After an admission beyond the budget, the platform is below the threshold and the estimate. -/
lemma platform_of_overflow (positive : 0 < cfg.llmTokensPerMinute) {tokenEstimate : ℤ}
    {priority : JobPriority} {now : Time} {budget : Option ℤ} {result : ReservationResult}
    (real : customer ≠ GLOBAL_RATE_LIMIT_ID)
    (h : t.rateLimiterAdmit cfg customer tokenEstimate priority now budget = .ok (t', result))
    (overflow : result.reason = "ADMITTED_OVERFLOW") :
    (counter t' (GLOBAL_RATE_LIMIT_ID, minuteWindow now) .reservedTokens : ℚ) <
      overflowThreshold cfg + max tokenEstimate 1 := by
  have positive : (0 : ℤ) < cfg.llmTokensPerMinute := by exact_mod_cast positive
  have reason := (congrArg BudgetDecision.reason (reserve_decided h)).symm.trans overflow
  obtain ⟨allowed, under⟩ := decided.of_overflow reason
  have allowed := (congrArg BudgetDecision.allowed (reserve_decided h)).trans allowed
  have under := (underOverflowLimit_iff positive).1 under
  rw [counter_of_allowed h allowed, if_pos rfl, if_neg fun e => real (congrArg Prod.fst e).symm,
    add_zero, overflowThreshold]
  push_cast [reserved]
  exact add_lt_add_left (by exact_mod_cast under) _

/-- A bound over the largest budget and every estimate covers the calls. -/
lemma covered_of_mem {call : LedgerCall} (mem : call ∈ calls)
    (budgets : ((largest (budgetsPassed cfg customer windowStart calls) : ℤ) : ℚ) ≤ bound)
    (estimates : ∀ n ∈ highEstimates customer windowStart calls, overflowThreshold cfg + n ≤ bound) :
    Covered cfg customer windowStart bound call := by
  refine ⟨fun budget passed => ?_, fun estimate high => ?_⟩
  · have passed := le_largest (List.mem_filterMap.2 ⟨call, mem, passed⟩)
    exact le_trans (by exact_mod_cast passed) budgets
  · exact estimates estimate (List.mem_filterMap.2 ⟨call, mem, high⟩)

/-- In every sequence of calls of real customers, and in every window: without calls of high priority
a customer reserves no more than the largest budget its calls passed, or zero if that is negative; in
general no more than that or the threshold and its largest estimate of high priority; and right after
an admission beyond the budget the platform is below the threshold and the estimate of that call. -/
theorem overflow_bounded (positive : 0 < cfg.llmTokensPerMinute)
    (run : Run (Ledger.step cfg) RealCustomer ⟨.empty, []⟩ calls s)
    (real : customer ≠ GLOBAL_RATE_LIMIT_ID) (windowStart : Time) :
    (highEstimates customer windowStart calls = [] →
      counter s.usage (customer, windowStart) .reservedTokens ≤
        largest (budgetsPassed cfg customer windowStart calls)) ∧
    (counter s.usage (customer, windowStart) .reservedTokens : ℚ) ≤
      max ((largest (budgetsPassed cfg customer windowStart calls) : ℤ) : ℚ)
        (overflowThreshold cfg + largest (highEstimates customer windowStart calls)) ∧
    ∀ customerId tokenEstimate priority now budget usage result,
      customerId ≠ GLOBAL_RATE_LIMIT_ID →
      s.usage.rateLimiterAdmit cfg customerId tokenEstimate priority now budget =
        .ok (usage, result) →
      result.reason = "ADMITTED_OVERFLOW" →
      (counter usage (GLOBAL_RATE_LIMIT_ID, minuteWindow now) .reservedTokens : ℚ) <
        overflowThreshold cfg + max tokenEstimate 1 := by
  have nonneg : (0 : ℚ) ≤ (largest (budgetsPassed cfg customer windowStart calls) : ℤ) := by
    exact_mod_cast largest_nonneg _
  refine ⟨fun none => ?_, ?_, fun _ _ _ _ _ _ _ real e overflow =>
    platform_of_overflow positive real e overflow⟩
  · have le := reserved_of_run positive run real nonneg fun call mem =>
      covered_of_mem mem le_rfl fun n high => by rw [none] at high; cases high
    exact_mod_cast le
  · refine reserved_of_run positive run real (nonneg.trans (le_max_left _ _)) fun call mem =>
      covered_of_mem mem (le_max_left _ _) fun n high => le_trans ?_ (le_max_right _ _)
    have le : (n : ℚ) ≤ (largest (highEstimates customer windowStart calls) : ℤ) := by
      exact_mod_cast le_largest high
    exact add_le_add_right le _

/-- The customer's first call of `booked` goes beyond its budget of a thousand tokens. -/
theorem overflow_bounded_plain :
    counter (booked.foldl (Ledger.step settings) ⟨.empty, []⟩).usage (1, 0) .reservedTokens = 2000 ∧
      (counter (booked.foldl (Ledger.step settings) ⟨.empty, []⟩).usage (1, 0) .reservedTokens : ℚ) ≤
        max ((largest (budgetsPassed settings 1 0 booked) : ℤ) : ℚ)
          (overflowThreshold settings + largest (highEstimates 1 0 booked)) := by
  exact ⟨by decide +kernel, (overflow_bounded (by decide) run_booked (by decide +kernel) 0).2.1⟩

/-- A call that passes a negative budget, and is refused. -/
def negativeBudget : List LedgerCall := [.reserve 1 1 .medium 0 (some (-5))]

/-- A row starts at nothing reserved, which exceeds a negative budget. -/
theorem overflow_negative :
    ¬ ∀ (cfg : Settings) (calls : List LedgerCall) (s : Ledger) (customer : UUID)
      (windowStart : Time), 0 < cfg.llmTokensPerMinute →
      Run (Ledger.step cfg) RealCustomer ⟨.empty, []⟩ calls s →
      customer ≠ GLOBAL_RATE_LIMIT_ID →
      highEstimates customer windowStart calls = [] →
      budgetsPassed cfg customer windowStart calls ≠ [] →
      ∃ budget ∈ budgetsPassed cfg customer windowStart calls,
        counter s.usage (customer, windowStart) .reservedTokens ≤ budget := by
  intro bounded
  have run : Run (Ledger.step settings) RealCustomer ⟨.empty, []⟩ negativeBudget
      (negativeBudget.foldl (Ledger.step settings) ⟨.empty, []⟩) :=
    .cons (by decide +kernel : (1 : UUID) ≠ 0) .nil
  have none : ¬ ∃ budget ∈ budgetsPassed settings 1 0 negativeBudget,
      counter (negativeBudget.foldl (Ledger.step settings) ⟨.empty, []⟩).usage (1, 0)
        .reservedTokens ≤ budget := by decide +kernel
  exact none (bounded settings negativeBudget _ 1 0 (by decide) run (by decide +kernel)
    (by decide +kernel) (by decide +kernel))

end PostCall.Properties
