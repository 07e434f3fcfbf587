import PostCall.Machine.Ledger

/-!
# Conservation

The row of the platform is the sum of the rows of the customers, window by window and counter by
counter, and an admission is the only thing that raises what is reserved. So the limits of the
platform hold for what the customers have reserved together, also on the branch that lets a customer
go beyond its own.
-/

namespace PostCall.Properties
open PostCall.Library PostCall.Python PostCall.Model PostCall.Machine

variable {cfg : Settings} {t t' : UsageTable} {s s' : Ledger} {calls : List LedgerCall}
  {customer : UUID} {windowStart : Time} {d : Counter → ℤ}

/-- The row of the platform is the sum of the rows of the customers. -/
def Conserved (t : UsageTable) : Prop :=
  ∀ windowStart f, counter t (GLOBAL_RATE_LIMIT_ID, windowStart) f = customersTotal t windowStart f

/-- What is reserved on the platform is within its limits. -/
structure WithinLimits (cfg : Settings) (t : UsageTable) : Prop where
  tokens : ∀ windowStart, counter t (GLOBAL_RATE_LIMIT_ID, windowStart) .reservedTokens ≤
    cfg.llmTokensPerMinute
  requests : ∀ windowStart, counter t (GLOBAL_RATE_LIMIT_ID, windowStart) .requestsReserved ≤
    cfg.llmRequestsPerMinute

/-- The reserved requests are the admissions that were granted. -/
def Counted (s : Ledger) : Prop := ∀ windowStart,
  counter s.usage (GLOBAL_RATE_LIMIT_ID, windowStart) .requestsReserved = s.granted.count windowStart

/-- The call is a reservation that returns, and is refused. -/
def Refused (cfg : Settings) (s : Ledger) (call : LedgerCall) : Prop :=
  ∃ customerId tokenEstimate priority now budget usage result,
    call = .reserve customerId tokenEstimate priority now budget ∧
    s.usage.rateLimiterAdmit cfg customerId tokenEstimate priority now budget =
      .ok (usage, result) ∧ result.allowed = false

/-- What the calls of real customers keep. -/
structure Kept (cfg : Settings) (s : Ledger) : Prop where
  conserved : Conserved s.usage
  limits : WithinLimits cfg s.usage
  counted : Counted s

/-- The call is for a real customer. -/
def RealCustomer (_ : Ledger) (call : LedgerCall) : Prop := call.customerId ≠ GLOBAL_RATE_LIMIT_ID

/-- The row of the platform is raised with the one of a customer. -/
lemma platform_of_raised (h : Raised t t' customer windowStart d)
    (real : customer ≠ GLOBAL_RATE_LIMIT_ID) (w : Time) (f : Counter) :
    counter t' (GLOBAL_RATE_LIMIT_ID, w) f =
      counter t (GLOBAL_RATE_LIMIT_ID, w) f + if windowStart = w then d f else 0 := by
  have other : (GLOBAL_RATE_LIMIT_ID, w) ≠ (customer, windowStart) := fun e =>
    real (congrArg Prod.fst e).symm
  rw [h.counter, if_neg other, add_zero]
  simp only [Prod.mk.injEq, true_and, eq_comm]

lemma customers_of_raised (h : Raised t t' customer windowStart d)
    (real : customer ≠ GLOBAL_RATE_LIMIT_ID) (w : Time) (f : Counter) :
    customersTotal t' w f = customersTotal t w f + if windowStart = w then d f else 0 := by
  rw [h.total]
  simp only [real, ne_eq, not_false_eq_true, and_true]

lemma conserved_of_raised (h : Raised t t' customer windowStart d)
    (real : customer ≠ GLOBAL_RATE_LIMIT_ID) (conserved : Conserved t) : Conserved t' := by
  intro w f
  rw [platform_of_raised h real, customers_of_raised h real, conserved]

/-- A limit that the raised row stays within. -/
lemma platform_le_of_raised {f : Counter} {limit : ℤ} (h : Raised t t' customer windowStart d)
    (real : customer ≠ GLOBAL_RATE_LIMIT_ID)
    (fits : counter t (GLOBAL_RATE_LIMIT_ID, windowStart) f + d f ≤ limit)
    (le : ∀ w, counter t (GLOBAL_RATE_LIMIT_ID, w) f ≤ limit) (w : Time) :
    counter t' (GLOBAL_RATE_LIMIT_ID, w) f ≤ limit := by
  rw [platform_of_raised h real]
  split
  case isTrue e => exact e ▸ fits
  case isFalse => exact (add_zero _).trans_le (le w)

lemma kept_of_booked (h : Booked cfg s customer s') (real : customer ≠ GLOBAL_RATE_LIMIT_ID)
    (kept : Kept cfg s) : Kept cfg s' := by
  obtain ⟨conserved, limits, counted⟩ := kept
  cases h with
  | idle opened =>
    refine ⟨fun w f => ?_, ⟨fun w => ?_, fun w => ?_⟩, fun w => ?_⟩
    · rw [opened.counter, opened.total]
      exact conserved w f
    · rw [opened.counter]
      exact limits.tokens w
    · rw [opened.counter]
      exact limits.requests w
    · rw [opened.counter]
      exact counted w
  | @granted _ windowStart tokens raised fits requests =>
    refine ⟨conserved_of_raised raised real conserved,
      ⟨platform_le_of_raised raised real fits limits.tokens,
        platform_le_of_raised raised real requests limits.requests⟩, fun w => ?_⟩
    rw [platform_of_raised raised real, counted w, List.count_cons]
    simp only [beq_iff_eq, reserved]
    split <;> simp
  | @recorded usage windowStart tokens raised =>
    -- what is reserved is not touched
    have same : ∀ w f, used tokens f = 0 →
        counter usage (GLOBAL_RATE_LIMIT_ID, w) f = counter s.usage (GLOBAL_RATE_LIMIT_ID, w) f := by
      intro w f zero
      rw [platform_of_raised raised real, zero, ite_self, add_zero]
    refine ⟨conserved_of_raised raised real conserved, ⟨fun w => ?_, fun w => ?_⟩, fun w => ?_⟩
    · exact (same w _ rfl).trans_le (limits.tokens w)
    · exact (same w _ rfl).trans_le (limits.requests w)
    · exact (same w _ rfl).trans (counted w)

lemma withinLimits_empty : WithinLimits cfg .empty :=
  ⟨fun _ => Int.natCast_nonneg _, fun _ => Int.natCast_nonneg _⟩

/-- Every run from the empty ledger keeps both. -/
lemma kept_of_run (run : Run (Ledger.step cfg) RealCustomer ⟨.empty, []⟩ calls s) : Kept cfg s :=
  run.invariant ⟨fun _ _ => rfl, withinLimits_empty, fun _ => rfl⟩
    fun s call kept real => kept_of_booked (booked_step cfg s call) real kept

lemma opened_of_refused {call : LedgerCall} (h : Refused cfg s call) :
    Opened s.usage (s.step cfg call).usage := by
  obtain ⟨customerId, tokenEstimate, priority, now, budget, usage, result, rfl, e, refused⟩ := h
  obtain ⟨opened, rows, outcome⟩ := reserve_ok e
  rw [refused] at outcome
  simp only [Ledger.step, e]
  rw [show usage = opened from outcome]
  exact rows

/-- In every sequence of calls of real customers, and in every window, the row of the platform is the
sum of the rows of the customers, what is reserved is within the limits, and the reserved requests
are the admissions granted; a reservation that is refused then changes no counter. -/
theorem ledger_kept (run : Run (Ledger.step cfg) RealCustomer ⟨.empty, []⟩ calls s) :
    Conserved s.usage ∧ WithinLimits cfg s.usage ∧ Counted s ∧
      ∀ call, Refused cfg s call → ∀ k f,
        counter (s.step cfg call).usage k f = counter s.usage k f := by
  obtain ⟨conserved, limits, counted⟩ := kept_of_run run
  exact ⟨conserved, limits, counted, fun call refused => (opened_of_refused refused).counter⟩

/-- A customer reserves beyond its budget, another one is refused, and the first one uses what it has
reserved. -/
def booked : List LedgerCall := [
  .reserve 1 2000 .high 0 (some 1000),
  .reserve 2 100000 .high 0 none,
  .recordUsage 1 1500 0 (some 1000)]

lemma run_booked : Run (Ledger.step settings) RealCustomer ⟨.empty, []⟩ booked
    (booked.foldl (Ledger.step settings) ⟨.empty, []⟩) :=
  .cons (by decide +kernel : (1 : UUID) ≠ 0) (.cons (by decide +kernel : (2 : UUID) ≠ 0)
    (.cons (by decide +kernel : (1 : UUID) ≠ 0) .nil))

theorem ledger_kept_plain :
    Conserved (booked.foldl (Ledger.step settings) ⟨.empty, []⟩).usage ∧
      counter (booked.foldl (Ledger.step settings) ⟨.empty, []⟩).usage (1, 0) .reservedTokens =
        2000 := ⟨(ledger_kept run_booked).1, by decide +kernel⟩

end PostCall.Properties
