import Mathlib.Algebra.Order.BigOperators.Group.List
import PostCall.Library.Position
import PostCall.Properties.Isolation

/-!
# Headroom

Admissions that fit, all of them together, into what a window has left are granted in whatever order
they come: each one leaves room for the rest. What the window has left does not depend on the order,
and neither does what the ledger has counted in the end.
-/

namespace PostCall.Properties
open PostCall.Library PostCall.Python PostCall.Model PostCall.Machine

variable {cfg : Settings} {s : Ledger} {call : LedgerCall} {calls order : List LedgerCall}
  {windowStart : Time}

/-- The tokens that a call asks for. -/
def estimate : LedgerCall → ℤ
  | .reserve _ tokenEstimate _ _ _ => max tokenEstimate 1
  | .recordUsage .. => 0

/-- The budget that a call comes with. -/
def budget? (cfg : Settings) : LedgerCall → Option ℤ
  | .reserve _ _ _ _ budget => some (customerBudget cfg budget)
  | .recordUsage .. => none

/-- What the calls of one customer ask for. -/
def estimatesOf (customer : UUID) (calls : List LedgerCall) : List ℤ :=
  (calls.filter (·.customerId = customer)).map estimate

/-- The call is an admission of a real customer in the window. -/
def AdmissionIn (windowStart : Time) : LedgerCall → Prop
  | .reserve customerId _ _ now _ =>
    minuteWindow now = windowStart ∧ customerId ≠ GLOBAL_RATE_LIMIT_ID
  | .recordUsage .. => False

instance : DecidablePred (AdmissionIn windowStart)
  | .reserve customerId _ _ now _ =>
    inferInstanceAs (Decidable (minuteWindow now = windowStart ∧ customerId ≠ GLOBAL_RATE_LIMIT_ID))
  | .recordUsage .. => inferInstanceAs (Decidable False)

/-- The decisions on a sequence of admissions. -/
def decisions (cfg : Settings) : Ledger → List LedgerCall → List (Option BudgetDecision)
  | _, [] => []
  | s, call :: calls => answer cfg s.usage call :: decisions cfg (s.step cfg call) calls

/-- What an admission in a window adds to a counter. -/
def gain (windowStart : Time) (k : UUID × Time) (f : Counter) (call : LedgerCall) : ℤ :=
  (if k = (GLOBAL_RATE_LIMIT_ID, windowStart) then reserved (estimate call) f else 0) +
    (if k = (call.customerId, windowStart) then reserved (estimate call) f else 0)

/-- What the window has left takes all the calls. -/
structure Headroom (cfg : Settings) (windowStart : Time) (s : Ledger) (calls : List LedgerCall) :
    Prop where
  admissions : ∀ call ∈ calls, AdmissionIn windowStart call
  platform : fitsInteger cfg.llmTokensPerMinute
  fits : ∀ call ∈ calls, ∀ budget ∈ budget? cfg call, fitsInteger budget
  tokens : counter s.usage (GLOBAL_RATE_LIMIT_ID, windowStart) .reservedTokens +
    (calls.map estimate).sum ≤ cfg.llmTokensPerMinute
  requests : counter s.usage (GLOBAL_RATE_LIMIT_ID, windowStart) .requestsReserved + calls.length ≤
    cfg.llmRequestsPerMinute
  budgets : ∀ call ∈ calls, ∀ budget ∈ budget? cfg call,
    counter s.usage (call.customerId, windowStart) .reservedTokens +
      (estimatesOf call.customerId calls).sum ≤ budget

lemma estimate_nonneg (call : LedgerCall) : 0 ≤ estimate call := by
  cases call with
  | reserve => exact zero_le_one.trans (le_max_right _ _)
  | recordUsage => exact le_rfl

lemma sum_estimate_nonneg (calls : List LedgerCall) : 0 ≤ (calls.map estimate).sum := by
  refine List.sum_nonneg fun n mem => ?_
  obtain ⟨call, _, rfl⟩ := List.mem_map.1 mem
  exact estimate_nonneg call

/-- The estimates of a customer with one call more. -/
lemma sum_estimatesOf_cons {customer : UUID} : (estimatesOf customer (call :: calls)).sum =
    (if call.customerId = customer then estimate call else 0) + (estimatesOf customer calls).sum := by
  unfold estimatesOf
  simp only [sum_map_filter_cons, decide_eq_true_eq]

namespace Headroom

lemma perm (h : Headroom cfg windowStart s calls) (order_perm : order.Perm calls) :
    Headroom cfg windowStart s order where
  admissions call mem := h.admissions call (order_perm.mem_iff.1 mem)
  platform := h.platform
  fits call mem := h.fits call (order_perm.mem_iff.1 mem)
  tokens := (order_perm.map estimate).sum_eq ▸ h.tokens
  requests := order_perm.length_eq ▸ h.requests
  budgets call mem budget passed := by
    have own : (estimatesOf call.customerId order).Perm (estimatesOf call.customerId calls) :=
      (order_perm.filter _).map estimate
    rw [own.sum_eq]
    exact h.budgets call (order_perm.mem_iff.1 mem) budget passed

/-- The first call is granted within its budget, and raises what it asks for. -/
lemma grants (h : Headroom cfg windowStart s (call :: calls)) :
    answer cfg s.usage call = some ⟨true, "ADMITTED"⟩ ∧
      ∀ k f, counter (s.step cfg call).usage k f =
        counter s.usage k f + gain windowStart k f call := by
  have first := h.admissions call List.mem_cons_self
  cases call with
  | recordUsage => exact first.elim
  | reserve customer tokenEstimate priority now budget =>
    obtain ⟨rfl, real⟩ := first
    have fits := h.fits _ List.mem_cons_self _ rfl
    have opens : (platformOpens cfg s.usage (minuteWindow now) &&
        ((s.usage.find? (customer, minuteWindow now)).isSome ||
          fitsInteger (customerBudget cfg budget))) = true := by
      simp only [platformOpens, h.platform, fits, Bool.or_true, Bool.and_true]
    obtain ⟨usage, result, e⟩ : ∃ usage result, s.usage.rateLimiterAdmit cfg customer tokenEstimate
        priority now budget = .ok (usage, result) := (admit_returns real).2 opens
    -- the other calls ask for nothing negative, so the limits and the budget take this one
    have others : 0 ≤ (calls.map estimate).sum := sum_estimate_nonneg _
    have own : 0 ≤ (estimatesOf customer calls).sum := sum_estimate_nonneg _
    have tokens := h.tokens
    have requests := h.requests
    have within := h.budgets _ List.mem_cons_self _ rfl
    rw [List.map_cons, List.sum_cons] at tokens
    rw [List.length_cons, Nat.cast_add, Nat.cast_one] at requests
    rw [sum_estimatesOf_cons, if_pos rfl] at within
    simp only [estimate, LedgerCall.customerId] at tokens within
    have decision : decideOn cfg s.usage customer (minuteWindow now) (customerBudget cfg budget)
        (max tokenEstimate 1) (priority = .high) = ⟨true, "ADMITTED"⟩ := by
      unfold decideOn decideAdmission
      rw [if_neg (by simp only; omega), if_neg (by simp only; omega),
        if_pos (by simp only; omega)]
    have answered := (reserve_decided e).trans decision
    obtain ⟨allowed, reason⟩ := BudgetDecision.mk.inj answered
    refine ⟨by simp only [answer, e, answered], fun k f => ?_⟩
    simp only [Ledger.step, e, gain, estimate, LedgerCall.customerId]
    rw [counter_of_allowed e allowed, add_assoc]
    rfl

/-- It leaves room for the rest. -/
lemma step (h : Headroom cfg windowStart s (call :: calls)) :
    Headroom cfg windowStart (s.step cfg call) calls := by
  have raised := h.grants.2
  have real : ∀ call' ∈ call :: calls, call'.customerId ≠ GLOBAL_RATE_LIMIT_ID := by
    intro call' mem
    have admission := h.admissions call' mem
    cases call' with
    | reserve => exact admission.2
    | recordUsage => exact admission.elim
  have other : ∀ call' ∈ call :: calls, (call'.customerId, windowStart) ≠
      (GLOBAL_RATE_LIMIT_ID, windowStart) := fun call' mem e =>
    real call' mem (congrArg Prod.fst e)
  refine ⟨fun call' mem => h.admissions call' (List.mem_cons_of_mem _ mem), h.platform,
    fun call' mem => h.fits call' (List.mem_cons_of_mem _ mem), ?_, ?_, fun call' mem budget passed => ?_⟩
  · have tokens := h.tokens
    rw [List.map_cons, List.sum_cons, ← add_assoc] at tokens
    rw [raised, gain, if_pos rfl, if_neg (other call List.mem_cons_self).symm, add_zero]
    exact tokens
  · have requests := h.requests
    rw [List.length_cons, Nat.cast_add, Nat.cast_one] at requests
    rw [raised, gain, if_pos rfl, if_neg (other call List.mem_cons_self).symm, add_zero, reserved]
    omega
  · have mem' := List.mem_cons_of_mem call mem
    have within := h.budgets call' mem' budget passed
    rw [sum_estimatesOf_cons] at within
    rw [raised, gain, if_neg (other call' mem'), zero_add]
    by_cases own : call.customerId = call'.customerId
    · rw [if_pos own] at within
      rw [if_pos (by rw [own]), reserved]
      omega
    · rw [if_neg own] at within
      rw [if_neg fun e => own (congrArg Prod.fst e).symm]
      omega

/-- All of them are granted within their budgets, and raise what they ask for. -/
lemma grants_all (h : Headroom cfg windowStart s calls) :
    decisions cfg s calls = calls.map (fun _ => some ⟨true, "ADMITTED"⟩) ∧
      ∀ k f, counter (calls.foldl (Ledger.step cfg) s).usage k f =
        counter s.usage k f + (calls.map (gain windowStart k f)).sum := by
  induction calls generalizing s with
  | nil => exact ⟨rfl, fun k f => (add_zero _).symm⟩
  | cons call calls ih =>
    obtain ⟨granted, raised⟩ := h.grants
    obtain ⟨later, total⟩ := ih h.step
    refine ⟨by rw [decisions, granted, later, List.map_cons], fun k f => ?_⟩
    rw [List.foldl_cons, total, raised, List.map_cons, List.sum_cons, add_assoc]

end Headroom

lemma counter_of_fresh (fresh : ∀ u ∈ s.usage.rows, u.windowStart ≠ windowStart) (customer : UUID)
    (f : Counter) : counter s.usage (customer, windowStart) f = 0 := by
  have absent : s.usage.find? (customer, windowStart) = none :=
    Table.find?_eq_none.2 fun u mem key => fresh u mem (congrArg Prod.snd key)
  rw [counter, absent]
  rfl

/-- Admissions of real customers in a window that has no rows yet, whose budgets fit their column: if
all of them fit into the limits of the platform, and those of each customer into the smallest of its
budgets, then in every order every one is granted within its budget, and the ledger has counted the
same in the end. -/
theorem admitted_in_any_order (fresh : ∀ u ∈ s.usage.rows, u.windowStart ≠ windowStart)
    (admissions : ∀ call ∈ calls, AdmissionIn windowStart call)
    (platform : fitsInteger cfg.llmTokensPerMinute)
    (fits : ∀ call ∈ calls, ∀ budget ∈ budget? cfg call, fitsInteger budget)
    (tokens : (calls.map estimate).sum ≤ cfg.llmTokensPerMinute)
    (requests : calls.length ≤ cfg.llmRequestsPerMinute)
    (budgets : ∀ call ∈ calls, ∀ budget ∈ budget? cfg call,
      (estimatesOf call.customerId calls).sum ≤ budget)
    (perm : order.Perm calls) :
    decisions cfg s order = order.map (fun _ => some ⟨true, "ADMITTED"⟩) ∧
      ∀ k f, counter (order.foldl (Ledger.step cfg) s).usage k f =
        counter (calls.foldl (Ledger.step cfg) s).usage k f := by
  have room : Headroom cfg windowStart s calls := by
    refine ⟨admissions, platform, fits, ?_, ?_, fun call mem budget passed => ?_⟩
    · rw [counter_of_fresh fresh, zero_add]
      exact tokens
    · rw [counter_of_fresh fresh, zero_add]
      exact_mod_cast requests
    · rw [counter_of_fresh fresh, zero_add]
      exact budgets call mem budget passed
  obtain ⟨granted, total⟩ := (room.perm perm).grants_all
  refine ⟨granted, fun k f => ?_⟩
  rw [total, room.grants_all.2, (perm.map _).sum_eq]

/-- Three admissions that use up two budgets and the platform, in a platform of 2000 tokens. -/
def exactFit : List LedgerCall := [
  .reserve 1 700 .medium 0 (some 1000),
  .reserve 2 1000 .low 5 (some 1000),
  .reserve 1 300 .high 7 (some 1000)]

def smallPlatform : Settings := { settings with llmTokensPerMinute := 2000, llmRequestsPerMinute := 3 }

theorem admitted_in_any_order_plain :
    decisions smallPlatform ⟨.empty, []⟩ exactFit.reverse =
      exactFit.reverse.map (fun _ => some ⟨true, "ADMITTED"⟩) :=
  (@admitted_in_any_order smallPlatform ⟨.empty, []⟩ exactFit _ 0 (fun _ mem => by cases mem)
    (by decide +kernel) (by decide +kernel) (by decide +kernel) (by decide +kernel)
    (by decide +kernel) (by decide +kernel) (List.reverse_perm _)).1

/-- One admission, with a budget that does not fit its column. -/
def wideBudget : List LedgerCall := [.reserve 1 1 .medium 0 (some 2147483648)]

/-- The insert of the customer's row raises, and the admission with it. -/
theorem not_admitted_in_any_order :
    ¬ ∀ (cfg : Settings) (s : Ledger) (windowStart : Time) (calls order : List LedgerCall),
      (∀ u ∈ s.usage.rows, u.windowStart ≠ windowStart) →
      (∀ call ∈ calls, AdmissionIn windowStart call) →
      (calls.map estimate).sum ≤ cfg.llmTokensPerMinute →
      calls.length ≤ cfg.llmRequestsPerMinute →
      (∀ call ∈ calls, ∀ budget ∈ budget? cfg call,
        (estimatesOf call.customerId calls).sum ≤ budget) →
      order.Perm calls →
      decisions cfg s order = order.map fun _ => some ⟨true, "ADMITTED"⟩ := by
  intro granted
  have refused : decisions settings ⟨.empty, []⟩ wideBudget ≠
      wideBudget.map fun _ => some ⟨true, "ADMITTED"⟩ := by decide +kernel
  exact refused (granted settings ⟨.empty, []⟩ 0 wideBudget wideBudget (fun _ mem => by cases mem)
    (by decide +kernel) (by decide +kernel) (by decide +kernel) (by decide +kernel) (.refl _))

end PostCall.Properties
