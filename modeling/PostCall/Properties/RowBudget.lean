import PostCall.Machine.Ledger

/-!
# The budget of a row

The budget of a row is that of the call that created it, and each later call is decided on the budget
that it brings itself. What is reserved on the row is therefore within the budget of the call that was
admitted last, and not in general within its own.
-/

namespace PostCall.Properties
open PostCall.Library PostCall.Python PostCall.Model PostCall.Machine

variable {cfg : Settings} {t t' : UsageTable} {customer : UUID} {windowStart now : Time}
  {budget : Option ℤ} {tokens : ℤ} {k : UUID × Time}

/-- A call of the rate limiter. -/
structure AdmitCall where
  customerId : UUID
  tokenEstimate : ℤ
  priority : JobPriority
  now : Time
  customerBudgetTokens : Option ℤ

/-- The row that the call is for. -/
def AdmitCall.key (call : AdmitCall) : UUID × Time := (call.customerId, minuteWindow call.now)

/-- What a call for a row was answered, and the budget that it was decided on. -/
structure Verdict where
  key : UUID × Time
  budgetTokens : ℤ
  admitted : Bool

/-- The ledger, and the calls that returned, newest first. -/
structure Admissions where
  usage : UsageTable
  verdicts : List Verdict

/-- One call in a transaction of its own: if it raises, nothing is written. -/
def Admissions.step (cfg : Settings) (s : Admissions) (call : AdmitCall) : Admissions :=
  match s.usage.rateLimiterAdmit cfg call.customerId call.tokenEstimate call.priority call.now
      call.customerBudgetTokens with
  | .ok (usage, result) =>
    ⟨usage, ⟨call.key, customerBudget cfg call.customerBudgetTokens, result.allowed⟩ :: s.verdicts⟩
  | .error _ => s

/-- The budget of the first call for a row that returned. -/
def firstBudget (verdicts : List Verdict) (k : UUID × Time) : Option ℤ :=
  ((verdicts.filter (·.key = k)).getLast?).map (·.budgetTokens)

/-- The budget of the call for a row that was admitted last, or zero if none was. -/
def admittedBudget (verdicts : List Verdict) (k : UUID × Time) : ℤ :=
  ((verdicts.filter fun v => v.key = k ∧ v.admitted).head?).elim 0 (·.budgetTokens)

/-- The call does not have high priority. -/
def NotHigh (_ : Admissions) (call : AdmitCall) : Prop := call.priority ≠ .high

/-! ### The budget that a row is created with -/

/-- The budget of a row, if there is one. -/
def budgetOf (t : UsageTable) (k : UUID × Time) : Option ℤ := (t.find? k).map (·.budgetTokens)

lemma budgetOf_of_mem {u : CustomerTokenUsage} (mem : u ∈ t.rows) :
    budgetOf t u.key = some u.budgetTokens := by
  rw [budgetOf, Table.find?_eq_some.2 ⟨mem, rfl⟩]
  rfl

/-- A row that is created has the budget that was passed. -/
lemma budgetOf_getOrCreateUsage {u : CustomerTokenUsage} {budgetTokens : ℤ}
    (h : t.getOrCreateUsage customer windowStart budgetTokens = .ok (t', u)) :
    budgetOf t' k =
      (budgetOf t k).or (if k = (customer, windowStart) then some budgetTokens else none) := by
  obtain ⟨found, rfl⟩ | ⟨absent, _, inserted⟩ := getOrCreateUsage_cases h
  · split
    case isTrue own => rw [own, budgetOf, found]; rfl
    case isFalse => rw [Option.or_none]
  · unfold budgetOf
    rw [Table.find?_insert? inserted]
    split
    case isTrue own =>
      obtain rfl : k = (customer, windowStart) := own
      rw [absent, if_pos rfl]
      rfl
    case isFalse other =>
      have other : k ≠ (customer, windowStart) := other
      rw [if_neg other, Option.or_none]

lemma budgetOf_addReservation :
    budgetOf (t.addReservation customer windowStart tokens) k = budgetOf t k := by
  unfold budgetOf UsageTable.addReservation
  rw [Table.find?_modify]
  split
  case isTrue => cases t.find? k <;> rfl
  case isFalse => rfl

/-- A reservation leaves the budgets of the rows that it finds, and creates those it does not find. -/
lemma budgetOf_reserve {allowOverflow : Bool} {result : ReservationResult}
    (h : t.reserve cfg customer tokens allowOverflow now budget = .ok (t', result)) :
    budgetOf t' k = (budgetOf t k).or
      (if k = (GLOBAL_RATE_LIMIT_ID, minuteWindow now) then some (cfg.llmTokensPerMinute : ℤ)
      else if k = (customer, minuteWindow now) then some (customerBudget cfg budget) else none) := by
  obtain ⟨t₁, platform, t₂, u, read, read', _, outcome⟩ := of_reserve_ok h
  have same : budgetOf t' k = budgetOf t₂ k := by
    split at outcome
    · rw [outcome, budgetOf_addReservation, budgetOf_addReservation]
    · rw [outcome]
  rw [same, budgetOf_getOrCreateUsage read', budgetOf_getOrCreateUsage read, Option.or_assoc]
  congr 1
  split <;> simp

/-- A row of the platform is created with the limit, whoever the reservation is for. -/
lemma budgetOf_platform {allowOverflow : Bool} {result : ReservationResult}
    (h : t.reserve cfg customer tokens allowOverflow now budget = .ok (t', result)) :
    budgetOf t' (GLOBAL_RATE_LIMIT_ID, windowStart) =
      (budgetOf t (GLOBAL_RATE_LIMIT_ID, windowStart)).or
        (if windowStart = minuteWindow now then some (cfg.llmTokensPerMinute : ℤ) else none) := by
  rw [budgetOf_reserve h]
  by_cases here : windowStart = minuteWindow now
  · rw [if_pos (by rw [here]), if_pos here]
  · rw [if_neg fun own => here (congrArg Prod.snd own),
      if_neg fun own => here (congrArg Prod.snd own), if_neg here]

/-! ### What the verdicts say of the rows -/

lemma firstBudget_cons {verdict : Verdict} {verdicts : List Verdict} :
    firstBudget (verdict :: verdicts) k = (firstBudget verdicts k).or
      (if k = verdict.key then some verdict.budgetTokens else none) := by
  unfold firstBudget
  by_cases own : k = verdict.key
  · subst own
    cases earlier : (verdicts.filter (·.key = verdict.key)).getLast? <;>
      simp [List.getLast?_cons, earlier]
  · simp [Ne.symm own, own]

lemma admittedBudget_cons {verdict : Verdict} {verdicts : List Verdict} :
    admittedBudget (verdict :: verdicts) k =
      if k = verdict.key ∧ verdict.admitted then verdict.budgetTokens
      else admittedBudget verdicts k := by
  unfold admittedBudget
  by_cases both : k = verdict.key ∧ verdict.admitted
  · obtain ⟨rfl, admitted⟩ := both
    simp [admitted]
  · rw [if_neg both, List.filter_cons_of_neg fun h => both ?_]
    simp only [decide_eq_true_eq] at h
    exact ⟨h.1.symm, h.2⟩

/-- The rows are as the calls have left them: a customer's has the budget of the first, and what is
reserved is within the budget of the last that was admitted. -/
structure Followed (cfg : Settings) (s : Admissions) : Prop where
  created : ∀ k, k.1 ≠ GLOBAL_RATE_LIMIT_ID → budgetOf s.usage k = firstBudget s.verdicts k
  reserved : ∀ k, k.1 ≠ GLOBAL_RATE_LIMIT_ID →
    counter s.usage k .reservedTokens ≤ admittedBudget s.verdicts k
  platform : ∀ windowStart, ∀ n ∈ budgetOf s.usage (GLOBAL_RATE_LIMIT_ID, windowStart),
    n = cfg.llmTokensPerMinute
  limited : ∀ windowStart, (∀ v ∈ s.verdicts, v.key ≠ (GLOBAL_RATE_LIMIT_ID, windowStart)) →
    counter s.usage (GLOBAL_RATE_LIMIT_ID, windowStart) .reservedTokens ≤ cfg.llmTokensPerMinute

/-- A call that is admitted without high priority fits the budget that it brings. -/
lemma fits_of_admitted {result : ReservationResult}
    (h : t.reserve cfg customer tokens false now budget = .ok (t', result)) (allowed : result.allowed) :
    counter t (customer, minuteWindow now) .reservedTokens + tokens ≤ customerBudget cfg budget := by
  have decision := (congrArg BudgetDecision.allowed (reserve_decided h)).symm.trans allowed
  rcases decided.of_allowed decision with fits | ⟨high, _⟩
  · exact fits
  · cases high

/-- Every call that is not HIGH is followed. -/
lemma followed_step {s : Admissions} {call : AdmitCall} (h : Followed cfg s) (low : NotHigh s call) :
    Followed cfg (s.step cfg call) := by
  unfold Admissions.step
  split
  case h_2 => exact h
  case h_1 usage result e =>
    have medium : decide (call.priority = .high) = false := decide_eq_false low
    unfold UsageTable.rateLimiterAdmit at e
    rw [medium] at e
    refine ⟨fun k real => ?_, fun k real => ?_, fun windowStart n mem => ?_, fun windowStart none => ?_⟩
    · rw [budgetOf_reserve e, if_neg fun own => real (congrArg Prod.fst own), h.created k real,
        firstBudget_cons]
      rfl
    · rw [admittedBudget_cons]
      have before := h.reserved k real
      cases allowed : result.allowed with
      | false => simpa [counter_of_refused e allowed] using before
      | true =>
        rw [counter_of_allowed e allowed, if_neg fun own => real (congrArg Prod.fst own), add_zero]
        by_cases own : k = (call.customerId, minuteWindow call.now)
        · rw [if_pos own, if_pos ⟨own, rfl⟩, own]
          exact fits_of_admitted e allowed
        · rw [if_neg own, if_neg fun both => own both.1, add_zero]
          exact before
    · rw [budgetOf_platform e] at mem
      cases found : budgetOf s.usage (GLOBAL_RATE_LIMIT_ID, windowStart) with
      | some n' =>
        rw [found] at mem
        exact h.platform windowStart n (found.trans mem)
      | none =>
        rw [found, Option.none_or] at mem
        split at mem
        case isTrue => exact (Option.some.inj mem).symm
        case isFalse => cases mem
    · have unused : (call.customerId, minuteWindow call.now) ≠ (GLOBAL_RATE_LIMIT_ID, windowStart) :=
        none _ List.mem_cons_self
      have before := h.limited windowStart fun v mem => none v (List.mem_cons_of_mem _ mem)
      cases allowed : result.allowed with
      | false => rwa [counter_of_refused e allowed]
      | true =>
        rw [counter_of_allowed e allowed, if_neg unused.symm, add_zero]
        split
        case isTrue here =>
          obtain rfl := congrArg Prod.snd here
          exact (fits_of_allowed e allowed).1
        case isFalse => rwa [add_zero]

/-- In every sequence of calls without high priority, a row of a customer has the budget of the first
call for it that returned, and what is reserved there is within the budget of the call that was admitted
last; so it is within the budget of the row, if that call brought no larger one. What is reserved on the
row of the platform is within its budget, if no call was for the reserved id. -/
theorem reserved_within_budget {calls : List AdmitCall} {s : Admissions}
    (run : Run (Admissions.step cfg) NotHigh ⟨.empty, []⟩ calls s) :
    ∀ u ∈ s.usage.rows,
      (u.customerId ≠ GLOBAL_RATE_LIMIT_ID →
        firstBudget s.verdicts u.key = some u.budgetTokens ∧
        u.reservedTokens ≤ admittedBudget s.verdicts u.key ∧
        (admittedBudget s.verdicts u.key ≤ u.budgetTokens → u.reservedTokens ≤ u.budgetTokens)) ∧
      (u.customerId = GLOBAL_RATE_LIMIT_ID → (∀ v ∈ s.verdicts, v.key ≠ u.key) →
        u.reservedTokens ≤ u.budgetTokens) := by
  have followed : Followed cfg s := by
    refine run.invariant ⟨fun _ _ => rfl, fun _ _ => le_rfl, fun _ _ mem => (nomatch mem),
      fun _ _ => Int.natCast_nonneg _⟩ fun _ _ => followed_step
  intro u mem
  have reserved : counter s.usage u.key .reservedTokens = u.reservedTokens := counter_of_mem mem rfl
  refine ⟨fun real => ?_, fun platform unused => ?_⟩
  · have le := followed.reserved u.key real
    rw [reserved] at le
    exact ⟨(followed.created u.key real).symm.trans (budgetOf_of_mem mem), le, le.trans⟩
  · have key : u.key = (GLOBAL_RATE_LIMIT_ID, u.windowStart) := congrArg (·, u.windowStart) platform
    have le := followed.limited u.windowStart (key ▸ unused)
    rw [← key, reserved] at le
    rwa [followed.platform u.windowStart u.budgetTokens (key ▸ budgetOf_of_mem mem)]

/-- Two calls of a customer in a minute, of which the second brings this budget. -/
def twoBudgets (second : ℤ) : List AdmitCall := [
  ⟨1, 500, .medium, 0, some 1000⟩,
  ⟨1, 1000, .medium, seconds 1, some second⟩]

/-- The ledger after these calls. -/
def admissionsOf (calls : List AdmitCall) : Admissions :=
  calls.foldl (Admissions.step settings) ⟨.empty, []⟩

instance {s : Admissions} {call : AdmitCall} : Decidable (NotHigh s call) :=
  inferInstanceAs (Decidable (_ ≠ _))

theorem reserved_within_budget_plain :
    ∃ u ∈ (admissionsOf (twoBudgets 1000)).usage.rows, u.customerId = 1 ∧ u.reservedTokens = 500 ∧
      u.reservedTokens ≤ u.budgetTokens := by
  have run : Run (Admissions.step settings) NotHigh ⟨.empty, []⟩ (twoBudgets 1000)
      (admissionsOf (twoBudgets 1000)) := Run.of_checked (by decide +kernel)
  obtain ⟨u, mem, own, reserved, last⟩ : ∃ u ∈ (admissionsOf (twoBudgets 1000)).usage.rows,
      u.customerId = 1 ∧ u.reservedTokens = 500 ∧
        admittedBudget (admissionsOf (twoBudgets 1000)).verdicts u.key ≤ u.budgetTokens := by
    decide +kernel
  have real : u.customerId ≠ GLOBAL_RATE_LIMIT_ID := own ▸ by decide
  exact ⟨u, mem, own, reserved, ((reserved_within_budget run u mem).1 real).2.2 last⟩

/-- The second call brings a larger budget than the one the row was created with. -/
theorem reserved_beyond_budget : ¬ ∀ (cfg : Settings) (calls : List AdmitCall) (s : Admissions),
    Run (Admissions.step cfg) NotHigh ⟨.empty, []⟩ calls s →
    ∀ u ∈ s.usage.rows, u.reservedTokens ≤ u.budgetTokens := by
  intro within
  have run : Run (Admissions.step settings) NotHigh ⟨.empty, []⟩ (twoBudgets 2000)
      (admissionsOf (twoBudgets 2000)) := Run.of_checked (by decide +kernel)
  obtain ⟨u, mem, exceeds⟩ : ∃ u ∈ (admissionsOf (twoBudgets 2000)).usage.rows,
      u.budgetTokens < u.reservedTokens := by decide +kernel
  exact absurd (within settings _ _ run u mem) (not_le.2 exceeds)

end PostCall.Properties
