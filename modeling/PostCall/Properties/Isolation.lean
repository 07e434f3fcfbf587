import PostCall.Machine.Ledger

/-!
# Isolation

What the admission of a customer depends on, as long as the platform is not at its limit and the
customer does not ask for overflow: its own row alone. A `Bucket` is that row without the rest of the
ledger; the calls of the other customers leave it as it is, and the customer's own calls act on it as
if nobody else was there.
-/

namespace PostCall.Properties
open PostCall.Library PostCall.Python PostCall.Model PostCall.Machine

variable {cfg : Settings} {t t' : UsageTable} {s : Ledger} {call : LedgerCall}
  {calls calls' : List LedgerCall} {customer : UUID} {windowStart : Time}

/-- What an admission asks for: an estimate, and a budget. -/
abbrev Request := ℤ × Option ℤ

/-- The row of one customer in one window: whether it is there, and what it has reserved. -/
structure Bucket where
  known : Bool
  reservedTokens : ℤ
  requestsReserved : ℤ

namespace Bucket

/-- The bucket of a customer in the ledger. -/
def ofTable (t : UsageTable) (k : UUID × Time) : Bucket :=
  ⟨(t.find? k).isSome, counter t k .reservedTokens, counter t k .requestsReserved⟩

/-- An admission that looks at the bucket alone, with its decision unless it raises. The row of the
platform is there, or can be made. -/
def admitOne (cfg : Settings) (platform : Bool) (b : Bucket) (request : Request) :
    Bucket × Option BudgetDecision :=
  let budget := customerBudget cfg request.2
  let tokens := max request.1 1
  if platform && (b.known || fitsInteger budget) then
    if b.reservedTokens + tokens ≤ budget then
      (⟨true, b.reservedTokens + tokens, b.requestsReserved + 1⟩, some ⟨true, "ADMITTED"⟩)
    else ({ b with known := true }, some ⟨false, "CUSTOMER_TOKEN_BUDGET"⟩)
  else (b, none)

/-- A request for an open bucket is weighed. -/
lemma admitOne_of_opens {platform : Bool} {b : Bucket} {request : Request}
    (opens : (platform && (b.known || fitsInteger (customerBudget cfg request.2))) = true) :
    b.admitOne cfg platform request =
      if b.reservedTokens + max request.1 1 ≤ customerBudget cfg request.2 then
        (⟨true, b.reservedTokens + max request.1 1, b.requestsReserved + 1⟩,
          some ⟨true, "ADMITTED"⟩)
      else ({ b with known := true }, some ⟨false, "CUSTOMER_TOKEN_BUDGET"⟩) := if_pos opens

/-- One for a bucket that does not open raises. -/
lemma admitOne_of_not_opens {platform : Bool} {b : Bucket} {request : Request}
    (raises : ¬ (platform && (b.known || fitsInteger (customerBudget cfg request.2))) = true) :
    b.admitOne cfg platform request = (b, none) := if_neg raises

def admitAll (cfg : Settings) (platform : Bool) : Bucket → List Request →
    Bucket × List (Option BudgetDecision)
  | b, [] => (b, [])
  | b, request :: requests =>
    let (b, decision) := b.admitOne cfg platform request
    let (b, decisions) := admitAll cfg platform b requests
    (b, decision :: decisions)

end Bucket

/-- What a call asks for, if it is an admission of the customer. -/
def request? (customer : UUID) : LedgerCall → Option Request
  | .reserve customerId tokenEstimate _ _ budget =>
    if customerId = customer then some (tokenEstimate, budget) else none
  | .recordUsage .. => none

/-- The admissions of a customer in a sequence of calls. -/
def requests (customer : UUID) (calls : List LedgerCall) : List Request :=
  calls.filterMap (request? customer)

/-- The decision on an admission, unless it raises. -/
def answer (cfg : Settings) (t : UsageTable) : LedgerCall → Option BudgetDecision
  | .reserve customerId tokenEstimate priority now budget =>
    match t.rateLimiterAdmit cfg customerId tokenEstimate priority now budget with
    | .ok (_, result) => some ⟨result.allowed, result.reason⟩
    | .error _ => none
  | .recordUsage .. => none

/-- The decisions on the admissions of a customer, in their order. -/
def answers (cfg : Settings) (customer : UUID) : Ledger → List LedgerCall →
    List (Option BudgetDecision)
  | _, [] => []
  | s, call :: calls =>
    (if (request? customer call).isSome then [answer cfg s.usage call] else []) ++
      answers cfg customer (s.step cfg call) calls

/-- The call is an admission in the window for a real customer, and of high priority only if it is
for another one than this. -/
def Ordinary (customer : UUID) (windowStart : Time) : LedgerCall → Prop
  | .reserve customerId _ priority now _ =>
    minuteWindow now = windowStart ∧ customerId ≠ GLOBAL_RATE_LIMIT_ID ∧
      (customerId = customer → priority ≠ .high)
  | .recordUsage .. => False

/-- No admission of the customer is refused for the sake of the platform. -/
def Unthrottled (cfg : Settings) (customer : UUID) (s : Ledger) (calls : List LedgerCall) : Prop :=
  ∀ decision ∈ answers cfg customer s calls, ∀ d ∈ decision, d.reason ≠ "GLOBAL_RATE_LIMIT"

/-- The row of the platform is there, or can be made. -/
def platformOpens (cfg : Settings) (t : UsageTable) (windowStart : Time) : Bool :=
  (t.find? (GLOBAL_RATE_LIMIT_ID, windowStart)).isSome || fitsInteger cfg.llmTokensPerMinute

instance : DecidablePred (Ordinary customer windowStart) := fun call => by
  cases call <;> unfold Ordinary <;> infer_instance

instance (cfg : Settings) (customer : UUID) (s : Ledger) (calls : List LedgerCall) :
    Decidable (Unthrottled cfg customer s calls) := by
  unfold Unthrottled; infer_instance

/-- A row is found exactly where its key is known. -/
lemma isSome_find? {k : UUID × Time} : (t.find? k).isSome = true ↔ Known t k := by
  rw [Option.isSome_iff_exists]
  constructor
  · rintro ⟨u, found⟩
    exact ⟨u, Table.find?_eq_some.1 found⟩
  · rintro ⟨u, mem, key⟩
    exact ⟨u, Table.find?_eq_some.2 ⟨mem, key⟩⟩

/-- Without overflow, what the platform does not refuse is decided by the customer's own row. -/
lemma decided_low {globalState customerState : BudgetState} {tokens : ℤ} {priority : JobPriority}
    {decision : BudgetDecision} (h : Decided globalState customerState tokens priority decision)
    (low : priority ≠ .high) (free : decision.reason ≠ "GLOBAL_RATE_LIMIT") :
    decision = if customerState.reservedTokens + tokens ≤ customerState.tokenLimit then
      ⟨true, "ADMITTED"⟩ else ⟨false, "CUSTOMER_TOKEN_BUDGET"⟩ := by
  cases h with
  | platform => exact absurd rfl free
  | admitted fits => rw [if_pos fits]
  | overflow high => exact absurd high low
  | budget exceeds => rw [if_neg exceeds]

section Reserve

variable {tokenEstimate : ℤ} {priority : JobPriority} {now : Time} {budget : Option ℤ}

/-- An admission returns if the platform's row opens, and the customer's. -/
lemma admit_returns (real : customer ≠ GLOBAL_RATE_LIMIT_ID) :
    (∃ t' result, t.rateLimiterAdmit cfg customer tokenEstimate priority now budget =
      .ok (t', result)) ↔
      (platformOpens cfg t (minuteWindow now) && ((t.find? (customer, minuteWindow now)).isSome ||
        fitsInteger (customerBudget cfg budget))) = true := by
  unfold UsageTable.rateLimiterAdmit
  rw [reserve_returns, Bool.and_eq_true, platformOpens, Bool.or_eq_true, Bool.or_eq_true,
    isSome_find?, isSome_find?]
  simp only [real, false_or]

/-- An admission without overflow that the platform does not refuse answers what the customer's own
row says. -/
lemma answered {result : ReservationResult} (low : priority ≠ .high)
    (h : t.rateLimiterAdmit cfg customer tokenEstimate priority now budget = .ok (t', result))
    (free : result.reason ≠ "GLOBAL_RATE_LIMIT") :
    BudgetDecision.mk result.allowed result.reason =
      if counter t (customer, minuteWindow now) .reservedTokens + max tokenEstimate 1 ≤
        customerBudget cfg budget then ⟨true, "ADMITTED"⟩ else ⟨false, "CUSTOMER_TOKEN_BUDGET"⟩ := by
  have decision := reserve_decided h
  have free := (congrArg BudgetDecision.reason decision).symm.trans_ne free
  rw [decision]
  exact decided_low decided (by simpa using low) free

/-- The customer's row after its admission returned. -/
lemma bucket_of_admit {result : ReservationResult} (real : customer ≠ GLOBAL_RATE_LIMIT_ID)
    (h : t.rateLimiterAdmit cfg customer tokenEstimate priority now budget = .ok (t', result)) :
    Bucket.ofTable t' (customer, minuteWindow now) =
      if result.allowed then
        ⟨true, counter t (customer, minuteWindow now) .reservedTokens + max tokenEstimate 1,
          counter t (customer, minuteWindow now) .requestsReserved + 1⟩
      else { Bucket.ofTable t (customer, minuteWindow now) with known := true } := by
  have known : (t'.find? (customer, minuteWindow now)).isSome = true :=
    isSome_find?.2 ((known_reserve h).2 (.inr (.inr rfl)))
  have other : (customer, minuteWindow now) ≠ (GLOBAL_RATE_LIMIT_ID, minuteWindow now) := fun e =>
    real (congrArg Prod.fst e)
  unfold Bucket.ofTable
  cases allowed : result.allowed with
  | true =>
    simp only [known, counter_of_allowed h allowed, if_neg other, add_zero, reserved, if_true]
  | false =>
    simp only [known, counter_of_refused h allowed]
    rfl

/-- The customer's own admission acts on its bucket as if nobody else was there. -/
lemma own_step (real : customer ≠ GLOBAL_RATE_LIMIT_ID) (low : priority ≠ .high)
    (free : ∀ d ∈ answer cfg s.usage (.reserve customer tokenEstimate priority now budget),
      d.reason ≠ "GLOBAL_RATE_LIMIT") :
    (Bucket.ofTable s.usage (customer, minuteWindow now)).admitOne cfg
        (platformOpens cfg s.usage (minuteWindow now)) (tokenEstimate, budget) =
      (.ofTable (s.step cfg (.reserve customer tokenEstimate priority now budget)).usage
        (customer, minuteWindow now),
        answer cfg s.usage (.reserve customer tokenEstimate priority now budget)) := by
  have returns := @admit_returns cfg s.usage _ tokenEstimate priority now budget real
  cases e : s.usage.rateLimiterAdmit cfg customer tokenEstimate priority now budget with
  | error raised =>
    rw [Bucket.admitOne_of_not_opens]
    · simp only [answer, Ledger.step, e]
    · intro opens
      obtain ⟨t', result, e'⟩ := returns.2 opens
      rw [e] at e'
      cases e'
  | ok p =>
    obtain ⟨usage, result⟩ := p
    have opens := returns.1 ⟨usage, result, e⟩
    simp only [answer, e, Option.mem_some_iff, forall_eq'] at free
    have decision := answered low e free
    rw [Bucket.admitOne_of_opens opens]
    simp only [answer, Ledger.step, e, bucket_of_admit real e]
    split
    case isTrue fits =>
      have decision := decision.trans (if_pos fits)
      obtain ⟨allowed, -⟩ := BudgetDecision.mk.inj decision
      rw [decision, if_pos allowed]
      rfl
    case isFalse exceeds =>
      have decision := decision.trans (if_neg exceeds)
      obtain ⟨refused, -⟩ := BudgetDecision.mk.inj decision
      rw [decision, refused, if_neg Bool.false_ne_true]

/-- An admission of another customer leaves the bucket alone. -/
lemma other_step {other : UUID} (real : customer ≠ GLOBAL_RATE_LIMIT_ID) (ne : other ≠ customer) :
    Bucket.ofTable (s.step cfg (.reserve other tokenEstimate priority now budget)).usage
        (customer, windowStart) = .ofTable s.usage (customer, windowStart) := by
  simp only [Ledger.step]
  split
  case h_2 => rfl
  case h_1 usage result h =>
    have notPlatform : (customer, windowStart) ≠ (GLOBAL_RATE_LIMIT_ID, minuteWindow now) := fun e =>
      real (congrArg Prod.fst e)
    have notOther : (customer, windowStart) ≠ (other, minuteWindow now) := fun e =>
      ne (congrArg Prod.fst e).symm
    have known : (usage.find? (customer, windowStart)).isSome =
        (s.usage.find? (customer, windowStart)).isSome := by
      rw [Bool.eq_iff_iff, isSome_find?, isSome_find?, known_reserve h]
      simp only [notPlatform, notOther, or_false]
    unfold Bucket.ofTable
    cases allowed : result.allowed with
    | true => simp only [known, counter_of_allowed h allowed, if_neg notPlatform, if_neg notOther,
        add_zero]
    | false => simp only [known, counter_of_refused h allowed]

/-- An admission in a window opens the platform's row there, if it opens at all. -/
lemma platformOpens_step {other : UUID} :
    platformOpens cfg (s.step cfg (.reserve other tokenEstimate priority now budget)).usage
        (minuteWindow now) = platformOpens cfg s.usage (minuteWindow now) := by
  simp only [Ledger.step]
  split
  case h_2 => rfl
  case h_1 usage result h =>
    have opens := (reserve_returns.1 ⟨usage, result, h⟩).1
    have known : Known usage (GLOBAL_RATE_LIMIT_ID, minuteWindow now) :=
      (known_reserve h).2 (.inr (.inl rfl))
    simp only [platformOpens, isSome_find?.2 known, Bool.true_or]
    rw [eq_comm, Bool.or_eq_true, isSome_find?]
    exact opens

end Reserve

/-- The ledger of many customers, seen by one of them, is its bucket. -/
lemma admitAll_eq (real : customer ≠ GLOBAL_RATE_LIMIT_ID)
    (ordinary : ∀ call ∈ calls, Ordinary customer windowStart call)
    (free : Unthrottled cfg customer s calls) :
    (Bucket.ofTable s.usage (customer, windowStart)).admitAll cfg
        (platformOpens cfg s.usage windowStart) (requests customer calls) =
      (.ofTable (calls.foldl (Ledger.step cfg) s).usage (customer, windowStart),
        answers cfg customer s calls) := by
  induction calls generalizing s with
  | nil => rfl
  | cons call calls ih =>
    have first := ordinary call List.mem_cons_self
    have rest := fun call mem => ordinary call (List.mem_cons_of_mem _ mem)
    cases call with
    | recordUsage => exact first.elim
    | reserve other tokenEstimate priority now budget =>
      obtain ⟨rfl, _, low⟩ := first
      by_cases own : other = customer
      · subst own
        simp only [Unthrottled, answers, request?, if_true, Option.isSome_some,
          List.singleton_append, List.mem_cons, forall_eq_or_imp] at free
        have here := @own_step cfg s _ tokenEstimate priority now budget real (low rfl) free.1
        have later := ih rest free.2
        rw [platformOpens_step] at later
        simp only [requests, request?, answers, List.filterMap_cons, if_true, Option.isSome_some,
          List.singleton_append, Bucket.admitAll, here, List.foldl_cons] at later ⊢
        simp only [later]
      · simp only [Unthrottled, answers, request?, if_neg own, Option.isSome_none,
          Bool.false_eq_true, if_false, List.nil_append] at free
        have later := ih rest free
        rw [platformOpens_step, other_step real own] at later
        simpa only [requests, request?, answers, List.filterMap_cons, if_neg own,
          Option.isSome_none, Bool.false_eq_true, if_false, List.nil_append, List.foldl_cons]
          using later

/-- Two interleavings of admissions in one window, with the same admissions of a customer, none of
them of high priority nor refused for the sake of the platform: the customer gets the same decisions
in both, and has reserved the same in the end, whatever the other customers ask for. -/
theorem isolated (s : Ledger) (real : customer ≠ GLOBAL_RATE_LIMIT_ID)
    (ordinary : ∀ call ∈ calls, Ordinary customer windowStart call)
    (ordinary' : ∀ call ∈ calls', Ordinary customer windowStart call)
    (same : requests customer calls = requests customer calls')
    (free : Unthrottled cfg customer s calls) (free' : Unthrottled cfg customer s calls') :
    answers cfg customer s calls = answers cfg customer s calls' ∧
      counter (calls.foldl (Ledger.step cfg) s).usage (customer, windowStart) .reservedTokens =
        counter (calls'.foldl (Ledger.step cfg) s).usage (customer, windowStart) .reservedTokens ∧
      counter (calls.foldl (Ledger.step cfg) s).usage (customer, windowStart) .requestsReserved =
        counter (calls'.foldl (Ledger.step cfg) s).usage (customer, windowStart)
          .requestsReserved := by
  have left := admitAll_eq real ordinary free
  have right := admitAll_eq real ordinary' free'
  rw [same] at left
  obtain ⟨buckets, decisions⟩ := Prod.mk.inj (left.symm.trans right)
  obtain ⟨_, tokens, requests⟩ := Bucket.mk.inj buckets
  exact ⟨decisions, tokens, requests⟩

/-- Two admissions of a customer, of which the second is beyond its budget. -/
def alone : List LedgerCall := [
  .reserve 1 700 .medium 0 (some 1000),
  .reserve 1 500 .low 0 (some 1000)]

/-- The same admissions, among those of others that fill most of the platform. -/
def crowded : List LedgerCall := [
  .reserve 2 60000 .high 0 none,
  .reserve 1 700 .medium 5 (some 1000),
  .reserve 3 15000 .medium 6 none,
  .reserve 1 500 .low 7 (some 1000)]

/-- Another customer makes no difference to two answers. -/
theorem isolated_plain :
    answers settings 1 ⟨.empty, []⟩ alone =
        [some ⟨true, "ADMITTED"⟩, some ⟨false, "CUSTOMER_TOKEN_BUDGET"⟩] ∧
      answers settings 1 ⟨.empty, []⟩ alone = answers settings 1 ⟨.empty, []⟩ crowded :=
  ⟨by decide +kernel, (@isolated _ _ _ _ 0 ⟨.empty, []⟩ (by decide +kernel)
    (by decide +kernel) (by decide +kernel) (by decide +kernel) (by decide +kernel)
    (by decide +kernel)).1⟩

end PostCall.Properties
