import PostCall.Library.Run
import PostCall.Model.Budget

/-!
# The ledger

What the operations of the ledger leave of its counters. An operation first opens the two rows of
its window, which counts nothing, and then raises the counters of both by the same amounts, or of
none.
-/

namespace PostCall.Machine
open PostCall.Library PostCall.Python PostCall.Model

/-- The counters of a row. -/
inductive Counter where
  | reservedTokens
  | requestsReserved
  | usedTokens
  | requestsUsed

/-- What a row has counted. -/
def Counter.of : Counter → CustomerTokenUsage → ℤ
  | .reservedTokens, u => u.reservedTokens
  | .requestsReserved, u => u.requestsReserved
  | .usedTokens, u => u.usedTokens
  | .requestsUsed, u => u.requestsUsed

/-- What was counted for a customer in a window: nothing while there is no row. -/
def counter (t : UsageTable) (k : UUID × Time) (f : Counter) : ℤ := (t.find? k).elim 0 f.of

/-- The sum of a counter over the rows of all customers in a window. -/
def customersTotal (t : UsageTable) (windowStart : Time) (f : Counter) : ℤ :=
  t.sum fun u =>
    if u.windowStart = windowStart ∧ u.customerId ≠ GLOBAL_RATE_LIMIT_ID then f.of u else 0

variable {cfg : Settings} {t t' t'' : UsageTable} {u : CustomerTokenUsage} {customer : UUID}
  {windowStart now : Time} {budget : Option ℤ} {tokens budgetTokens : ℤ}

/-- The counter of a row that is there. -/
lemma counter_of_mem {k : UUID × Time} {f : Counter} (mem : u ∈ t.rows) (e : u.key = k) :
    counter t k f = f.of u := by
  rw [counter, Table.find?_eq_some.2 ⟨mem, e⟩]
  rfl

/-! ### Opening rows -/

/-- Rows that have counted nothing were added. -/
structure Opened (t t' : UsageTable) : Prop where
  rows : ∀ u ∈ t.rows, u ∈ t'.rows
  counter : ∀ k f, counter t' k f = counter t k f
  total : ∀ windowStart f, customersTotal t' windowStart f = customersTotal t windowStart f

/-- No row has been opened. -/
lemma Opened.refl (t : UsageTable) : Opened t t := ⟨fun _ h => h, fun _ _ => rfl, fun _ _ => rfl⟩

/-- Rows are opened one after the other. -/
lemma Opened.trans (h : Opened t t') (h' : Opened t' t'') : Opened t t'' :=
  ⟨fun u mem => h'.rows u (h.rows u mem), fun k f => (h'.counter k f).trans (h.counter k f),
    fun w f => (h'.total w f).trans (h.total w f)⟩

/-- A new row has counted nothing. -/
lemma of_new (f : Counter) : f.of (.new customer windowStart budgetTokens) = 0 := by
  cases f <;> rfl

/-- A new row is opened by its insertion. -/
lemma opened_insert? (h : t.insert? (.new customer windowStart budgetTokens) = some t') :
    Opened t t' := by
  refine ⟨fun u mem => (Table.mem_insert? h).2 (.inl mem), fun k f => ?_, fun w f => ?_⟩
  · unfold counter
    rw [Table.find?_insert? h]
    split
    case isTrue e =>
      have none : t.find? k = none := by
        rw [e]
        exact Table.find?_eq_none.2 (Table.insert?_eq_some h).1
      rw [none]
      exact of_new f
    case isFalse => rfl
  · unfold customersTotal
    rw [Table.sum_insert? h, of_new, ite_self, add_zero]

/-- What `_get_or_create_usage` returns: the row that it found, or one that it inserted. -/
lemma getOrCreateUsage_cases
    (h : t.getOrCreateUsage customer windowStart budgetTokens = .ok (t', u)) :
    (t.find? (customer, windowStart) = some u ∧ t' = t) ∨
    (t.find? (customer, windowStart) = none ∧ u = .new customer windowStart budgetTokens ∧
      t.insert? (.new customer windowStart budgetTokens) = some t') := by
  unfold UsageTable.getOrCreateUsage at h
  split at h
  case h_1 found =>
    cases h
    exact .inl ⟨found, rfl⟩
  case h_2 absent =>
    simp only at h
    split at h
    case isFalse => cases h
    split at h
    case h_2 => cases h
    case h_1 inserted =>
      cases h
      exact .inr ⟨absent, rfl, inserted⟩

/-- `_get_or_create_usage` gives the row of its key, which it may have opened. -/
lemma getOrCreateUsage_ok
    (h : t.getOrCreateUsage customer windowStart budgetTokens = .ok (t', u)) :
    Opened t t' ∧ u ∈ t'.rows ∧ u.key = (customer, windowStart) := by
  obtain ⟨found, rfl⟩ | ⟨_, rfl, inserted⟩ := getOrCreateUsage_cases h
  · obtain ⟨mem, key⟩ := Table.find?_eq_some.1 found
    exact ⟨.refl _, mem, key⟩
  · exact ⟨opened_insert? inserted, (Table.mem_insert? inserted).2 (.inr rfl), rfl⟩

/-! ### Raising counters -/

/-- The counters of one row were raised. -/
structure RaisedRow (t t' : UsageTable) (row : UUID × Time) (d : Counter → ℤ) : Prop where
  rows : ∀ u ∈ t.rows, ∃ u' ∈ t'.rows, u'.key = u.key
  counter : ∀ k f, counter t' k f = counter t k f + if k = row then d f else 0
  total : ∀ windowStart f, customersTotal t' windowStart f = customersTotal t windowStart f +
    if row.2 = windowStart ∧ row.1 ≠ GLOBAL_RATE_LIMIT_ID then d f else 0

/-- A modification raises the counters of its row. -/
lemma raised_modify {row : UUID × Time} {g : CustomerTokenUsage → CustomerTokenUsage} {hk hi}
    {d : Counter → ℤ} (mem : u ∈ t.rows) (e : u.key = row)
    (gain : ∀ f u, f.of (g u) = f.of u + d f) : RaisedRow t (t.modify row g hk hi) row d := by
  refine ⟨fun v hv => ?_, fun k f => ?_, fun w f => ?_⟩
  · refine ⟨_, Table.mem_modify.2 ⟨v, hv, rfl⟩, ?_⟩
    split
    · exact hk v
    · rfl
  · unfold counter
    rw [Table.find?_modify]
    split
    case isTrue same =>
      rw [same, Table.find?_eq_some.2 ⟨mem, e⟩]
      exact gain f u
    case isFalse => exact (add_zero _).symm
  · refine Table.sum_modify mem e ?_
    have key : (g u).customerId = u.customerId ∧ (g u).windowStart = u.windowStart :=
      Prod.mk.inj (hk u)
    subst e
    by_cases both : u.windowStart = w ∧ u.customerId ≠ GLOBAL_RATE_LIMIT_ID
    · rw [key.1, key.2, if_pos both, if_pos both, gain, CustomerTokenUsage.key, if_pos both]
    · rw [key.1, key.2, if_neg both, if_neg both, CustomerTokenUsage.key, if_neg both, add_zero]

/-- The counters of the platform and of a customer were raised alike. -/
structure Raised (t t' : UsageTable) (customer : UUID) (windowStart : Time) (d : Counter → ℤ) :
    Prop where
  counter : ∀ k f, counter t' k f = counter t k f +
    (if k = (GLOBAL_RATE_LIMIT_ID, windowStart) then d f else 0) +
    (if k = (customer, windowStart) then d f else 0)
  total : ∀ w f, customersTotal t' w f = customersTotal t w f +
    if windowStart = w ∧ customer ≠ GLOBAL_RATE_LIMIT_ID then d f else 0

/-- The row of the platform and the row of the customer, raised one after the other. -/
lemma RaisedRow.both {d : Counter → ℤ}
    (h : RaisedRow t t' (GLOBAL_RATE_LIMIT_ID, windowStart) d)
    (h' : RaisedRow t' t'' (customer, windowStart) d) :
    Raised t t'' customer windowStart d := by
  refine ⟨fun k f => ?_, fun w f => ?_⟩
  · rw [h'.counter, h.counter]
  · rw [h'.total, h.total, if_neg fun both => both.2 rfl, add_zero]

/-- Rows may be opened before their counters are raised. -/
lemma Opened.raised {d : Counter → ℤ} (h : Opened t t')
    (h' : Raised t' t'' customer windowStart d) : Raised t t'' customer windowStart d :=
  ⟨fun k f => by rw [h'.counter, h.counter], fun w f => by rw [h'.total, h.total]⟩

/-- What a reservation adds to the counters of a row. -/
def reserved (tokens : ℤ) : Counter → ℤ
  | .reservedTokens => tokens
  | .requestsReserved => 1
  | _ => 0

/-- What a recorded response adds to the counters of a row. -/
def used (tokens : ℤ) : Counter → ℤ
  | .usedTokens => tokens
  | .requestsUsed => 1
  | _ => 0

/-- What a reservation adds to a row. -/
lemma of_reserve (f : Counter) (u : CustomerTokenUsage) :
    f.of (u.reserve tokens) = f.of u + reserved tokens f := by
  cases f <;> simp [Counter.of, reserved, CustomerTokenUsage.reserve]

/-- What a use adds to a row. -/
lemma of_use (f : Counter) (u : CustomerTokenUsage) :
    f.of (u.use [.int tokens]) = f.of u + used tokens f := by
  cases f <;> simp [Counter.of, used, CustomerTokenUsage.use]

/-- The row of the platform and that of the customer are raised one after the other. -/
lemma raised_both {g : CustomerTokenUsage → CustomerTokenUsage} {hk} {d : Counter → ℤ}
    {platform : CustomerTokenUsage} (mem : platform ∈ t.rows)
    (key : platform.key = (GLOBAL_RATE_LIMIT_ID, windowStart)) (mem' : u ∈ t.rows)
    (key' : u.key = (customer, windowStart)) (gain : ∀ f u, f.of (g u) = f.of u + d f) :
    Raised t ((t.modify (GLOBAL_RATE_LIMIT_ID, windowStart) g hk hk).modify
      (customer, windowStart) g hk hk) customer windowStart d := by
  have first : RaisedRow t (t.modify (GLOBAL_RATE_LIMIT_ID, windowStart) g hk hk)
      (GLOBAL_RATE_LIMIT_ID, windowStart) d := raised_modify mem key gain
  obtain ⟨v, hv, e⟩ := first.rows u mem'
  exact first.both (raised_modify hv (e.trans key') gain)

/-! ### The operations -/

/-- An admission fits the limits of the platform. -/
lemma of_decideAdmission {globalState customerState : BudgetState} {priority : JobPriority}
    (h : (decideAdmission globalState customerState tokens priority).allowed) :
    globalState.reservedTokens + tokens ≤ globalState.tokenLimit ∧
      globalState.reservedRequests + 1 ≤ globalState.requestLimit := by
  unfold decideAdmission at h
  split at h
  · cases h
  split at h
  · cases h
  omega

/-- The decisions of the admission policy, with what each says about the two states. -/
inductive Decided (globalState customerState : BudgetState) (tokens : ℤ) (priority : JobPriority) :
    BudgetDecision → Prop where
  | platform :
    Decided globalState customerState tokens priority ⟨false, "GLOBAL_RATE_LIMIT"⟩
  | admitted :
    customerState.reservedTokens + tokens ≤ customerState.tokenLimit →
    Decided globalState customerState tokens priority ⟨true, "ADMITTED"⟩
  | overflow :
    priority = .high →
    underOverflowLimit globalState.reservedTokens globalState.tokenLimit →
    Decided globalState customerState tokens priority ⟨true, "ADMITTED_OVERFLOW"⟩
  | budget :
    ¬ customerState.reservedTokens + tokens ≤ customerState.tokenLimit →
    Decided globalState customerState tokens priority ⟨false, "CUSTOMER_TOKEN_BUDGET"⟩

/-- The admission policy decides as its cases say. -/
lemma decided {globalState customerState : BudgetState} {priority : JobPriority} :
    Decided globalState customerState tokens priority
      (decideAdmission globalState customerState tokens priority) := by
  unfold decideAdmission
  split
  case isTrue => exact .platform
  split
  case isTrue => exact .platform
  split
  case isTrue fits => exact .admitted fits
  case isFalse exceeds =>
    split
    case isTrue overflow =>
      simp only [Bool.and_eq_true, decide_eq_true_eq] at overflow
      exact .overflow overflow.1 overflow.2
    case isFalse => exact .budget exceeds

namespace Decided

variable {globalState customerState : BudgetState} {priority : JobPriority}
  {decision : BudgetDecision}

/-- What is allowed fits the budget, or is an overflow of a job of high priority. -/
lemma of_allowed (h : Decided globalState customerState tokens priority decision)
    (allowed : decision.allowed) :
    customerState.reservedTokens + tokens ≤ customerState.tokenLimit ∨
      (priority = .high ∧
        underOverflowLimit globalState.reservedTokens globalState.tokenLimit) := by
  cases h with
  | platform => cases allowed
  | admitted fits => exact .inl fits
  | overflow high under => exact .inr ⟨high, under⟩
  | budget => cases allowed

/-- An overflow is below seven tenths of the limit of the platform. -/
lemma of_overflow (h : Decided globalState customerState tokens priority decision)
    (reason : decision.reason = "ADMITTED_OVERFLOW") :
    decision.allowed ∧ underOverflowLimit globalState.reservedTokens globalState.tokenLimit := by
  cases h with
  | overflow _ under => exact ⟨rfl, under⟩
  | platform => exact absurd reason (by decide)
  | admitted => exact absurd reason (by decide)
  | budget => exact absurd reason (by decide)

end Decided

/-- A reservation that returned: it opened the two rows, answered with the decision on the rows it
found, and raised both if that was to admit. -/
lemma of_reserve_ok {allowOverflow : Bool} {result : ReservationResult}
    (h : t.reserve cfg customer tokens allowOverflow now budget = .ok (t', result)) :
    ∃ t₁ platform t₂ u,
      t.getOrCreateUsage GLOBAL_RATE_LIMIT_ID (minuteWindow now) cfg.llmTokensPerMinute =
        .ok (t₁, platform) ∧
      t₁.getOrCreateUsage customer (minuteWindow now) (customerBudget cfg budget) = .ok (t₂, u) ∧
      BudgetDecision.mk result.allowed result.reason =
        UsageTable.decision cfg platform u (customerBudget cfg budget) tokens allowOverflow ∧
      if result.allowed then
        t' = (t₂.addReservation GLOBAL_RATE_LIMIT_ID (minuteWindow now) tokens).addReservation
          customer (minuteWindow now) tokens
      else t' = t₂ := by
  unfold UsageTable.reserve at h
  simp only [bind, Except.bind] at h
  split at h
  case h_1 => cases h
  case h_2 first read =>
  split at h
  case h_1 => cases h
  case h_2 second read' =>
  refine ⟨first.1, first.2, second.1, second.2, read, read', ?_⟩
  split at h
  case isFalse refused =>
    cases h
    exact ⟨congrArg (BudgetDecision.mk · _) (Bool.eq_false_iff.2 refused).symm, rfl⟩
  case isTrue allowed =>
    cases h
    exact ⟨congrArg (BudgetDecision.mk · _) allowed.symm, rfl⟩

/-- What `reserve` has done when it returns. -/
lemma reserve_ok {allowOverflow : Bool} {result : ReservationResult}
    (h : t.reserve cfg customer tokens allowOverflow now budget = .ok (t', result)) :
    ∃ opened, Opened t opened ∧
      if result.allowed then
        Raised opened t' customer (minuteWindow now) (reserved tokens) ∧
        counter t (GLOBAL_RATE_LIMIT_ID, minuteWindow now) .reservedTokens + tokens ≤
          cfg.llmTokensPerMinute ∧
        counter t (GLOBAL_RATE_LIMIT_ID, minuteWindow now) .requestsReserved + 1 ≤
          cfg.llmRequestsPerMinute
      else t' = opened := by
  obtain ⟨t₁, platform, t₂, u, read, read', answer, outcome⟩ := of_reserve_ok h
  obtain ⟨opened₁, mem, key⟩ := getOrCreateUsage_ok read
  obtain ⟨opened₂, mem', key'⟩ := getOrCreateUsage_ok read'
  refine ⟨t₂, opened₁.trans opened₂, ?_⟩
  split at outcome
  case isFalse refused =>
    rw [if_neg refused]
    exact outcome
  case isTrue allowed =>
    subst outcome
    have decided : (UsageTable.decision cfg platform u (customerBudget cfg budget) tokens
        allowOverflow).allowed := answer ▸ allowed
    have found : ∀ f, counter t (GLOBAL_RATE_LIMIT_ID, minuteWindow now) f = f.of platform := by
      intro f
      rw [← opened₁.counter, counter_of_mem mem key]
    obtain ⟨fits, requests⟩ := of_decideAdmission decided
    rw [if_pos allowed, found, found]
    exact ⟨raised_both (opened₂.rows _ mem) key mem' key' of_reserve, fits, requests⟩

/-- The decision on what the two rows of a window have counted. -/
def decideOn (cfg : Settings) (t : UsageTable) (customer : UUID) (windowStart : Time)
    (budgetTokens tokens : ℤ) (allowOverflow : Bool) : BudgetDecision :=
  decideAdmission
    { tokenLimit := cfg.llmTokensPerMinute
      requestLimit := cfg.llmRequestsPerMinute
      reservedTokens := counter t (GLOBAL_RATE_LIMIT_ID, windowStart) .reservedTokens
      reservedRequests := counter t (GLOBAL_RATE_LIMIT_ID, windowStart) .requestsReserved }
    { tokenLimit := budgetTokens
      requestLimit := cfg.llmRequestsPerMinute
      reservedTokens := counter t (customer, windowStart) .reservedTokens
      reservedRequests := counter t (customer, windowStart) .requestsReserved }
    tokens (if allowOverflow then .high else .medium)

/-- A reservation that returned answers with the decision on the counters it found. -/
lemma reserve_decided {allowOverflow : Bool} {result : ReservationResult}
    (h : t.reserve cfg customer tokens allowOverflow now budget = .ok (t', result)) :
    BudgetDecision.mk result.allowed result.reason = decideOn cfg t customer (minuteWindow now)
      (customerBudget cfg budget) tokens allowOverflow := by
  obtain ⟨t₁, platform, t₂, u, read, read', answer, _⟩ := of_reserve_ok h
  obtain ⟨opened₁, mem, key⟩ := getOrCreateUsage_ok read
  obtain ⟨opened₂, mem', key'⟩ := getOrCreateUsage_ok read'
  have platformCounter : ∀ f, counter t (GLOBAL_RATE_LIMIT_ID, minuteWindow now) f =
      f.of platform := by
    intro f
    rw [← opened₁.counter, counter_of_mem mem key]
  have customerCounter : ∀ f, counter t (customer, minuteWindow now) f = f.of u := by
    intro f
    rw [← opened₁.counter, ← opened₂.counter, counter_of_mem mem' key']
  unfold decideOn
  rw [platformCounter, platformCounter, customerCounter, customerCounter]
  exact answer

/-- A refusal leaves every counter as it was. -/
lemma counter_of_refused {allowOverflow : Bool} {result : ReservationResult}
    (h : t.reserve cfg customer tokens allowOverflow now budget = .ok (t', result))
    (refused : result.allowed = false) (k : UUID × Time) (f : Counter) :
    counter t' k f = counter t k f := by
  obtain ⟨opened, rows, outcome⟩ := reserve_ok h
  rw [refused] at outcome
  rw [show t' = opened from outcome, rows.counter]

/-- A reservation raises the two rows of its window, and no other. -/
lemma counter_of_allowed {allowOverflow : Bool} {result : ReservationResult}
    (h : t.reserve cfg customer tokens allowOverflow now budget = .ok (t', result))
    (allowed : result.allowed = true) (k : UUID × Time) (f : Counter) :
    counter t' k f = counter t k f +
      (if k = (GLOBAL_RATE_LIMIT_ID, minuteWindow now) then reserved tokens f else 0) +
      (if k = (customer, minuteWindow now) then reserved tokens f else 0) := by
  obtain ⟨opened, rows, outcome⟩ := reserve_ok h
  rw [if_pos allowed] at outcome
  rw [outcome.1.counter, rows.counter]

/-- A reservation that is admitted fits the limits of the platform. -/
lemma fits_of_allowed {allowOverflow : Bool} {result : ReservationResult}
    (h : t.reserve cfg customer tokens allowOverflow now budget = .ok (t', result))
    (allowed : result.allowed = true) :
    counter t (GLOBAL_RATE_LIMIT_ID, minuteWindow now) .reservedTokens + tokens ≤
        cfg.llmTokensPerMinute ∧
      counter t (GLOBAL_RATE_LIMIT_ID, minuteWindow now) .requestsReserved + 1 ≤
        cfg.llmRequestsPerMinute := by
  obtain ⟨opened, _, outcome⟩ := reserve_ok h
  rw [if_pos allowed] at outcome
  exact outcome.2

/-- A record that returned: it opened the two rows and added to both, and every row fits its column. -/
lemma of_recordUsage_ok {x : Number} (h : t.recordUsage cfg customer x now budget = .ok t') :
    ∃ t₁ platform t₂ u,
      t.getOrCreateUsage GLOBAL_RATE_LIMIT_ID (minuteWindow now) cfg.llmTokensPerMinute =
        .ok (t₁, platform) ∧
      t₁.getOrCreateUsage customer (minuteWindow now) (customerBudget cfg budget) = .ok (t₂, u) ∧
      t' = t₂.addUses customer (minuteWindow now) x ∧ ∀ u ∈ t'.rows, fitsInteger u.usedTokens := by
  unfold UsageTable.recordUsage at h
  simp only [bind, Except.bind] at h
  split at h
  case h_1 => cases h
  case h_2 first read =>
  split at h
  case h_1 => cases h
  case h_2 second read' =>
  refine ⟨first.1, first.2, second.1, second.2, read, read', ?_⟩
  split at h
  case isFalse => cases h
  case isTrue check =>
    cases h
    exact ⟨rfl, List.all_eq_true.1 check⟩

/-- Integers are added to one row in one go as they are one after the other. -/
lemma addUses_int : t.addUses customer windowStart (.int tokens) =
    (t.addUse GLOBAL_RATE_LIMIT_ID windowStart [.int tokens]).addUse customer windowStart
      [.int tokens] := by
  unfold UsageTable.addUses
  split
  case isTrue platform =>
    subst platform
    unfold UsageTable.addUse
    rw [Table.modify_modify]
    congr 1
    funext u
    simp [CustomerTokenUsage.use, add_assoc]
  case isFalse => rfl

/-- `record_usage` of a whole number raises the two rows of its window. -/
lemma recordUsage_ok (h : t.recordUsage cfg customer (.int tokens) now budget = .ok t') :
    Raised t t' customer (minuteWindow now) (used tokens) := by
  obtain ⟨t₁, platform, t₂, u, read, read', rfl, _⟩ := of_recordUsage_ok h
  obtain ⟨opened₁, mem, key⟩ := getOrCreateUsage_ok read
  obtain ⟨opened₂, mem', key'⟩ := getOrCreateUsage_ok read'
  rw [addUses_int]
  exact (opened₁.trans opened₂).raised (raised_both (opened₂.rows _ mem) key mem' key' of_use)

/-! ### Tokens in a float -/

/-- What has been counted fits its column. -/
def InRange (t : UsageTable) : Prop := ∀ u ∈ t.rows, fitsInteger u.usedTokens

/-- A row that is opened is within the columns. -/
lemma inRange_getOrCreateUsage (h : t.getOrCreateUsage customer windowStart budgetTokens = .ok (t', u))
    (inRange : InRange t) : InRange t' := by
  obtain ⟨_, rfl⟩ | ⟨_, rfl, inserted⟩ := getOrCreateUsage_cases h
  · exact inRange
  · intro v mem
    rcases (Table.mem_insert? inserted).1 mem with mem | rfl
    · exact inRange v mem
    · rfl

/-- A reservation leaves the used tokens within the column. -/
lemma inRange_reserve {allowOverflow : Bool} {result : ReservationResult}
    (h : t.reserve cfg customer tokens allowOverflow now budget = .ok (t', result))
    (inRange : InRange t) : InRange t' := by
  have add : ∀ {t c}, InRange t → InRange (t.addReservation c (minuteWindow now) tokens) := by
    intro t c inRange v mem
    obtain ⟨w, old, rfl⟩ := Table.mem_modify.1 mem
    split
    · exact inRange w old
    · exact inRange w old
  obtain ⟨t₁, platform, t₂, u, read, read', _, outcome⟩ := of_reserve_ok h
  have opened := inRange_getOrCreateUsage read' (inRange_getOrCreateUsage read inRange)
  split at outcome
  · rw [outcome]
    exact add (add opened)
  · rwa [outcome]

/-- After a use all used tokens are within the column, or it has raised. -/
lemma inRange_recordUsage {x : Number} (h : t.recordUsage cfg customer x now budget = .ok t') :
    InRange t' := by
  obtain ⟨_, _, _, _, _, _, _, fits⟩ := of_recordUsage_ok h
  exact fits

/-- What a record adds to the tokens of a row: the number, for each handle on the row. -/
def additions (customer : UUID) (windowStart : Time) (x : Number) (k : UUID × Time) : List Number :=
  (if k = (GLOBAL_RATE_LIMIT_ID, windowStart) then [x] else []) ++
    if k = (customer, windowStart) then [x] else []

/-- What a counter is after these additions to the tokens of its row. -/
def Counter.add (n : ℤ) (xs : List Number) : Counter → ℤ
  | .usedTokens => ((Number.int n).sum xs).trunc
  | .requestsUsed => n + xs.length
  | _ => n

/-- The counters have what was recorded for a customer. -/
def Recorded (t t' : UsageTable) (customer : UUID) (windowStart : Time) (x : Number) : Prop :=
  ∀ k f, counter t' k f = f.add (counter t k f) (additions customer windowStart x k)

/-- Nothing is added. -/
@[simp] lemma Counter.add_nil {n : ℤ} {f : Counter} : f.add n [] = n := by
  cases f <;> simp [Counter.add]

/-- What several uses of a transaction make of a counter of a row. -/
lemma of_use_list {xs : List Number} (f : Counter) (u : CustomerTokenUsage) :
    f.of (u.use xs) = f.add (f.of u) xs := by
  cases f <;> rfl

/-- They change the counters of their row only. -/
lemma counter_addUse {xs : List Number} {f : Counter} (mem : u ∈ t.rows)
    (key : u.key = (customer, windowStart)) (k : UUID × Time) :
    counter (t.addUse customer windowStart xs) k f =
      if k = (customer, windowStart) then f.add (counter t k f) xs else counter t k f := by
  unfold counter UsageTable.addUse
  rw [Table.find?_modify]
  split
  case isTrue here =>
    rw [here, Table.find?_eq_some.2 ⟨mem, key⟩]
    exact of_use_list f u
  case isFalse => rfl

/-- A record adds its number to the two rows, and to one row twice for the reserved id. -/
lemma recordUsage_recorded {x : Number} (h : t.recordUsage cfg customer x now budget = .ok t') :
    Recorded t t' customer (minuteWindow now) x := by
  obtain ⟨t₁, platform, t₂, u, read, read', rfl, _⟩ := of_recordUsage_ok h
  obtain ⟨opened₁, mem, key⟩ := getOrCreateUsage_ok read
  obtain ⟨opened₂, mem', key'⟩ := getOrCreateUsage_ok read'
  intro k f
  rw [← opened₁.counter, ← opened₂.counter]
  unfold UsageTable.addUses additions
  split
  case isTrue same =>
    rw [counter_addUse mem' key', ← same]
    split <;> simp
  case isFalse ne =>
    obtain ⟨v, hv, e⟩ : ∃ v ∈ (t₂.addUse GLOBAL_RATE_LIMIT_ID (minuteWindow now) [x]).rows,
        v.key = u.key := by
      refine ⟨_, Table.mem_modify.2 ⟨u, mem', rfl⟩, ?_⟩
      split
      · exact CustomerTokenUsage.use_key
      · rfl
    rw [counter_addUse hv (e.trans key'), counter_addUse (opened₂.rows _ mem) key]
    split
    case isTrue own =>
      have other : k ≠ (GLOBAL_RATE_LIMIT_ID, minuteWindow now) := fun h =>
        ne (congrArg Prod.fst (own.symm.trans h))
      rw [if_neg other, if_neg other, List.nil_append]
    case isFalse => split <;> simp

namespace Recorded

variable {x : Number}

/-- What is reserved stays, and a request is counted for each handle. -/
lemma counter_of_ne (h : Recorded t t' customer windowStart x) {f : Counter} (ne : f ≠ .usedTokens)
    (k : UUID × Time) : counter t' k f = counter t k f +
      (if k = (GLOBAL_RATE_LIMIT_ID, windowStart) then used 0 f else 0) +
      (if k = (customer, windowStart) then used 0 f else 0) := by
  rw [h k f, additions]
  cases f with
  | usedTokens => exact absurd rfl ne
  | requestsUsed => split <;> split <;> simp [Counter.add, used] <;> omega
  | reservedTokens => simp [Counter.add, used]
  | requestsReserved => simp [Counter.add, used]

/-- The counter of a row within the column, or of none, is within it. -/
lemma counter_inRange (inRange : InRange t) (k : UUID × Time) :
    fitsInteger (counter t k .usedTokens) := by
  unfold counter
  cases found : t.find? k with
  | none => rfl
  | some u => exact inRange u (Table.find?_eq_some.1 found).1

/-- A whole number is recorded exactly. -/
lemma counter_of_whole (h : Recorded t t' customer windowStart x) (whole : x.Whole)
    (nonneg : 0 ≤ x.val) (before : InRange t) (after : InRange t') (k : UUID × Time) :
    counter t' k .usedTokens = counter t k .usedTokens +
      (if k = (GLOBAL_RATE_LIMIT_ID, windowStart) then used x.trunc .usedTokens else 0) +
      (if k = (customer, windowStart) then used x.trunc .usedTokens else 0) := by
  have old := counter_inRange before k
  have new := counter_inRange after k
  simp only [fitsInteger, Bool.and_eq_true, decide_eq_true_eq] at old new
  rw [h k .usedTokens] at new ⊢
  have same : ∀ y ∈ additions customer windowStart x k, y = x := by
    intro y mem
    unfold additions at mem
    split at mem <;> split at mem <;> simpa using mem
  have low : (-2 ^ 52 : ℚ) < counter t k .usedTokens := by
    exact_mod_cast lt_of_lt_of_le (by norm_num : (-2 ^ 52 : ℤ) < -2147483648) old.1
  have high : (counter t k .usedTokens : ℚ) < 2 ^ 53 := by
    exact_mod_cast lt_of_le_of_lt old.2 (by norm_num : (2147483647 : ℤ) < 2 ^ 53)
  have sum := Number.trunc_sum Number.whole_int low high
    (fun y mem => same y mem ▸ ⟨whole, nonneg⟩) (lt_of_le_of_lt new.2 (by norm_num))
  rw [Counter.add, sum, Number.trunc_int, additions, add_assoc]
  split <;> split <;> simp [used]

end Recorded

/-- A response was charged to a customer: its tokens are recorded and no negative number, and every
row fits its column. -/
structure Debited (t t' : UsageTable) (customer : UUID) (windowStart : Time) (x : Number) : Prop where
  recorded : Recorded t t' customer windowStart x
  inRange : InRange t'
  nonneg : 0 ≤ x.val

/-- A charge raises every counter, that of the tokens if their number is whole. -/
lemma Debited.counter {x : Number} (h : Debited t t' customer windowStart x) (before : InRange t)
    {f : Counter} (whole : f = .usedTokens → x.Whole) (k : UUID × Time) :
    counter t' k f = counter t k f +
      (if k = (GLOBAL_RATE_LIMIT_ID, windowStart) then used x.trunc f else 0) +
      (if k = (customer, windowStart) then used x.trunc f else 0) := by
  cases f with
  | usedTokens => exact h.recorded.counter_of_whole (whole rfl) h.nonneg before h.inRange k
  | requestsUsed => exact h.recorded.counter_of_ne (by simp) k
  | reservedTokens => exact h.recorded.counter_of_ne (by simp) k
  | requestsReserved => exact h.recorded.counter_of_ne (by simp) k

/-! ### When the operations return -/

/-- The ledger has the row of a customer and a window. -/
def Known (t : UsageTable) (k : UUID × Time) : Prop := ∃ u ∈ t.rows, u.key = k

/-- A modification opens no row. -/
lemma known_modify {row k : UUID × Time} {g : CustomerTokenUsage → CustomerTokenUsage} {hk hi} :
    Known (t.modify row g hk hi) k ↔ Known t k := by
  constructor
  · rintro ⟨v, hv, e⟩
    obtain ⟨u, mem, rfl⟩ := Table.mem_modify.1 hv
    refine ⟨u, mem, ?_⟩
    split at e
    · exact (hk u).symm.trans e
    · exact e
  · rintro ⟨u, mem, e⟩
    refine ⟨_, Table.mem_modify.2 ⟨u, mem, rfl⟩, ?_⟩
    split
    · exact (hk u).trans e
    · exact e

/-- `_get_or_create_usage` returns if the row is there, or its budget fits the column. -/
lemma getOrCreateUsage_returns :
    (∃ t' u, t.getOrCreateUsage customer windowStart budgetTokens = .ok (t', u)) ↔
      Known t (customer, windowStart) ∨ fitsInteger budgetTokens := by
  unfold UsageTable.getOrCreateUsage
  cases found : t.find? (customer, windowStart) with
  | some u => simpa using .inl ⟨u, Table.find?_eq_some.1 found⟩
  | none =>
    have absent := Table.find?_eq_none.1 found
    have unknown : ¬ Known t (customer, windowStart) := fun ⟨u, mem, e⟩ => absent u mem e
    obtain ⟨t', inserted⟩ := Table.insert?_of_fresh (t := t)
      (a := CustomerTokenUsage.new customer windowStart budgetTokens) absent absent
    by_cases fits : fitsInteger budgetTokens <;> simp [fits, inserted, unknown]

/-- `_get_or_create_usage` opens the row of its key at most. -/
lemma known_getOrCreateUsage {k : UUID × Time}
    (h : t.getOrCreateUsage customer windowStart budgetTokens = .ok (t', u)) :
    Known t' k ↔ Known t k ∨ k = (customer, windowStart) := by
  obtain ⟨found, rfl⟩ | ⟨_, rfl, inserted⟩ := getOrCreateUsage_cases h
  · obtain ⟨mem, key⟩ := Table.find?_eq_some.1 found
    constructor
    · exact .inl
    · rintro (known | rfl)
      · exact known
      · exact ⟨u, mem, key⟩
  · constructor
    · rintro ⟨v, mem, rfl⟩
      rcases (Table.mem_insert? inserted).1 mem with mem | rfl
      · exact .inl ⟨v, mem, rfl⟩
      · exact .inr rfl
    · rintro (⟨v, mem, e⟩ | rfl)
      · exact ⟨v, (Table.mem_insert? inserted).2 (.inl mem), e⟩
      · exact ⟨_, (Table.mem_insert? inserted).2 (.inr rfl), rfl⟩

/-- `reserve` returns if each of the two rows is there, or its budget fits the column. -/
lemma reserve_returns {allowOverflow : Bool} :
    (∃ t' result, t.reserve cfg customer tokens allowOverflow now budget = .ok (t', result)) ↔
      (Known t (GLOBAL_RATE_LIMIT_ID, minuteWindow now) ∨ fitsInteger cfg.llmTokensPerMinute) ∧
      (Known t (customer, minuteWindow now) ∨ customer = GLOBAL_RATE_LIMIT_ID ∨
        fitsInteger (customerBudget cfg budget)) := by
  have second : ∀ {t₁ platform}, t.getOrCreateUsage GLOBAL_RATE_LIMIT_ID (minuteWindow now)
      cfg.llmTokensPerMinute = .ok (t₁, platform) →
      ((∃ t₂ u, t₁.getOrCreateUsage customer (minuteWindow now) (customerBudget cfg budget) =
        .ok (t₂, u)) ↔ Known t (customer, minuteWindow now) ∨ customer = GLOBAL_RATE_LIMIT_ID ∨
        fitsInteger (customerBudget cfg budget)) := by
    intro t₁ platform read
    rw [getOrCreateUsage_returns, known_getOrCreateUsage read, or_assoc, Prod.mk.injEq]
    simp only [and_true]
  constructor
  · rintro ⟨t', result, h⟩
    obtain ⟨t₁, platform, t₂, u, read, read', _, _⟩ := of_reserve_ok h
    exact ⟨getOrCreateUsage_returns.1 ⟨t₁, platform, read⟩, (second read).1 ⟨t₂, u, read'⟩⟩
  · rintro ⟨h, h'⟩
    obtain ⟨t₁, platform, read⟩ := getOrCreateUsage_returns.2 h
    obtain ⟨t₂, u, read'⟩ := (second read).2 h'
    unfold UsageTable.reserve
    simp only [bind, Except.bind, read, read']
    split <;> exact ⟨_, _, rfl⟩

/-- `reserve` opens the rows of the platform and of the customer. -/
lemma known_reserve {allowOverflow : Bool} {result : ReservationResult} {k : UUID × Time}
    (h : t.reserve cfg customer tokens allowOverflow now budget = .ok (t', result)) :
    Known t' k ↔ Known t k ∨ k = (GLOBAL_RATE_LIMIT_ID, minuteWindow now) ∨
      k = (customer, minuteWindow now) := by
  obtain ⟨t₁, platform, t₂, u, read, read', _, outcome⟩ := of_reserve_ok h
  have same : Known t' k ↔ Known t₂ k := by
    split at outcome
    · rw [outcome, UsageTable.addReservation, known_modify, UsageTable.addReservation, known_modify]
    · rw [outcome]
  rw [same, known_getOrCreateUsage read', known_getOrCreateUsage read, or_assoc]

/-! ### The ledger under its calls -/

/-- A call of the ledger. -/
inductive LedgerCall where
  | reserve (customerId : UUID) (tokenEstimate : ℤ) (priority : JobPriority) (now : Time)
      (customerBudgetTokens : Option ℤ)
  | recordUsage (customerId : UUID) (actualTokens : ℤ) (now : Time)
      (customerBudgetTokens : Option ℤ)

/-- The customer that the call is for. -/
def LedgerCall.customerId : LedgerCall → UUID
  | .reserve customerId _ _ _ _ => customerId
  | .recordUsage customerId _ _ _ => customerId

/-- The ledger, and the windows of the admissions that were granted, newest first. -/
structure Ledger where
  usage : UsageTable
  granted : List Time

/-- One call in a transaction of its own: if it raises, nothing is written. -/
def Ledger.step (cfg : Settings) (s : Ledger) : LedgerCall → Ledger
  | .reserve customerId tokenEstimate priority now budget =>
    match s.usage.rateLimiterAdmit cfg customerId tokenEstimate priority now budget with
    | .ok (usage, result) =>
      ⟨usage, if result.allowed then minuteWindow now :: s.granted else s.granted⟩
    | .error _ => s
  | .recordUsage customerId actualTokens now budget =>
    match s.usage.recordUsage cfg customerId (.int actualTokens) now budget with
    | .ok usage => { s with usage := usage }
    | .error _ => s

/-- What a call does: it leaves the counters alone, or it raises those of the platform and of the
customer alike, and counts a grant if it was one. -/
inductive Booked (cfg : Settings) (s : Ledger) (customer : UUID) : Ledger → Prop where
  | idle {usage} :
    Opened s.usage usage →
    Booked cfg s customer ⟨usage, s.granted⟩
  | granted {usage windowStart tokens} :
    Raised s.usage usage customer windowStart (reserved tokens) →
    counter s.usage (GLOBAL_RATE_LIMIT_ID, windowStart) .reservedTokens + tokens ≤
      cfg.llmTokensPerMinute →
    counter s.usage (GLOBAL_RATE_LIMIT_ID, windowStart) .requestsReserved + 1 ≤
      cfg.llmRequestsPerMinute →
    Booked cfg s customer ⟨usage, windowStart :: s.granted⟩
  | recorded {usage windowStart tokens} :
    Raised s.usage usage customer windowStart (used tokens) →
    Booked cfg s customer ⟨usage, s.granted⟩

/-- A call of the ledger is booked in its window, or has raised. -/
theorem booked_step (cfg : Settings) (s : Ledger) (call : LedgerCall) :
    Booked cfg s call.customerId (s.step cfg call) := by
  cases call with
  | reserve customerId tokenEstimate priority now budget =>
    simp only [Ledger.step]
    split
    case h_2 => exact .idle (.refl _)
    case h_1 usage result h =>
      obtain ⟨opened, rows, outcome⟩ := reserve_ok h
      split at outcome
      case isTrue allowed =>
        obtain ⟨raised, fits, requests⟩ := outcome
        rw [if_pos allowed]
        exact .granted (rows.raised raised) fits requests
      case isFalse refused =>
        rw [if_neg refused, outcome]
        exact .idle rows
  | recordUsage customerId actualTokens now budget =>
    simp only [Ledger.step]
    split
    case h_2 => exact .idle (.refl _)
    case h_1 h => exact .recorded (recordUsage_ok h)

end PostCall.Machine
