import PostCall.Model.Workflow

/-!
# Admission

`src/rate_limiter/budget.py`, `src/repositories/token_usage.py` and `src/rate_limiter/service.py`:
the decision of the admission policy, and the ledger of tokens and requests by customer and minute.
The platform-wide bucket is a row of the same table under a reserved customer id, so both handles of
a reservation may be one row; they are read before either is written, and written one after the
other. The utilisation is compared exactly. A budget is stored as it came, so that it may not fit
its column, and so may the count of used tokens; the decision bounds the other counters, for the
reserved id to one charge more. Tokens that a provider counts in a float are added on the object, and
the driver truncates the sum for the column.
-/

namespace PostCall.Model
open PostCall.Library PostCall.Python

structure BudgetState where
  tokenLimit : ℤ
  requestLimit : ℤ
  reservedTokens : ℤ := 0
  reservedRequests : ℤ := 0

structure BudgetDecision where
  allowed : Bool
  reason : String
  deriving DecidableEq

/-- `global_utilization < 0.70`. -/
def underOverflowLimit (reservedTokens tokenLimit : ℤ) : Bool :=
  let globalUtilization : ℚ := if tokenLimit ≠ 0 then (reservedTokens : ℚ) / tokenLimit else 1
  globalUtilization < 7 / 10

/-- `BudgetAdmissionPolicy.decide`. -/
def decideAdmission (globalState customerState : BudgetState) (estimatedTokens : ℤ)
    (priority : JobPriority) : BudgetDecision :=
  if globalState.reservedTokens + estimatedTokens > globalState.tokenLimit then
    ⟨false, "GLOBAL_RATE_LIMIT"⟩
  else if globalState.reservedRequests + 1 > globalState.requestLimit then
    ⟨false, "GLOBAL_RATE_LIMIT"⟩
  else if customerState.reservedTokens + estimatedTokens ≤ customerState.tokenLimit then
    ⟨true, "ADMITTED"⟩
  else if priority = .high && underOverflowLimit globalState.reservedTokens globalState.tokenLimit then
    ⟨true, "ADMITTED_OVERFLOW"⟩
  else
    ⟨false, "CUSTOMER_TOKEN_BUDGET"⟩

/-- The customer id of the platform-wide bucket. -/
def GLOBAL_RATE_LIMIT_ID : UUID := 0

structure ReservationResult where
  allowed : Bool
  deferSeconds : ℤ := 0
  reason : String := ""
  customerBudgetTokens : ℤ := 0
  globalRemainingTokens : ℤ := 0
  deriving DecidableEq

def minuteWindow (now : Time) : Time := now - now % seconds 60

def secondsToNextWindow (now : Time) : ℤ :=
  max ((minuteWindow now + seconds 61 - now) / seconds 1) 1

/-- `customer_budget_tokens or settings.CUSTOMER_DEFAULT_TOKENS_PER_MINUTE`. -/
def customerBudget (cfg : Settings) (customerBudgetTokens : Option ℤ) : ℤ :=
  match customerBudgetTokens with
  | some n => if n = 0 then cfg.customerDefaultTokensPerMinute else n
  | none => cfg.customerDefaultTokensPerMinute

/-- The row a first use of a window creates. -/
def CustomerTokenUsage.new (customerId : UUID) (windowStart : Time) (budgetTokens : ℤ) :
    CustomerTokenUsage where
  customerId := customerId
  windowStart := windowStart
  budgetTokens := budgetTokens
  reservedTokens := 0
  usedTokens := 0
  requestsReserved := 0
  requestsUsed := 0

/-- The two columns one reservation raises. -/
def CustomerTokenUsage.reserve (tokens : ℤ) (u : CustomerTokenUsage) : CustomerTokenUsage :=
  { u with
    reservedTokens := u.reservedTokens + tokens
    requestsReserved := u.requestsReserved + 1 }

/-- The two columns that recorded responses raise, one for each handle on the row: the tokens are added
to what the object holds, and the column takes the sum. -/
def CustomerTokenUsage.use (tokens : List Number) (u : CustomerTokenUsage) : CustomerTokenUsage :=
  { u with
    usedTokens := ((Number.int u.usedTokens).sum tokens).trunc
    requestsUsed := u.requestsUsed + tokens.length }

/-- A reservation keeps the key of the row. -/
@[simp] lemma CustomerTokenUsage.reserve_key {tokens : ℤ} {u : CustomerTokenUsage} :
    (u.reserve tokens).key = u.key := rfl

@[simp] lemma CustomerTokenUsage.use_key {tokens : List Number} {u : CustomerTokenUsage} :
    (u.use tokens).key = u.key := rfl

namespace UsageTable

/-- `_get_or_create_usage`: the ledger with the row, and the row. -/
def getOrCreateUsage (t : UsageTable) (customerId : UUID) (windowStart : Time) (budgetTokens : ℤ) :
    Except PyError (UsageTable × CustomerTokenUsage) :=
  match t.find? (customerId, windowStart) with
  | some usage => .ok (t, usage)
  | none =>
    let usage := CustomerTokenUsage.new customerId windowStart budgetTokens
    if fitsInteger budgetTokens then
      match t.insert? usage with
      | some t => .ok (t, usage)
      | none => .error (.integrityError "uq_customer_token_usage_window")
    else .error (.dataError "value out of int32 range")

/-- Raise the counters of one row by `CustomerTokenUsage.reserve`. -/
def addReservation (t : UsageTable) (customerId : UUID) (windowStart : Time) (tokens : ℤ) :
    UsageTable :=
  t.modify (customerId, windowStart) (·.reserve tokens)
    (fun _ => CustomerTokenUsage.reserve_key) (fun _ => CustomerTokenUsage.reserve_key)

/-- Raise the counters of one row by `CustomerTokenUsage.use`. -/
def addUse (t : UsageTable) (customerId : UUID) (windowStart : Time) (tokens : List Number) :
    UsageTable :=
  t.modify (customerId, windowStart) (·.use tokens)
    (fun _ => CustomerTokenUsage.use_key) (fun _ => CustomerTokenUsage.use_key)

/-- What `record_usage` adds to the row of the platform and to that of the customer. For the reserved id
both handles are one object, to which the tokens are added twice before it is flushed. -/
def addUses (t : UsageTable) (customerId : UUID) (windowStart : Time) (tokens : Number) : UsageTable :=
  if customerId = GLOBAL_RATE_LIMIT_ID then t.addUse customerId windowStart [tokens, tokens]
  else (t.addUse GLOBAL_RATE_LIMIT_ID windowStart [tokens]).addUse customerId windowStart [tokens]

/-- The decision a reservation takes on the two rows it read. -/
def decision (cfg : Settings) (globalUsage customerUsage : CustomerTokenUsage) (budget : ℤ)
    (estimatedTokens : ℤ) (allowOverflow : Bool) : BudgetDecision :=
  decideAdmission
    { tokenLimit := cfg.llmTokensPerMinute
      requestLimit := cfg.llmRequestsPerMinute
      reservedTokens := globalUsage.reservedTokens
      reservedRequests := globalUsage.requestsReserved }
    { tokenLimit := budget
      requestLimit := cfg.llmRequestsPerMinute
      reservedTokens := customerUsage.reservedTokens
      reservedRequests := customerUsage.requestsReserved }
    estimatedTokens (if allowOverflow then .high else .medium)

def reserve (cfg : Settings) (t : UsageTable) (customerId : UUID) (estimatedTokens : ℤ)
    (allowOverflow : Bool) (now : Time) (customerBudgetTokens : Option ℤ) :
    Except PyError (UsageTable × ReservationResult) := do
  let windowStart := minuteWindow now
  let budget := customerBudget cfg customerBudgetTokens
  let (t, globalUsage) ←
    getOrCreateUsage t GLOBAL_RATE_LIMIT_ID windowStart cfg.llmTokensPerMinute
  let (t, customerUsage) ← getOrCreateUsage t customerId windowStart budget
  let decision := decision cfg globalUsage customerUsage budget estimatedTokens allowOverflow
  if decision.allowed then
    let t := t.addReservation GLOBAL_RATE_LIMIT_ID windowStart estimatedTokens
    let t := t.addReservation customerId windowStart estimatedTokens
    let reserved := ((t.find? (GLOBAL_RATE_LIMIT_ID, windowStart)).getD globalUsage).reservedTokens
    return (t, {
      allowed := true
      reason := decision.reason
      customerBudgetTokens := budget
      globalRemainingTokens := max (cfg.llmTokensPerMinute - reserved) 0 })
  else
    return (t, {
      allowed := false
      deferSeconds := secondsToNextWindow now
      reason := decision.reason
      customerBudgetTokens := budget
      globalRemainingTokens := max (cfg.llmTokensPerMinute - globalUsage.reservedTokens) 0 })

/-- `record_usage`. The counter of used tokens has no bound but its column's. -/
def recordUsage (cfg : Settings) (t : UsageTable) (customerId : UUID) (actualTokens : Number)
    (now : Time) (customerBudgetTokens : Option ℤ) : Except PyError UsageTable := do
  let windowStart := minuteWindow now
  let budget := customerBudget cfg customerBudgetTokens
  let (t, _) ← getOrCreateUsage t GLOBAL_RATE_LIMIT_ID windowStart cfg.llmTokensPerMinute
  let (t, _) ← getOrCreateUsage t customerId windowStart budget
  let t := t.addUses customerId windowStart actualTokens
  if t.rows.all (fun u => fitsInteger u.usedTokens) then return t
  else throw (.dataError "value out of int32 range")

/-- The call of `LLMRateLimiter.admit`, with the `max(token_estimate, 1)` of its caller. -/
def rateLimiterAdmit (cfg : Settings) (t : UsageTable) (customerId : UUID) (tokenEstimate : ℤ)
    (priority : JobPriority) (now : Time) (customerBudgetTokens : Option ℤ) :
    Except PyError (UsageTable × ReservationResult) :=
  reserve cfg t customerId (max tokenEstimate 1) (priority = .high) now customerBudgetTokens

end UsageTable

end PostCall.Model
