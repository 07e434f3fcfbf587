import PostCall.Library.Program
import PostCall.Library.Serial
import PostCall.Machine.Ledger

/-!
# Transactions of the ledger

The statements of `src/repositories/token_usage.py`: `_get_or_create_usage` selects a row for update and
inserts it when there is none, the two rows of a window one after the other, and the counters are
raised on the objects that the session holds and flushed. A transaction makes several calls, as the loop
over the claimed jobs does; if one of them raises, all is rolled back. Alone, the statements of a
transaction do what the calls do to the table.
-/

namespace PostCall.Machine
open PostCall.Library PostCall.Python PostCall.Model

/-- What is left of a transaction that answers with the results of its reservations. -/
abbrev Booking := Txn (UUID × Time) CustomerTokenUsage PyError (List ReservationResult)

namespace Booking

def getOrCreateUsage (customerId : UUID) (windowStart : Time) (budgetTokens : ℤ)
    (next : CustomerTokenUsage → Booking) : Booking :=
  .obtain (customerId, windowStart)
    (if fitsInteger budgetTokens then .ok (.new customerId windowStart budgetTokens)
      else .error (.dataError "value out of int32 range"))
    next

def reserve (cfg : Settings) (customerId : UUID) (estimatedTokens : ℤ) (allowOverflow : Bool)
    (now : Time) (customerBudgetTokens : Option ℤ) (next : ReservationResult → Booking) : Booking :=
  let windowStart := minuteWindow now
  let budget := customerBudget cfg customerBudgetTokens
  getOrCreateUsage GLOBAL_RATE_LIMIT_ID windowStart cfg.llmTokensPerMinute fun globalUsage =>
  getOrCreateUsage customerId windowStart budget fun customerUsage =>
  let decision :=
    UsageTable.decision cfg globalUsage customerUsage budget estimatedTokens allowOverflow
  if decision.allowed then
    .modify (GLOBAL_RATE_LIMIT_ID, windowStart) (·.reserve estimatedTokens) <|
    .modify (customerId, windowStart) (·.reserve estimatedTokens) <|
    .read (GLOBAL_RATE_LIMIT_ID, windowStart) fun usage => next {
      allowed := true
      reason := decision.reason
      customerBudgetTokens := budget
      globalRemainingTokens :=
        max (cfg.llmTokensPerMinute - (usage.getD globalUsage).reservedTokens) 0 }
  else
    next {
      allowed := false
      deferSeconds := secondsToNextWindow now
      reason := decision.reason
      customerBudgetTokens := budget
      globalRemainingTokens := max (cfg.llmTokensPerMinute - globalUsage.reservedTokens) 0 }

/-- Whether the flush of a row is refused by no column. -/
def fits (usage : Option CustomerTokenUsage) : Bool := usage.all fun u => fitsInteger u.usedTokens

def recordUsage (cfg : Settings) (customerId : UUID) (actualTokens : ℤ) (now : Time)
    (customerBudgetTokens : Option ℤ) (next : Booking) : Booking :=
  let windowStart := minuteWindow now
  let budget := customerBudget cfg customerBudgetTokens
  getOrCreateUsage GLOBAL_RATE_LIMIT_ID windowStart cfg.llmTokensPerMinute fun _ =>
  getOrCreateUsage customerId windowStart budget fun _ =>
  .modify (GLOBAL_RATE_LIMIT_ID, windowStart) (·.use [.int actualTokens]) <|
  .modify (customerId, windowStart) (·.use [.int actualTokens]) <|
  .read (GLOBAL_RATE_LIMIT_ID, windowStart) fun globalUsage =>
  .read (customerId, windowStart) fun customerUsage =>
  if fits globalUsage && fits customerUsage then next
  else .fail (.dataError "value out of int32 range")

/-- The calls of a transaction, after reservations that answered `results`. -/
def calls (cfg : Settings) : List LedgerCall → List ReservationResult → Booking
  | [], results => .done results
  | .reserve customerId tokenEstimate priority now budget :: rest, results =>
    reserve cfg customerId (max tokenEstimate 1) (priority = .high) now budget fun result =>
      calls cfg rest (results ++ [result])
  | .recordUsage customerId actualTokens now budget :: rest, results =>
    recordUsage cfg customerId actualTokens now budget (calls cfg rest results)

end Booking

/-- The ledger in the database, with the connections that work on it. -/
abbrev Bookings := Concurrent (UUID × Time) CustomerTokenUsage PyError (List ReservationResult)
  (List LedgerCall)

namespace Bookings

/-- An empty ledger. -/
def start : Bookings := Concurrent.start fun _ => none

def step (cfg : Settings) : Bookings → ConcurrentAction (List LedgerCall) → Bookings :=
  Concurrent.step fun calls => Booking.calls cfg calls []

end Bookings

/-- One call on the table, with what it answers. -/
def LedgerCall.book (cfg : Settings) (t : UsageTable) :
    LedgerCall → Except PyError (UsageTable × List ReservationResult)
  | .reserve customerId tokenEstimate priority now budget => do
    let (t, result) ← t.rateLimiterAdmit cfg customerId tokenEstimate priority now budget
    return (t, [result])
  | .recordUsage customerId actualTokens now budget => do
    let t ← t.recordUsage cfg customerId (.int actualTokens) now budget
    return (t, [])

/-- The calls of a transaction on the table, one after the other. -/
def bookAll (cfg : Settings) (t : UsageTable) :
    List LedgerCall → Except PyError (UsageTable × List ReservationResult)
  | [] => return (t, [])
  | call :: rest => do
    let (t, results) ← call.book cfg t
    let (t, results') ← bookAll cfg t rest
    return (t, results ++ results')

/-- Transactions one after the other, all of whose calls return, with what they answer. -/
inductive OneByOne (cfg : Settings) :
    List (List LedgerCall × List ReservationResult) → UsageTable → Prop where
  | nil :
    OneByOne cfg [] .empty
  | snoc {log t calls results t'} :
    OneByOne cfg log t →
    bookAll cfg t calls = .ok (t', results) →
    OneByOne cfg (log ++ [(calls, results)]) t'

variable {cfg : Settings} {t t' : UsageTable} {customer : UUID} {windowStart now : Time}
  {budget : Option ℤ} {tokens budgetTokens : ℤ} {u : CustomerTokenUsage}

/-! ### The statements alone -/

/-- The statements of `_get_or_create_usage` do what it does. -/
lemma exec_getOrCreateUsage {next : CustomerTokenUsage → Booking} :
    (Booking.getOrCreateUsage customer windowStart budgetTokens next).exec t.find? =
      match t.getOrCreateUsage customer windowStart budgetTokens with
      | .ok (t', u) => (next u).exec t'.find?
      | .error e => .error e := by
  unfold Booking.getOrCreateUsage UsageTable.getOrCreateUsage
  cases found : t.find? (customer, windowStart) with
  | some u => exact Txn.exec_found found
  | none =>
    have absent := Table.find?_eq_none.1 found
    obtain ⟨t', inserted⟩ := Table.insert?_of_fresh (t := t)
      (a := CustomerTokenUsage.new customer windowStart budgetTokens) absent absent
    by_cases fits : fitsInteger budgetTokens
    · have rows : t'.find? = Function.update t.find? (customer, windowStart)
          (some (.new customer windowStart budgetTokens)) := by
        funext k
        rw [Table.find?_insert? inserted, Function.update_apply]
        rfl
      simp only [fits, if_true, inserted, rows]
      exact Txn.exec_missing found rfl
    · simp only [fits, if_false, Bool.false_eq_true]
      unfold Txn.exec
      rw [found]

/-- An UPDATE of a row is the modification of the table. -/
lemma exec_modify {k : UUID × Time} {g : CustomerTokenUsage → CustomerTokenUsage} {hk hi}
    {next : Booking} :
    (Txn.modify k g next).exec t.find? = next.exec (t.modify k g hk hi).find? := by
  have rows : (t.modify k g hk hi).find? = Function.update t.find? k ((t.find? k).map g) := by
    funext l
    rw [Table.find?_modify, Function.update_apply]
    split
    case isTrue e => rw [e]
    case isFalse => rfl
  rw [rows]
  rfl

/-- So it is for a reservation. -/
lemma exec_addReservation {next : Booking} :
    (Txn.modify (customer, windowStart) (·.reserve tokens) next).exec t.find? =
      next.exec (t.addReservation customer windowStart tokens).find? := exec_modify

/-- So it is for tokens that are used. -/
lemma exec_addUse {xs : List Number} {next : Booking} :
    (Txn.modify (customer, windowStart) (·.use xs) next).exec t.find? =
      next.exec (t.addUse customer windowStart xs).find? := exec_modify

/-- The statements of `reserve` do what it does. -/
lemma exec_reserve {allowOverflow : Bool} {next : ReservationResult → Booking} :
    (Booking.reserve cfg customer tokens allowOverflow now budget next).exec t.find? =
      match t.reserve cfg customer tokens allowOverflow now budget with
      | .ok (t', result) => (next result).exec t'.find?
      | .error e => .error e := by
  unfold Booking.reserve UsageTable.reserve
  simp only [bind, Except.bind]
  rw [exec_getOrCreateUsage]
  cases t.getOrCreateUsage GLOBAL_RATE_LIMIT_ID (minuteWindow now) cfg.llmTokensPerMinute with
  | error e => rfl
  | ok first =>
    obtain ⟨t₁, globalUsage⟩ := first
    simp only
    rw [exec_getOrCreateUsage]
    cases t₁.getOrCreateUsage customer (minuteWindow now) (customerBudget cfg budget) with
    | error e => rfl
    | ok second =>
      obtain ⟨t₂, customerUsage⟩ := second
      simp only
      split
      case isTrue =>
        rw [exec_addReservation, exec_addReservation]
        rfl
      case isFalse => rfl

/-- Rows that are no other than two fit their column if the two do. -/
lemma inRange_iff {k l : UUID × Time}
    (others : ∀ u ∈ t.rows, u.key ≠ k → u.key ≠ l → fitsInteger u.usedTokens) :
    InRange t ↔ Booking.fits (t.find? k) && Booking.fits (t.find? l) := by
  have of_row : ∀ {k}, InRange t → Booking.fits (t.find? k) := by
    intro k inRange
    cases found : t.find? k with
    | none => rfl
    | some u => exact inRange u (Table.find?_eq_some.1 found).1
  have row_of : ∀ u ∈ t.rows, Booking.fits (t.find? u.key) → fitsInteger u.usedTokens := by
    intro u mem fits
    rwa [Table.find?_eq_some.2 ⟨mem, rfl⟩] at fits
  rw [Bool.and_eq_true]
  constructor
  · exact fun inRange => ⟨of_row inRange, of_row inRange⟩
  · rintro ⟨first, second⟩ u mem
    by_cases here : u.key = k
    · exact row_of u mem (here ▸ first)
    by_cases here' : u.key = l
    · exact row_of u mem (here' ▸ second)
    exact others u mem here here'

/-- Another row than that of the use was there before. -/
lemma of_mem_addUse {xs : List Number} (mem : u ∈ (t.addUse customer windowStart xs).rows)
    (ne : u.key ≠ (customer, windowStart)) : u ∈ t.rows := by
  obtain ⟨v, old, rfl⟩ := Table.mem_modify.1 mem
  split at ne
  case isTrue here => exact absurd here ne
  case isFalse other => rwa [if_neg other]

/-- The statements of `record_usage` do what it does. -/
lemma exec_recordUsage {next : Booking} (inRange : InRange t) :
    (Booking.recordUsage cfg customer tokens now budget next).exec t.find? =
      match t.recordUsage cfg customer (.int tokens) now budget with
      | .ok t' => next.exec t'.find?
      | .error e => .error e := by
  unfold Booking.recordUsage UsageTable.recordUsage
  simp only [bind, Except.bind]
  rw [exec_getOrCreateUsage]
  cases read : t.getOrCreateUsage GLOBAL_RATE_LIMIT_ID (minuteWindow now) cfg.llmTokensPerMinute with
  | error e => rfl
  | ok first =>
    obtain ⟨t₁, globalUsage⟩ := first
    simp only
    rw [exec_getOrCreateUsage]
    cases read' : t₁.getOrCreateUsage customer (minuteWindow now) (customerBudget cfg budget) with
    | error e => rfl
    | ok second =>
      obtain ⟨t₂, customerUsage⟩ := second
      have opened := inRange_getOrCreateUsage read' (inRange_getOrCreateUsage read inRange)
      simp only
      rw [exec_addUse, exec_addUse, ← addUses_int]
      -- the other rows are as they were
      have others : ∀ u ∈ (t₂.addUses customer (minuteWindow now) (.int tokens)).rows,
          u.key ≠ (GLOBAL_RATE_LIMIT_ID, minuteWindow now) → u.key ≠ (customer, minuteWindow now) →
          fitsInteger u.usedTokens :=
        fun u mem notPlatform notCustomer =>
          opened u (of_mem_addUse (of_mem_addUse (addUses_int ▸ mem) notCustomer) notPlatform)
      have check := Bool.eq_iff_iff.2 (List.all_eq_true.trans (inRange_iff others))
      simp only [Txn.exec]
      rw [check]
      split
      case isTrue => rfl
      case isFalse => rfl

/-! ### The calls of a transaction -/

/-- A call leaves what the columns take. -/
lemma inRange_book {call : LedgerCall} {results : List ReservationResult}
    (h : call.book cfg t = .ok (t', results)) (inRange : InRange t) : InRange t' := by
  cases call with
  | reserve customerId tokenEstimate priority now budget =>
    obtain ⟨⟨t₁, result⟩, admitted, returned⟩ := Program.except_ok.1 h
    cases returned
    exact inRange_reserve admitted inRange
  | recordUsage customerId actualTokens now budget =>
    obtain ⟨t₁, recorded, returned⟩ := Program.except_ok.1 h
    cases returned
    exact inRange_recordUsage recorded

/-- So do all calls of a transaction. -/
lemma inRange_bookAll {calls : List LedgerCall} {results : List ReservationResult}
    (h : bookAll cfg t calls = .ok (t', results)) (inRange : InRange t) : InRange t' := by
  induction calls generalizing t results with
  | nil =>
    cases h
    exact inRange
  | cons call rest ih =>
    obtain ⟨⟨t₁, first⟩, booked, h⟩ := Program.except_ok.1 h
    obtain ⟨⟨t₂, others⟩, rest, returned⟩ := Program.except_ok.1 h
    cases returned
    exact ih rest (inRange_book booked inRange)

/-- Alone, the statements of a transaction do what its calls do to the table. -/
lemma exec_calls {calls : List LedgerCall} {results : List ReservationResult} (inRange : InRange t) :
    (Booking.calls cfg calls results).exec t.find? =
      match bookAll cfg t calls with
      | .ok (t', results') => .ok (results ++ results', t'.find?)
      | .error e => .error e := by
  induction calls generalizing t results with
  | nil => simp [Booking.calls, bookAll, Txn.exec, pure, Except.pure]
  | cons call rest ih =>
    cases call with
    | reserve customerId tokenEstimate priority now budget =>
      simp only [Booking.calls, exec_reserve, bookAll, LedgerCall.book, UsageTable.rateLimiterAdmit,
        bind, Except.bind, pure, Except.pure]
      cases admitted : t.reserve cfg customerId (max tokenEstimate 1) (priority = .high) now
          budget with
      | error e => rfl
      | ok answer =>
        simp only
        rw [ih (inRange_reserve admitted inRange)]
        cases bookAll cfg answer.1 rest with
        | error e => rfl
        | ok others => simp
    | recordUsage customerId actualTokens now budget =>
      simp only [Booking.calls, exec_recordUsage inRange, bookAll, LedgerCall.book, bind,
        Except.bind, pure, Except.pure]
      cases recorded : t.recordUsage cfg customerId (.int actualTokens) now budget with
      | error e => rfl
      | ok t₁ =>
        simp only
        rw [ih (inRange_recordUsage recorded)]
        cases bookAll cfg t₁ rest with
        | error e => rfl
        | ok others => simp

/-- The programs of transactions one after the other do what their calls do to the table. -/
lemma oneByOne_of_serial {log : List (List LedgerCall × List ReservationResult)}
    {c : Rows (UUID × Time) CustomerTokenUsage}
    (serial : Serial (fun calls => Booking.calls cfg calls []) (fun _ => none) log c) :
    ∃ t, c = t.find? ∧ InRange t ∧ OneByOne cfg log t := by
  induction serial with
  | nil => exact ⟨.empty, rfl, fun _ mem => (List.not_mem_nil mem).elim, .nil⟩
  | @snoc log c calls results c' _ run ih =>
    obtain ⟨t, rfl, inRange, earlier⟩ := ih
    rw [exec_calls inRange] at run
    split at run
    case h_2 => cases run
    case h_1 t' results' booked =>
      cases run
      exact ⟨t', rfl, inRange_bookAll booked inRange, .snoc earlier (by simpa using booked)⟩

end PostCall.Machine
