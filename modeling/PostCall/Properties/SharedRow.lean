import PostCall.Properties.Conservation

/-!
# One row under two handles

A reservation raises the row of the platform and the row of its customer. The bucket of the platform is
a row of the same table, under an id that no reservation excludes: one for that id finds the same row
under both handles, is tested once, and is charged twice. For every other id it is charged once, and a
sequence of such reservations stays within the limits. In any sequence at all, the limits are exceeded
by one reservation at most.
-/

namespace PostCall.Properties
open PostCall.Library PostCall.Python PostCall.Model PostCall.Machine

/-- The arguments of `reserve`. -/
structure ReserveCall where
  customerId : UUID
  estimatedTokens : ℤ
  allowOverflow : Bool
  now : Time
  customerBudgetTokens : Option ℤ

variable {cfg : Settings} {t t' s : UsageTable} {call : ReserveCall} {calls : List ReserveCall}
  {bound : ℤ}

/-- `reserve` with these arguments. -/
def ReserveCall.result (cfg : Settings) (t : UsageTable) (call : ReserveCall) :
    Except PyError (UsageTable × ReservationResult) :=
  t.reserve cfg call.customerId call.estimatedTokens call.allowOverflow call.now
    call.customerBudgetTokens

/-- One reservation in a transaction of its own: if it raises, nothing is written. -/
def reserveStep (cfg : Settings) (t : UsageTable) (call : ReserveCall) : UsageTable :=
  match call.result cfg t with
  | .ok (t, _) => t
  | .error _ => t

/-- The reservation returns, is admitted, and leaves this ledger. -/
def ReserveCall.Admitted (cfg : Settings) (t : UsageTable) (call : ReserveCall) (t' : UsageTable) :
    Prop :=
  ∃ result, call.result cfg t = .ok (t', result) ∧ result.allowed

/-- The row of the platform is raised by the estimate, and by one request. -/
structure ChargedOnce (call : ReserveCall) (t t' : UsageTable) : Prop where
  tokens : counter t' (GLOBAL_RATE_LIMIT_ID, minuteWindow call.now) .reservedTokens =
    counter t (GLOBAL_RATE_LIMIT_ID, minuteWindow call.now) .reservedTokens + call.estimatedTokens
  requests : counter t' (GLOBAL_RATE_LIMIT_ID, minuteWindow call.now) .requestsReserved =
    counter t (GLOBAL_RATE_LIMIT_ID, minuteWindow call.now) .requestsReserved + 1

/-- The reservation is not for the reserved id. -/
def OtherId (_ : UsageTable) (call : ReserveCall) : Prop := call.customerId ≠ GLOBAL_RATE_LIMIT_ID

/-! ### What an admission adds to the row of the platform -/

/-- How often a reservation is charged to the row of the platform. -/
def timesCharged (customer : UUID) : ℤ := if customer = GLOBAL_RATE_LIMIT_ID then 2 else 1

/-- An admission raises the row of the platform as often as it is charged. -/
lemma platform_of_admitted (h : call.Admitted cfg t t') (w : Time) (f : Counter) :
    counter t' (GLOBAL_RATE_LIMIT_ID, w) f = counter t (GLOBAL_RATE_LIMIT_ID, w) f +
      if w = minuteWindow call.now then
        timesCharged call.customerId * reserved call.estimatedTokens f
      else 0 := by
  obtain ⟨result, e, allowed⟩ := h
  rw [counter_of_allowed e allowed, add_assoc]
  congr 1
  unfold timesCharged
  by_cases here : w = minuteWindow call.now
  · subst here
    rw [if_pos rfl, if_pos rfl]
    by_cases shared : call.customerId = GLOBAL_RATE_LIMIT_ID
    · rw [if_pos (by rw [shared]), if_pos shared, two_mul]
    · rw [if_neg fun own => shared (congrArg Prod.fst own).symm, if_neg shared, add_zero, one_mul]
  · have elsewhere : ∀ customer, (GLOBAL_RATE_LIMIT_ID, w) ≠ (customer, minuteWindow call.now) :=
      fun _ own => here (congrArg Prod.snd own)
    rw [if_neg here, if_neg (elsewhere _), if_neg (elsewhere _), add_zero]

lemma chargedOnce_of_admitted (h : call.Admitted cfg t t') :
    ChargedOnce call t t' ↔ call.customerId ≠ GLOBAL_RATE_LIMIT_ID := by
  have raised := platform_of_admitted h (minuteWindow call.now)
  constructor
  · intro once shared
    have requests := once.requests
    rw [raised, if_pos rfl, timesCharged, if_pos shared, reserved] at requests
    omega
  · intro other
    constructor
    · rw [raised, if_pos rfl, timesCharged, if_neg other, one_mul, reserved]
    · rw [raised, if_pos rfl, timesCharged, if_neg other, one_mul, reserved]

/-! ### The limits over a sequence of reservations -/

/-- What is reserved on the platform exceeds its limits by no more than this. -/
structure ExceedsBy (cfg : Settings) (tokens requests : ℤ) (t : UsageTable) : Prop where
  tokens : ∀ windowStart, counter t (GLOBAL_RATE_LIMIT_ID, windowStart) .reservedTokens ≤
    cfg.llmTokensPerMinute + tokens
  requests : ∀ windowStart, counter t (GLOBAL_RATE_LIMIT_ID, windowStart) .requestsReserved ≤
    cfg.llmRequestsPerMinute + requests

lemma exceedsBy_zero : ExceedsBy cfg 0 0 t ↔ WithinLimits cfg t := by
  constructor
  · rintro ⟨tokens, requests⟩
    exact ⟨fun w => (tokens w).trans_eq (add_zero _),
      fun w => (requests w).trans_eq (add_zero _)⟩
  · rintro ⟨tokens, requests⟩
    exact ⟨fun w => (tokens w).trans_eq (add_zero _).symm,
      fun w => (requests w).trans_eq (add_zero _).symm⟩

/-- A reservation leaves the counters alone, or is admitted. -/
lemma reserveStep_cases : (∀ k f, counter (reserveStep cfg t call) k f = counter t k f) ∨
    call.Admitted cfg t (reserveStep cfg t call) := by
  unfold reserveStep
  split
  case h_2 => exact .inl fun _ _ => rfl
  case h_1 t' result e =>
    cases allowed : result.allowed with
    | false => exact .inl (counter_of_refused e allowed)
    | true => exact .inr ⟨result, e, allowed⟩

/-- An admission was tested for one charge, so only what it is charged beyond that can exceed a
limit. -/
lemma platform_step {f : Counter} {limit beyond : ℤ}
    (h : ∀ w, counter t (GLOBAL_RATE_LIMIT_ID, w) f ≤ limit + beyond)
    (fits : ∀ t', call.Admitted cfg t t' →
      counter t (GLOBAL_RATE_LIMIT_ID, minuteWindow call.now) f +
        reserved call.estimatedTokens f ≤ limit)
    (more : (timesCharged call.customerId - 1) * reserved call.estimatedTokens f ≤ beyond)
    (w : Time) :
    counter (reserveStep cfg t call) (GLOBAL_RATE_LIMIT_ID, w) f ≤ limit + beyond := by
  rcases reserveStep_cases with same | admitted
  · exact (same _ _).trans_le (h w)
  · rw [platform_of_admitted admitted]
    split
    case isTrue here =>
      subst here
      have fits := fits _ admitted
      linarith
    case isFalse => exact (add_zero _).trans_le (h w)

/-- A reservation exceeds by what it charges again. -/
lemma exceedsBy_step {tokens requests : ℤ} (h : ExceedsBy cfg tokens requests t)
    (moreTokens : (timesCharged call.customerId - 1) * call.estimatedTokens ≤ tokens)
    (moreRequests : timesCharged call.customerId - 1 ≤ requests) :
    ExceedsBy cfg tokens requests (reserveStep cfg t call) where
  tokens := platform_step h.tokens (fun _ ⟨_, e, allowed⟩ => (fits_of_allowed e allowed).1) moreTokens
  requests := platform_step h.requests (fun _ ⟨_, e, allowed⟩ => (fits_of_allowed e allowed).2)
    ((mul_one _).trans_le moreRequests)

/-- Reservations under other ids stay within the limits. -/
lemma withinLimits_of_run (limits : WithinLimits cfg t)
    (run : Run (reserveStep cfg) OtherId t calls s) : WithinLimits cfg s := by
  rw [← exceedsBy_zero] at limits ⊢
  refine run.invariant limits fun t call h other => exceedsBy_step h ?_ ?_
  · rw [timesCharged, if_neg other, sub_self, zero_mul]
  · rw [timesCharged, if_neg other, sub_self]

/-- In every sequence of reservations, also for the reserved id, the limits are exceeded by at most the
largest estimate, and by one request. -/
theorem exceedsBy_of_run (limits : WithinLimits cfg t) (nonneg : 0 ≤ bound)
    (small : ∀ call ∈ calls, call.estimatedTokens ≤ bound)
    (run : Run (reserveStep cfg) anyStep t calls s) : ExceedsBy cfg bound 1 s := by
  have init : ExceedsBy cfg bound 1 t :=
    ⟨fun w => le_add_of_le_of_nonneg (limits.tokens w) nonneg,
      fun w => le_add_of_le_of_nonneg (limits.requests w) zero_le_one⟩
  refine (run.of_forall_mem small).invariant init ?_
  rintro t call h ⟨_, small⟩
  refine exceedsBy_step h ?_ ?_
  · unfold timesCharged
    split <;> linarith
  · unfold timesCharged
    split <;> decide

/-- From every ledger, a reservation that is admitted is charged to the platform once if and only if it
is not for the reserved id; and every sequence of reservations of which none is for that id stays within
the limits of the platform. -/
theorem chargedOnce_iff (cfg : Settings) :
    (∀ t (call : ReserveCall) t', call.Admitted cfg t t' →
      (ChargedOnce call t t' ↔ call.customerId ≠ GLOBAL_RATE_LIMIT_ID)) ∧
    ∀ t calls s, WithinLimits cfg t → Run (reserveStep cfg) OtherId t calls s →
      WithinLimits cfg s :=
  ⟨fun _ _ _ => chargedOnce_of_admitted, fun _ _ _ => withinLimits_of_run⟩

instance {t : UsageTable} {call : ReserveCall} : Decidable (OtherId t call) :=
  inferInstanceAs (Decidable (_ ≠ _))

/-- A reservation of half the tokens of the platform and more, in an empty ledger. -/
def largeReservation (customer : UUID) : ReserveCall := ⟨customer, 50000, false, 0, some 60000⟩

/-- A customer reserves twice, and is refused the second time. -/
theorem chargedOnce_iff_plain :
    ChargedOnce (largeReservation 1) .empty (reserveStep settings .empty (largeReservation 1)) ∧
      WithinLimits settings
        ([largeReservation 1, largeReservation 1].foldl (reserveStep settings) .empty) := by
  have run : Run (reserveStep settings) OtherId .empty [largeReservation 1, largeReservation 1]
      ([largeReservation 1, largeReservation 1].foldl (reserveStep settings) .empty) :=
    Run.of_checked (by decide +kernel)
  have admitted : (largeReservation 1).Admitted settings .empty
      (reserveStep settings .empty (largeReservation 1)) := ⟨_, rfl, by decide +kernel⟩
  exact ⟨((chargedOnce_iff settings).1 _ _ _ admitted).2 (by decide +kernel),
    (chargedOnce_iff settings).2 _ _ _ withinLimits_empty run⟩

/-- A reservation for the reserved id finds room for itself, and is charged twice. -/
theorem not_chargedOnce :
    (¬ ∀ (cfg : Settings) (t : UsageTable) (call : ReserveCall) (t' : UsageTable),
      call.Admitted cfg t t' → ChargedOnce call t t') ∧
    ¬ ∀ (cfg : Settings) (t : UsageTable) (calls : List ReserveCall) (s : UsageTable),
      WithinLimits cfg t → Run (reserveStep cfg) anyStep t calls s → WithinLimits cfg s := by
  constructor
  · intro once
    have admitted : (largeReservation GLOBAL_RATE_LIMIT_ID).Admitted settings .empty
        (reserveStep settings .empty (largeReservation GLOBAL_RATE_LIMIT_ID)) :=
      ⟨_, rfl, by decide +kernel⟩
    have twice : counter (reserveStep settings .empty (largeReservation GLOBAL_RATE_LIMIT_ID))
        (GLOBAL_RATE_LIMIT_ID, 0) .requestsReserved = 2 := by decide +kernel
    have requests := (once settings _ _ _ admitted).requests
    exact absurd (twice.symm.trans requests) (by decide +kernel)
  · intro within
    have exceeds : ¬ counter (reserveStep settings .empty (largeReservation GLOBAL_RATE_LIMIT_ID))
        (GLOBAL_RATE_LIMIT_ID, 0) .reservedTokens ≤ settings.llmTokensPerMinute := by decide +kernel
    have run := within settings .empty [largeReservation GLOBAL_RATE_LIMIT_ID] _ withinLimits_empty
      (.cons trivial .nil)
    exact exceeds (run.tokens 0)

end PostCall.Properties
