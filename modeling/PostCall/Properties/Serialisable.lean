import PostCall.Machine.Bookings
import PostCall.Properties.Conservation

/-!
# Concurrent use of the ledger

The ledger has no lock of its own but those of its rows. However the statements of the transactions
interleave, with rows that two of them create at once, and with transactions that fail anywhere, what
is committed is what the calls do one after the other; so what holds in every sequence of calls holds
of every committed state.
-/

namespace PostCall.Properties
open PostCall.Library PostCall.Python PostCall.Model PostCall.Machine

variable {cfg : Settings} {t t' : UsageTable} {s : Bookings}
  {actions : List (ConcurrentAction (List LedgerCall))}
  {log : List (List LedgerCall × List ReservationResult)} {calls : List LedgerCall}
  {results : List ReservationResult}

/-- A booked call is a step of the ledger. -/
lemma step_of_book {call : LedgerCall} (granted : List Time)
    (h : call.book cfg t = .ok (t', results)) :
    ∃ granted', Ledger.step cfg ⟨t, granted⟩ call = ⟨t', granted'⟩ := by
  cases call with
  | reserve customerId tokenEstimate priority now budget =>
    obtain ⟨⟨t₁, result⟩, admitted, returned⟩ := Program.except_ok.1 h
    cases returned
    simp only [Ledger.step, admitted]
    exact ⟨_, rfl⟩
  | recordUsage customerId actualTokens now budget =>
    obtain ⟨t₁, recorded, returned⟩ := Program.except_ok.1 h
    cases returned
    simp only [Ledger.step, recorded]
    exact ⟨_, rfl⟩

/-- Booked calls are a run of the ledger. -/
lemma run_of_bookAll (granted : List Time) (h : bookAll cfg t calls = .ok (t', results)) :
    ∃ granted', Run (Ledger.step cfg) anyStep ⟨t, granted⟩ calls ⟨t', granted'⟩ := by
  induction calls generalizing t results granted with
  | nil =>
    cases h
    exact ⟨granted, .nil⟩
  | cons call rest ih =>
    obtain ⟨⟨t₁, first⟩, booked, h⟩ := Program.except_ok.1 h
    obtain ⟨⟨t₂, others⟩, rest, returned⟩ := Program.except_ok.1 h
    cases returned
    obtain ⟨granted₁, e⟩ := step_of_book granted booked
    obtain ⟨granted', later⟩ := ih granted₁ rest
    exact ⟨granted', .cons trivial (e ▸ later)⟩

/-- Transactions one after the other are one sequence of calls. -/
lemma run_of_oneByOne (h : OneByOne cfg log t) :
    ∃ granted, Run (Ledger.step cfg) anyStep ⟨.empty, []⟩ (log.flatMap (·.1)) ⟨t, granted⟩ := by
  induction h with
  | nil => exact ⟨[], .nil⟩
  | snoc _ booked ih =>
    obtain ⟨granted, earlier⟩ := ih
    obtain ⟨granted', later⟩ := run_of_bookAll granted booked
    refine ⟨granted', ?_⟩
    rw [List.flatMap_append, List.flatMap_singleton]
    exact earlier.append later

lemma kept_of_oneByOne (h : OneByOne cfg log t)
    (real : ∀ e ∈ log, ∀ call ∈ e.1, call.customerId ≠ GLOBAL_RATE_LIMIT_ID) :
    Conserved t ∧ WithinLimits cfg t := by
  obtain ⟨granted, run⟩ := run_of_oneByOne h
  have ofReal := run.of_forall_mem (p := fun call => call.customerId ≠ GLOBAL_RATE_LIMIT_ID)
    fun call mem => by
      obtain ⟨e, logged, mem⟩ := List.mem_flatMap.1 mem
      exact real e logged call mem
  have kept := kept_of_run (ofReal.mono fun _ _ h => h.2)
  exact ⟨kept.conserved, kept.limits⟩

/-- However the statements of the transactions interleave, the committed rows are a ledger that the
committed transactions leave when they run one after the other in the order of their commits, and each
reservation has been answered as it is there. If they are all for real customers, its platform row is
the sum of the rows of the customers, and is within the limits. -/
theorem ledger_serialisable (run : Run (Bookings.step cfg) anyStep .start actions s) :
    ∃ t : UsageTable, s.committed = t.find? ∧ OneByOne cfg s.log t ∧
      ((∀ e ∈ s.log, ∀ call ∈ e.1, call.customerId ≠ GLOBAL_RATE_LIMIT_ID) →
        Conserved t ∧ WithinLimits cfg t) := by
  obtain ⟨t, committed, _, sequential⟩ := oneByOne_of_serial (Concurrent.serial_of_run run)
  exact ⟨t, committed, sequential, kept_of_oneByOne sequential⟩

/-- A transaction that makes these calls, up to its commit. -/
def whole (n : ℕ) (calls : List LedgerCall) (statements : ℕ) :
    List (ConcurrentAction (List LedgerCall)) :=
  .begin n calls :: List.replicate statements (.next n) ++ [.commit n]

/-- Two transactions find no row of the platform. The second has to wait until the first has committed
its row, violates the key, and is rolled back; it is begun again. -/
def contended : List (ConcurrentAction (List LedgerCall)) :=
  [.begin 1 [.reserve 1 1000 .high 0 none], .begin 2 [.reserve 2 500 .low 0 none],
    .next 1, .next 2, .next 1, .next 2, .next 1, .next 1, .next 1, .next 2, .next 1, .next 1,
    .commit 1, .next 2, .commit 2] ++
  whole 2 [.reserve 2 500 .low 0 none] 6

theorem ledger_serialisable_contended :
    (∃ t : UsageTable,
      (contended.foldl (Bookings.step settings) .start).committed = t.find? ∧
      OneByOne settings (contended.foldl (Bookings.step settings) .start).log t ∧
      ((∀ e ∈ (contended.foldl (Bookings.step settings) .start).log, ∀ call ∈ e.1,
        call.customerId ≠ GLOBAL_RATE_LIMIT_ID) → Conserved t ∧ WithinLimits settings t)) ∧
    (contended.foldl (Bookings.step settings) .start).log.length = 2 ∧
    ((contended.foldl (Bookings.step settings) .start).committed (0, 0)).map (·.reservedTokens) =
      some 1500 :=
  ⟨ledger_serialisable (.of_foldl contended), by decide +kernel, by decide +kernel⟩

end PostCall.Properties
