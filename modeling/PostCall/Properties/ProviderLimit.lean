import Mathlib.Algebra.Order.BigOperators.Group.List
import PostCall.Library.Position
import PostCall.Machine.Fleet
import PostCall.Properties.Admission

/-!
# The limit of the provider

The ledger keeps what is reserved in a minute window within the limits of the provider. A call is
charged to the window of the claim that reserved it, and starts when the worker has worked through the
jobs before it. The calls that start in a window are within the limits as long as every call starts in
the window of its reservation; one that starts later comes on top of what is reserved there.
-/

namespace PostCall.Properties
open PostCall.Library PostCall.Python PostCall.Model PostCall.Machine

variable {cfg : Settings} {text : Text} {fromisoformat : String → Except PyError Time}
  {s s' : Fleet} {windowStart : Time} {r : Resource}

/-- The calls that started in a window. -/
def callsIn (windowStart : Time) (calls : List ProviderCall) : List ProviderCall :=
  calls.filter (minuteWindow ·.startedAt = windowStart)

/-- No minute window has more calls, or more reserved tokens, than the provider allows. -/
def Limited (cfg : Settings) (s : Fleet) : Prop :=
  ∀ windowStart,
    (callsIn windowStart s.calls).length ≤ cfg.llmRequestsPerMinute ∧
    ((callsIn windowStart s.calls).map (max ·.snapshot.tokenEstimate 1)).sum ≤
      cfg.llmTokensPerMinute

/-- A call that starts does so in the window that its reservation was charged to. -/
def InWindow (s : Fleet) : FleetAction → Prop
  | .start n now => ∀ next ∈ s.workers[n]?.bind LlmWorker.next?, minuteWindow now = next.windowStart
  | _ => True

instance {a : FleetAction} : Decidable (InWindow s a) := match a with
  | .start n now => inferInstanceAs (Decidable (∀ next ∈ s.workers[n]?.bind LlmWorker.next?,
      minuteWindow now = next.windowStart))
  | .claim .. | .finish .. | .crash .. | .elsewhere .. => instDecidableTrue

/-! ### What was charged -/

/-- What the calls that started in a window cost. -/
def startedCost (windowStart : Time) (r : Resource) (calls : List ProviderCall) : ℤ :=
  ((callsIn windowStart calls).map (r.cost ·.snapshot.tokenEstimate)).sum

/-- What the calls still to come cost of a window. -/
def pendingCost (windowStart : Time) (r : Resource) (worker : LlmWorker) : ℤ :=
  ((worker.pending.filter (·.windowStart = windowStart)).map
    (r.cost ·.snapshot.tokenEstimate)).sum

/-- What all workers have of a window, started or still to come. -/
def chargedCost (windowStart : Time) (r : Resource) (s : Fleet) : ℤ :=
  startedCost windowStart r s.calls + (s.workers.map (pendingCost windowStart r)).sum

/-- The ledger accounts for every call, and no window has too many. -/
structure Accounted (cfg : Settings) (s : Fleet) : Prop where
  counted : ∀ windowStart r, chargedCost windowStart r s ≤
    counter s.db.usage (GLOBAL_RATE_LIMIT_ID, windowStart) r.counter
  bounded : ∀ windowStart r, chargedCost windowStart r s ≤ r.limit cfg

lemma pendingCost_idle : pendingCost windowStart r .idle = 0 := rfl

lemma pendingCost_cons {next : Reservation} {pending : List Reservation}
    {calling : Option ClaimedLLMJob} :
    pendingCost windowStart r ⟨next :: pending, calling⟩ =
      (if next.windowStart = windowStart then r.cost next.snapshot.tokenEstimate else 0) +
        pendingCost windowStart r ⟨pending, none⟩ := by
  unfold pendingCost
  simp only [sum_map_filter_cons, decide_eq_true_eq]

lemma pendingCost_nonneg {worker : LlmWorker} : 0 ≤ pendingCost windowStart r worker := by
  refine List.sum_nonneg fun cost mem => ?_
  obtain ⟨next, _, rfl⟩ := List.mem_map.1 mem
  exact Resource.cost_nonneg r

lemma startedCost_cons {call : ProviderCall} {calls : List ProviderCall} :
    startedCost windowStart r (call :: calls) =
      (if minuteWindow call.startedAt = windowStart then r.cost call.snapshot.tokenEstimate else 0) +
        startedCost windowStart r calls := by
  unfold startedCost callsIn
  simp only [sum_map_filter_cons, decide_eq_true_eq]

/-- A worker that drops what it has still to do leaves less charged. -/
lemma sum_set_idle {workers : List LlmWorker} {n : ℕ} :
    ((workers.set n .idle).map (pendingCost windowStart r)).sum ≤
      (workers.map (pendingCost windowStart r)).sum := by
  cases h : workers[n]? with
  | none => rw [List.set_eq_of_length_le (List.getElem?_eq_none_iff.1 h)]
  | some old =>
    have moved := sum_map_set (f := pendingCost windowStart r) (b := .idle) h
    have nonneg := @pendingCost_nonneg windowStart r old
    rw [pendingCost_idle] at moved
    omega

namespace Accounted

/-- Where all is accounted for, the provider is limited. -/
lemma limited (h : Accounted cfg s) : Limited cfg s := by
  intro windowStart
  have pending : ∀ r, startedCost windowStart r s.calls ≤ r.limit cfg := by
    intro r
    have nonneg : 0 ≤ (s.workers.map (pendingCost windowStart r)).sum := by
      refine List.sum_nonneg fun cost mem => ?_
      obtain ⟨worker, _, rfl⟩ := List.mem_map.1 mem
      exact pendingCost_nonneg
    have bounded := h.bounded windowStart r
    unfold chargedCost at bounded
    omega
  refine ⟨?_, pending .tokens⟩
  have requests := pending .requests
  simp only [startedCost, Resource.cost, Resource.limit, List.map_const', List.sum_replicate,
    nsmul_eq_mul, mul_one] at requests
  exact_mod_cast requests

/-- At the start there is nothing to account for. -/
lemma init {db : Db} {workers : ℕ} : Accounted cfg (.init db workers) := by
  have nothing : ∀ windowStart r, chargedCost windowStart r (.init db workers) = 0 := by
    intro windowStart r
    simp only [chargedCost, Fleet.init, List.map_replicate, List.sum_replicate, pendingCost_idle,
      nsmul_zero, add_zero]
    rfl
  refine ⟨fun windowStart r => ?_, fun windowStart r => ?_⟩
  · rw [nothing]
    exact le_refl (0 : ℤ)
  · rw [nothing]
    cases r <;> exact Int.natCast_nonneg _

/-- What charges no more and keeps what is reserved keeps the account. -/
lemma of_le (h : Accounted cfg s) (reserved : SameReserved s.db s'.db)
    (less : ∀ windowStart r, chargedCost windowStart r s' ≤ chargedCost windowStart r s) :
    Accounted cfg s' :=
  ⟨fun w r => by
      rw [reserved]
      exact (less w r).trans (h.counted w r),
    fun w r => (less w r).trans (h.bounded w r)⟩

end Accounted

/-! ### The claim -/

/-- A batch costs a window no more than its reservations added to the ledger there, and no more than
the limit had left. -/
lemma reservations_charged {db : Db} {t t' : UsageTable} {jobs : List InteractionJob}
    {snapshots : List ClaimedLLMJob} {clock : UUID → Clock} {charged : ℤ}
    (settled : Settled cfg clock db t jobs snapshots t')
    (counted : charged ≤ counter t (GLOBAL_RATE_LIMIT_ID, windowStart) r.counter)
    (bounded : charged ≤ r.limit cfg) :
    charged + pendingCost windowStart r ⟨Fleet.reservations clock snapshots, none⟩ ≤
        counter t' (GLOBAL_RATE_LIMIT_ID, windowStart) r.counter ∧
      charged + pendingCost windowStart r ⟨Fleet.reservations clock snapshots, none⟩ ≤
        r.limit cfg := by
  induction settled generalizing charged with
  | nil => exact ⟨by simpa [pendingCost, Fleet.reservations] using counted,
      by simpa [pendingCost, Fleet.reservations] using bounded⟩
  | @admitted t t₁ t' job jobs snapshots budget result admitted allowed _ _ _ ih =>
    have raised := counter_of_allowed admitted allowed (GLOBAL_RATE_LIMIT_ID, windowStart) r.counter
    rw [Resource.reserved_counter] at raised
    have nonneg : 0 ≤ r.cost job.tokenEstimate := Resource.cost_nonneg r
    -- the decision compared the counter of this window with its limit
    have fits : windowStart = minuteWindow (clock job.id 0) →
        counter t (GLOBAL_RATE_LIMIT_ID, windowStart) r.counter + r.cost job.tokenEstimate ≤
          r.limit cfg := by
      rintro rfl
      cases r with
      | tokens => exact (fits_of_allowed admitted allowed).1
      | requests => exact (fits_of_allowed admitted allowed).2
    obtain ⟨counted', bounded'⟩ := @ih (charged +
      if minuteWindow (clock job.id 0) = windowStart then r.cost job.tokenEstimate else 0)
      (by grind) (by grind)
    rw [Fleet.reservations, List.map_cons, pendingCost_cons, ← add_assoc]
    exact ⟨counted', bounded'⟩
  | deferred admitted refused _ _ _ _ ih =>
    refine ih ?_ bounded
    rw [counter_of_refused admitted (Bool.eq_false_iff.2 refused)]
    exact counted

lemma charged_claim {n : ℕ} {workerId : String} {limit : ℕ} {recovery : RecoveryClock}
    {query : ClaimQuery} {clock : UUID → Clock} (h : Accounted cfg s) :
    Accounted cfg (s.claim n clock
      (LLMWorkerService.claimAdmittedJobs cfg workerId limit recovery query clock)) := by
  unfold Fleet.claim
  split
  case h_2 => exact h
  case h_1 idle =>
  split
  case h_2 => exact h
  case h_1 admitted db committed =>
  have settled := settled_of_claim (commit_eq_some.1 committed)
  -- the worker had nothing charged, and now has its batch
  have charged : ∀ w r, chargedCost w r { s with
      db := db, workers := s.workers.set n ⟨Fleet.reservations clock admitted, none⟩ } =
      chargedCost w r s + pendingCost w r ⟨Fleet.reservations clock admitted, none⟩ := by
    intro w r
    have moved := sum_map_set (f := pendingCost w r)
      (b := ⟨Fleet.reservations clock admitted, none⟩) idle
    have nothing : pendingCost w r ⟨[], none⟩ = 0 := rfl
    simp only [chargedCost]
    omega
  refine ⟨fun w r => ?_, fun w r => ?_⟩
  · rw [charged]
    exact (reservations_charged settled (h.counted w r) (h.bounded w r)).1
  · rw [charged]
    exact (reservations_charged settled (h.counted w r) (h.bounded w r)).2

/-! ### The other steps -/

/-- A start in its window is charged there. -/
lemma charged_start {n : ℕ} {now : Time} (h : Accounted cfg s) (inWindow : InWindow s (.start n now)) :
    Accounted cfg (s.start text fromisoformat n now) := by
  unfold Fleet.start
  split
  case h_2 => exact h
  case h_1 next pending busy =>
  split
  case h_2 => exact h.of_le (refl_of SameReserved _) fun w r => add_le_add_right sum_set_idle _
  case h_1 =>
    refine h.of_le (refl_of SameReserved _) fun w r => ?_
    have moved := sum_map_set (f := pendingCost w r) (b := ⟨pending, some next.snapshot⟩) busy
    have same : pendingCost w r ⟨pending, some next.snapshot⟩ = pendingCost w r ⟨pending, none⟩ :=
      rfl
    have window : minuteWindow now = next.windowStart := inWindow next (by rw [busy]; rfl)
    simp only [chargedCost, startedCost_cons, window]
    rw [pendingCost_cons] at moved
    omega

lemma charged_finish {n : ℕ} {outcome : ProviderOutcome} {births : ChildSlot → Birth}
    {clock : Clock} (h : Accounted cfg s) : Accounted cfg (s.finish cfg text n outcome births clock) := by
  unfold Fleet.finish
  split
  case h_2 => exact h
  case h_1 pending snapshot busy =>
  split
  case h_2 => exact h.of_le (refl_of SameReserved _) fun w r => add_le_add_right sum_set_idle _
  case h_1 db ended =>
    obtain ⟨_, ended⟩ := attempt_eq_ok.1 ended
    refine h.of_le (reserved_conclude.of_ok ended) fun w r => ?_
    have moved := sum_map_set (f := pendingCost w r) (b := ⟨pending, none⟩) busy
    have same : pendingCost w r ⟨pending, some snapshot⟩ = pendingCost w r ⟨pending, none⟩ := rfl
    simp only [chargedCost]
    omega

/-- Every step in its window is accounted for. -/
lemma charged_step {a : FleetAction} (h : Accounted cfg s) (inWindow : InWindow s a) :
    Accounted cfg (s.step cfg text fromisoformat a) := by
  cases a with
  | claim => exact charged_claim h
  | start => exact charged_start h inWindow
  | finish => exact charged_finish h
  | crash => exact h.of_le (refl_of SameReserved _) fun w r => add_le_add_right sum_set_idle _
  | elsewhere => exact h.of_le (.of_usage rfl) fun _ _ => le_refl _

/-- As long as every call starts in the window that its reservation was charged to, no window has more
calls, or more reserved tokens, than the provider allows. -/
theorem provider_limited {db : Db} {workers : ℕ} {as : List FleetAction}
    (run : Run (Fleet.step cfg text fromisoformat) InWindow (.init db workers) as s) :
    Limited cfg s :=
  (@Run.invariant _ _ _ _ _ _ _ (Accounted cfg) run .init fun _ _ => charged_step).limited

/-! ### Eight calls -/

/-- Eight customers have an interaction each, with an analysis of the largest estimate. -/
def eightAnalyses : Db :=
  let ids : List UUID := [1, 2, 3, 4, 5, 6, 7, 8]
  let rows := ids.map fun n => { NewJob.plain n .llmAnalysis with
    interactionId := n, customerId := n, tokenEstimate := settings.llmMaxPromptTokens }
  { (World.ofInteraction .plain).db with
    interactions := ⟨ids.map fun n => { Interaction.plain with id := n, customerId := n },
      by decide +kernel, by decide +kernel⟩
    queue := (Queue.empty.addAll? (rows.map (·.row settings))).getD .empty }

/-- Each of eight workers claims one job, the last one a second later, in the next minute; then each of
them starts its call, the first seven at this time. -/
def eightCalls (started : Time) : List FleetAction :=
  let now (n : ℕ) : Time := if n < 7 then seconds 59 else seconds 60
  ((List.range 8).map fun n =>
    .claim n "worker" 1 (.at (now n)) (.at (now n)) fun _ _ => now n) ++
  (List.range 8).map fun n => .start n (if n < 7 then started else seconds 60)

def eightWorkers (started : Time) : Fleet :=
  (eightCalls started).foldl (Fleet.step settings .plain fun _ => .ok 0) (.init eightAnalyses 8)

theorem provider_limited_plain :
    (callsIn 0 (eightWorkers (seconds 59)).calls).length = 7 ∧
      Limited settings (eightWorkers (seconds 59)) :=
  ⟨by decide +kernel, provider_limited (Run.of_checked (by decide +kernel))⟩

/-- The first seven calls start in the minute after the one they were charged to. -/
theorem not_limited : ¬ ∀ (db : Db) (workers : ℕ) (as : List FleetAction),
    Limited settings
      (as.foldl (Fleet.step settings .plain fun _ => .ok 0) (.init db workers)) := by
  intro h
  obtain ⟨_, tokens⟩ := h eightAnalyses 8 (eightCalls (seconds 60)) (seconds 60)
  have exceeded : (settings.llmTokensPerMinute : ℤ) <
      ((callsIn (seconds 60) (eightWorkers (seconds 60)).calls).map
        (max ·.snapshot.tokenEstimate 1)).sum := by decide +kernel
  exact absurd tokens (not_le.2 exceeded)

end PostCall.Properties
