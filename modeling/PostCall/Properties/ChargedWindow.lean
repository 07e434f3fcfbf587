import Mathlib.Algebra.Order.BigOperators.Group.List
import PostCall.Library.Position
import PostCall.Properties.Billing

/-!
# The window that is charged

A request is reserved in the window of its claim, and counted as used in the window in which its
response is recorded. So a row may have more requests used than reserved; over a set of windows there
are not more, as long as what is recorded in these windows was reserved in them.
-/

namespace PostCall.Properties
open PostCall.Library PostCall.Python PostCall.Model PostCall.Machine LLMWorkerService

variable {cfg : Settings} {text : Text} {fromisoformat : String → Except PyError Time}
  {s : Account} {customer : UUID}

/-! ### What an action does -/

/-- What the ledger has of the analysis that the call reserved with `next` gave. -/
structure Debits (t t' : UsageTable) (next : Reservation) (response : Response) : Prop where
  customerId : response.customerId = next.snapshot.customerId
  reservedIn : response.reservedIn = next.windowStart
  usage : if response.recorded then
    ∃ tokens, Debited t t' response.customerId response.processedIn tokens else t' = t

/-- What an action does to the account: it processes the outcome of a call, or claims a batch for a
worker that holds nothing, or at most lets a worker drop what it holds. -/
inductive Posted (cfg : Settings) (s : Account) : Account → Prop where
  | silent {s'} :
    s'.fleet.db.usage = s.fleet.db.usage →
    s'.held = s.held ∨ (∃ n, s'.held = s.held.set n []) →
    s'.responses = s.responses →
    Posted cfg s s'
  | claimed {s' n clock db jobs snapshots} :
    s.held[n]? = some [] →
    Settled cfg clock db s.fleet.db.usage jobs snapshots s'.fleet.db.usage →
    s'.held = s.held.set n (Fleet.reservations clock snapshots) →
    s'.responses = s.responses →
    Posted cfg s s'
  | failed {s' n next pending left} :
    s.held[n]? = some (next :: pending) →
    left = pending ∨ left = [] →
    s'.fleet.db.usage = s.fleet.db.usage →
    s'.held = s.held.set n left →
    s'.responses = s.responses →
    Posted cfg s s'
  | answered {s' n next pending left response} :
    s.held[n]? = some (next :: pending) →
    left = pending ∨ left = [] →
    Debits s.fleet.db.usage s'.fleet.db.usage next response →
    s'.held = s.held.set n left →
    s'.responses = response :: s.responses →
    Posted cfg s s'

section Step

variable {n : ℕ}

/-- Where nothing is booked, the workers only regroup what they hold. -/
lemma posted_same (linked : Linked s) :
    Posted cfg s ⟨s.fleet, List.zipWith regroup s.fleet.workers s.held, s.responses⟩ ∧
      Linked ⟨s.fleet, List.zipWith regroup s.fleet.workers s.held, s.responses⟩ := by
  rw [zipWith_regroup linked]
  exact ⟨.silent rfl (.inl rfl) rfl, linked⟩

/-- A worker drops what it holds. -/
lemma posted_idle (linked : Linked s) :
    Posted cfg s ⟨{ s.fleet with workers := s.fleet.workers.set n .idle },
        List.zipWith regroup (s.fleet.workers.set n .idle) s.held, s.responses⟩ ∧
      Linked ⟨{ s.fleet with workers := s.fleet.workers.set n .idle },
        List.zipWith regroup (s.fleet.workers.set n .idle) s.held, s.responses⟩ := by
  cases at' : s.fleet.workers[n]? with
  | none =>
    rw [List.set_eq_of_length_le (List.getElem?_eq_none_iff.1 at')]
    exact posted_same linked
  | some worker =>
    obtain ⟨old, hn, _⟩ := heldBy_of_getElem? linked at'
    simp only [zipWith_regroup_set linked hn]
    exact ⟨.silent rfl (.inr ⟨n, rfl⟩) rfl, linked_set linked .waiting⟩

lemma posted_claim {workerId : String} {limit : ℕ} {recovery : RecoveryClock} {query : ClaimQuery}
    {clock : UUID → Clock} (linked : Linked s) :
    Posted cfg s (s.step cfg text fromisoformat (.claim n workerId limit recovery query clock)) ∧
      Linked (s.step cfg text fromisoformat (.claim n workerId limit recovery query clock)) := by
  simp only [Account.step, Fleet.step, Fleet.claim]
  split
  case h_2 => exact posted_same linked
  case h_1 idle =>
  split
  case h_2 => exact posted_same linked
  case h_1 admitted db committed =>
    obtain ⟨old, hn, of⟩ := heldBy_of_getElem? linked idle
    cases of
    simp only [zipWith_regroup_set linked hn]
    exact ⟨.claimed hn (settled_of_claim (commit_eq_some.1 committed)) rfl rfl,
      linked_set linked .waiting⟩

/-- A start takes the next job from what is held. -/
lemma posted_start {now : Time} (linked : Linked s) :
    Posted cfg s (s.step cfg text fromisoformat (.start n now)) ∧
      Linked (s.step cfg text fromisoformat (.start n now)) := by
  simp only [Account.step, Fleet.step, Fleet.start]
  split
  case h_2 => exact posted_same linked
  case h_1 next pending waiting =>
  split
  case h_2 => exact posted_idle linked
  case h_1 =>
    obtain ⟨old, hn, of⟩ := heldBy_of_getElem? linked waiting
    cases of
    simp only [zipWith_regroup_set linked hn]
    -- the reservation is held on to while the call goes on
    have same : s.held.set n (next :: pending) = s.held := by
      obtain ⟨inside, e⟩ := List.getElem?_eq_some_iff.1 hn
      exact e ▸ List.set_getElem_self inside
    have linked' := linked_set (n := n) linked (@HeldBy.calling pending next.snapshot next.windowStart)
    exact ⟨.silent rfl (.inl same) rfl, linked'⟩

/-- The outcome of a call is processed, whether its transaction commits or aborts. -/
lemma posted_finish {outcome : ProviderOutcome} {births : ChildSlot → Birth} {clock : Clock}
    (linked : Linked s) :
    Posted cfg s (s.step cfg text fromisoformat (.finish n outcome births clock)) ∧
      Linked (s.step cfg text fromisoformat (.finish n outcome births clock)) := by
  by_cases busy : ∃ pending snapshot, s.fleet.workers[n]? = some ⟨pending, some snapshot⟩
  case neg =>
    have silent : s.response? cfg text (.finish n outcome births clock) = none := by
      cases outcome with
      | returns response =>
        simp only [Account.response?]
        split
        case h_1 pending snapshot _ _ e _ => exact absurd ⟨_, _, e⟩ busy
        case h_2 => rfl
      | _ => rfl
    simp only [Account.step, Fleet.step, Fleet.finish_of_idle busy, silent]
    exact posted_same linked
  case pos =>
    obtain ⟨pending, snapshot, busy⟩ := busy
    obtain ⟨old, hn, of⟩ := heldBy_of_getElem? linked busy
    cases of
    case calling windowStart =>
    cases ended : attempt (Tx.conclude cfg clock snapshot.id
        (processSnapshot cfg text births clock snapshot outcome)) s.fleet.db with
    | ok db =>
      obtain ⟨_, ran⟩ := attempt_eq_ok.1 ended
      simp only [Account.step, Fleet.step, Fleet.finish, busy, ended, zipWith_regroup_set linked hn]
      refine ⟨?_, linked_set linked .waiting⟩
      cases outcome with
      | returns response =>
        have recorded := usage_of_response ran
        simp only [Account.response?, busy, hn, ended]
        refine .answered hn (.inl rfl) ⟨rfl, rfl, ?_⟩ rfl rfl
        by_cases both : isRunning s.fleet.db snapshot.id ∧ (parseResponse cfg response).isOk
        · rw [if_pos both] at recorded
          rw [if_pos (by rw [both.1, both.2]; rfl)]
          exact ⟨_, recorded⟩
        · rw [if_neg both] at recorded
          rwa [if_neg fun h => both (by simp only [Bool.and_eq_true] at h; exact h.1)]
      | rateLimited => exact .failed hn (.inl rfl) ((usage_of_outcome (by simp)).of_ok ran) rfl rfl
      | raises => exact .failed hn (.inl rfl) ((usage_of_outcome (by simp)).of_ok ran) rfl rfl
    | error e =>
      simp only [Account.step, Fleet.step, Fleet.finish, busy, ended, zipWith_regroup_set linked hn]
      refine ⟨?_, linked_set linked .waiting⟩
      cases outcome with
      | returns response =>
        simp only [Account.response?, busy, hn, ended]
        refine .answered hn (.inr rfl) ⟨rfl, rfl, ?_⟩ rfl rfl
        simp [Except.isOk, Except.toBool]
      | rateLimited => exact .failed hn (.inr rfl) rfl rfl rfl
      | raises => exact .failed hn (.inr rfl) rfl rfl rfl

/-- What one action does to the account. -/
theorem posted_step {a : FleetAction} (linked : Linked s) :
    Posted cfg s (s.step cfg text fromisoformat a) ∧
      Linked (s.step cfg text fromisoformat a) := by
  cases a with
  | claim => exact posted_claim linked
  | start => exact posted_start linked
  | finish => exact posted_finish linked
  | crash => exact posted_idle linked
  | elsewhere db =>
    simp only [Account.step, Fleet.step, zipWith_regroup linked]
    exact ⟨.silent rfl (.inl rfl) rfl, linked⟩

lemma linked_init {db : Db} {workers : ℕ} : Linked (.init db workers) := by
  unfold Linked Account.init Fleet.init
  induction workers with
  | zero => exact .nil
  | succ workers ih => exact .cons .waiting ih

end Step

/-! ### The requests of a customer -/

variable {s' : Account} {within : Time → Prop} [DecidablePred within]

/-- What is recorded in these windows was reserved in them. -/
def ReservedWithin (within : Time → Prop) (s : Account) : Prop :=
  ∀ r ∈ s.responses, r.recorded → within r.processedIn → within r.reservedIn

/-- The requests on the rows of a customer that wait for an answer, of those that were reserved in
these windows. -/
def due (within : Time → Prop) [DecidablePred within] (customer : UUID) (held : List Reservation) : ℤ :=
  ((held.filter (within ·.windowStart)).map (share customer ·.snapshot.customerId)).sum

/-- Every request that is used was reserved, and is not waiting for an answer. -/
def Backed (within : Time → Prop) [DecidablePred within] (s : Account) : Prop :=
  ReservedWithin within s → ∀ customer,
    total s.fleet.db.usage customer within .requestsUsed + (s.held.map (due within customer)).sum ≤
      total s.fleet.db.usage customer within .requestsReserved

lemma due_nil : due within customer [] = 0 := rfl

lemma due_cons {next : Reservation} {pending : List Reservation} :
    due within customer (next :: pending) =
      (if within next.windowStart then share customer next.snapshot.customerId else 0) +
        due within customer pending := by
  unfold due
  simp only [sum_map_filter_cons, decide_eq_true_eq]

lemma due_nonneg {held : List Reservation} : 0 ≤ due within customer held := by
  induction held with
  | nil => exact le_rfl
  | cons next pending ih =>
    rw [due_cons]
    refine add_nonneg ?_ ih
    split
    · exact share_nonneg
    · exact le_rfl

/-- An answer, or the end of a batch, leaves less to wait for. -/
lemma due_left {next : Reservation} {pending left : List Reservation}
    (h : left = pending ∨ left = []) : due within customer left +
      (if within next.windowStart then share customer next.snapshot.customerId else 0) ≤
        due within customer (next :: pending) := by
  rw [due_cons]
  rcases h with rfl | rfl
  · exact (add_comm _ _).le
  · have nonneg : 0 ≤ due within customer pending := due_nonneg
    rw [due_nil]
    omega

/-- A claim reserves what is then waited for, and uses nothing. -/
lemma requests_of_settled {clock : UUID → Clock} {db : Db} {t t' : UsageTable}
    {jobs : List InteractionJob} {snapshots : List ClaimedLLMJob}
    (settled : Settled cfg clock db t jobs snapshots t') :
    total t' customer within .requestsUsed = total t customer within .requestsUsed ∧
      total t' customer within .requestsReserved = total t customer within .requestsReserved +
        due within customer (Fleet.reservations clock snapshots) := by
  induction settled with
  | nil => exact ⟨rfl, (add_zero _).symm⟩
  | @admitted t t₁ t' job jobs snapshots budget result admitted allowed _ _ _ ih =>
    have raised := fun k f => counter_of_allowed admitted allowed k f
    rw [ih.1, ih.2, total_of_counter fun k => raised k .requestsUsed,
      total_of_counter fun k => raised k .requestsReserved]
    refine ⟨by simp [reserved], ?_⟩
    have batch : due within customer
        (Fleet.reservations clock (LLMWorkerService.snapshot job :: snapshots)) =
        (if within (minuteWindow (clock job.id 0)) then share customer job.customerId else 0) +
          due within customer (Fleet.reservations clock snapshots) := due_cons
    rw [batch, ← add_assoc]
    simp only [reserved, mul_one]
  | deferred admitted refused _ _ _ _ ih =>
    have same := fun k f => counter_of_refused admitted (Bool.eq_false_iff.2 refused) k f
    rw [ih.1, ih.2, total_of_same fun k => same k .requestsUsed,
      total_of_same fun k => same k .requestsReserved]
    exact ⟨rfl, rfl⟩

/-- A worker drops what it holds. -/
lemma due_drop {held : List (List Reservation)} {n : ℕ} :
    ((held.set n []).map (due within customer)).sum ≤ (held.map (due within customer)).sum := by
  cases at' : held[n]? with
  | none => rw [List.set_eq_of_length_le (List.getElem?_eq_none_iff.1 at')]
  | some old =>
    have moved := sum_map_set (f := due within customer) (b := []) at'
    have nonneg : 0 ≤ due within customer old := due_nonneg
    rw [due_nil] at moved
    omega

/-- A step keeps the used requests backed by reserved ones. -/
lemma backed_step (posted : Posted cfg s s') (h : Backed within s) : Backed within s' := by
  intro kept customer
  have before : (∀ r ∈ s.responses, r ∈ s'.responses) →
      total s.fleet.db.usage customer within .requestsUsed + (s.held.map (due within customer)).sum ≤
        total s.fleet.db.usage customer within .requestsReserved :=
    fun more => h (fun r mem => kept r (more r mem)) customer
  cases posted with
  | silent same held responses =>
    have before := before fun _ mem => responses ▸ mem
    rw [same]
    rcases held with held | ⟨n, held⟩
    · rwa [held]
    · have less := @due_drop customer within _ s.held n
      rw [held]
      omega
  | @claimed n clock db jobs snapshots idle settled held responses =>
    have before := before fun _ mem => responses ▸ mem
    obtain ⟨used, reserved⟩ := @requests_of_settled cfg customer within _ _ _ _ _ _ _ settled
    have moved := sum_map_set (f := due within customer) (b := Fleet.reservations clock snapshots) idle
    rw [due_nil, add_zero] at moved
    rw [used, reserved, held, moved]
    omega
  | @failed n next pending left at' shorter same held responses =>
    have before := before fun _ mem => responses ▸ mem
    have moved := sum_map_set (f := due within customer) (b := left) at'
    have less := @due_left customer within _ next _ _ shorter
    have nonneg : 0 ≤ share customer next.snapshot.customerId := share_nonneg
    rw [same, held]
    split at less <;> omega
  | @answered n next pending left response at' shorter debits held responses =>
    have before := before fun _ mem => responses ▸ List.mem_cons_of_mem _ mem
    have moved := sum_map_set (f := due within customer) (b := left) at'
    have less := @due_left customer within _ next _ _ shorter
    have nonneg : 0 ≤ share customer next.snapshot.customerId := share_nonneg
    have outcome := debits.usage
    rw [held]
    by_cases recorded : response.recorded
    · rw [if_pos recorded] at outcome
      obtain ⟨tokens, charged⟩ := outcome
      have raised := fun k => charged.recorded.counter_of_ne (f := .requestsUsed) (by simp) k
      have same := fun k => charged.recorded.counter_of_ne (f := .requestsReserved) (by simp) k
      -- if the response is recorded in these windows, it was reserved in them
      have here := kept response (responses ▸ List.mem_cons_self) recorded
      rw [debits.reservedIn] at here
      rw [total_of_counter raised, total_of_counter same, debits.customerId]
      simp only [used, mul_one, mul_zero, ite_self, add_zero]
      split <;> split at less <;> first | omega | exact absurd (here ‹_›) ‹_›
    · rw [if_neg recorded] at outcome
      rw [outcome]
      split at less <;> omega

/-- Over any set of windows in which nothing is recorded that was not reserved there, every customer
has no more requests used than reserved. -/
lemma used_le_reserved {db : Db} {workers : ℕ} {as : List FleetAction}
    (run : Run (Account.step cfg text fromisoformat) anyStep (.init db workers) as s)
    (kept : ReservedWithin within s) : total s.fleet.db.usage customer within .requestsUsed ≤
      total s.fleet.db.usage customer within .requestsReserved := by
  have backed : Linked s ∧ Backed within s := by
    refine run.invariant (I := fun s => Linked s ∧ Backed within s)
      ⟨linked_init, fun _ customer => ?_⟩ fun s a inv _ => ?_
    · have nothing : ((Account.init db workers).held.map (due within customer)).sum = 0 := by
        simp [Account.init, due_nil]
      rw [nothing]
      exact le_rfl
    · obtain ⟨posted, linked⟩ := @posted_step cfg text fromisoformat s a inv.1
      exact ⟨linked, backed_step posted inv.2⟩
  have le := backed.2 kept customer
  have waiting : 0 ≤ (s.held.map (due within customer)).sum := by
    refine List.sum_nonneg fun n mem => ?_
    obtain ⟨held, _, rfl⟩ := List.mem_map.1 mem
    exact due_nonneg
  omega

/-- In every run, a customer, or the platform, has over all windows no more requests used than
reserved; if no response is recorded in an earlier window than it was reserved in, also over all windows
up to any one; and on the row of one window, if what is recorded there was reserved there. -/
theorem requests_reserved {db : Db} {workers : ℕ} {as : List FleetAction}
    (run : Run (Account.step cfg text fromisoformat) anyStep (.init db workers) as s) (customer : UUID) :
    total s.fleet.db.usage customer (fun _ => True) .requestsUsed ≤
        total s.fleet.db.usage customer (fun _ => True) .requestsReserved ∧
      ((∀ r ∈ s.responses, r.recorded → r.reservedIn ≤ r.processedIn) → ∀ windowStart,
        total s.fleet.db.usage customer (· ≤ windowStart) .requestsUsed ≤
          total s.fleet.db.usage customer (· ≤ windowStart) .requestsReserved) ∧
      ∀ windowStart, ReservedWithin (· = windowStart) s →
        counter s.fleet.db.usage (customer, windowStart) .requestsUsed ≤
          counter s.fleet.db.usage (customer, windowStart) .requestsReserved := by
  refine ⟨used_le_reserved run fun _ _ _ _ => trivial, fun forward windowStart => ?_,
    fun windowStart kept => ?_⟩
  · exact used_le_reserved run fun r mem recorded => le_trans (forward r mem recorded)
  · have le : total s.fleet.db.usage customer (· = windowStart) .requestsUsed ≤
        total s.fleet.db.usage customer (· = windowStart) .requestsReserved :=
      used_le_reserved run kept
    rwa [total_window, total_window] at le

/-- The provider answers, and took so many tokens. -/
def providerAnswer (tokens : ℤ) : ProviderOutcome :=
  .returns [("call_stage", .str "unknown"), ("usage", .dict [("total_tokens", .int tokens)])]

/-- The job is claimed and analysed. -/
def analysedOnce : List FleetAction := [
  .claim 0 "worker" 1 (.at 0) (.at 0) fun _ _ => 0,
  .start 0 0,
  .finish 0 (providerAnswer 1500) .plain fun _ => seconds 10]

/-- The workers after these actions. -/
def accountOf (as : List FleetAction) : Account :=
  as.foldl (Account.step settings .plain fun _ => .ok 0) (.init oneAnalysis 2)

/-- The call of `analysedOnce` is reserved and recorded in the first minute. -/
theorem requests_reserved_plain :
    counter (accountOf analysedOnce).fleet.db.usage (1, 0) .requestsUsed ≤
      counter (accountOf analysedOnce).fleet.db.usage (1, 0) .requestsReserved := by
  have run : Run (Account.step settings .plain fun _ => .ok 0) anyStep (.init oneAnalysis 2) analysedOnce
      (accountOf analysedOnce) := .of_foldl _
  refine (requests_reserved run 1).2.2 0 ?_
  unfold ReservedWithin
  decide +kernel

/-- A call that is reserved in one minute and answered in the next. -/
def acrossMinutes : List FleetAction := [
  .claim 0 "worker" 1 (.at (seconds 59)) (.at (seconds 59)) fun _ _ => seconds 59,
  .start 0 (seconds 59),
  .finish 0 (providerAnswer 1500) .plain fun _ => seconds 61]

/-- The row of the second minute has a request used and none reserved. -/
theorem requests_not_reserved : ¬ ∀ (cfg : Settings) (text : Text)
    (fromisoformat : String → Except PyError Time) (db : Db) (workers : ℕ) (as : List FleetAction)
    (k : UUID × Time),
    let s := as.foldl (Account.step cfg text fromisoformat) (.init db workers)
    counter s.fleet.db.usage k .requestsUsed ≤ counter s.fleet.db.usage k .requestsReserved := by
  intro reserved
  have row : counter (accountOf acrossMinutes).fleet.db.usage (1, seconds 60) .requestsUsed = 1 ∧
      counter (accountOf acrossMinutes).fleet.db.usage (1, seconds 60) .requestsReserved = 0 := by
    decide +kernel
  have le := reserved settings .plain (fun _ => .ok 0) oneAnalysis 2 acrossMinutes (1, seconds 60)
  change counter (accountOf acrossMinutes).fleet.db.usage _ _ ≤
    counter (accountOf acrossMinutes).fleet.db.usage _ _ at le
  rw [row.1, row.2] at le
  exact absurd le (by decide)

end PostCall.Properties
