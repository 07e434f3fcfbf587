import PostCall.Library.Position
import PostCall.Machine.Envelope
import PostCall.Properties.Admission

/-!
# Billing

The tokens of an answer are added to the ledger in the transaction that completes its job, behind the
check that the row of the job is running. An answer is missed, with the tokens that it took, if it
finds the row not running, since the job was recovered meanwhile or another worker has completed it,
or if `analyze_call` raises on it. What a customer is charged is the sum of its answers exactly if the
missed ones took none.
-/

namespace PostCall.Properties
open PostCall.Library PostCall.Python PostCall.Model PostCall.Machine LLMWorkerService

/-- An answer of the provider to a call for a customer's job: whether the row of the job was running
when it was processed, and whether the client made an analysis of it. -/
structure Payment where
  customerId : UUID
  tokens : Number
  running : Bool
  analysed : Bool

/-- The answer of a job that is running, of which an analysis was made. -/
def Payment.kept (p : Payment) : Bool := p.running && p.analysed

/-- The workers, and the answers that they have processed, newest first. -/
structure Bill where
  fleet : Fleet
  payments : List Payment

/-- A call ends, with what the client makes of what comes back, or something else happens. -/
inductive BillAction where
  | call (n : ℕ) (prompt : String) (post : LLMRequest → HttpAnswer) (births : ChildSlot → Birth)
      (clock : Clock)
  | other (a : FleetAction)

/-- The action of the workers. -/
def BillAction.action (cfg : Settings) (client : LLMClient) : BillAction → FleetAction
  | .call n prompt post births clock => .finish n (client.analyzeCall cfg post prompt) births clock
  | .other a => a

namespace Bill

/-- Idle workers. -/
def init (db : Db) (workers : ℕ) : Bill := ⟨.init db workers, []⟩

/-- The answer that an action processes. -/
def payment? (cfg : Settings) (client : LLMClient) (s : Bill) : BillAction → Option Payment
  | .call n prompt post _ _ =>
    match s.fleet.workers[n]? with
    | some ⟨_, some snapshot⟩ =>
      if providerAnswered client cfg post prompt then
        some {
          customerId := snapshot.customerId
          tokens := metered client cfg post prompt
          running := isRunning s.fleet.db snapshot.id
          analysed := gaveAnalysis (client.analyzeCall cfg post prompt) }
      else none
    | _ => none
  | .other _ => none

/-- One action. -/
def step (cfg : Settings) (text : Text) (fromisoformat : String → Except PyError Time)
    (client : LLMClient) (s : Bill) (a : BillAction) : Bill :=
  ⟨s.fleet.step cfg text fromisoformat (a.action cfg client),
    (s.payment? cfg client a).toList ++ s.payments⟩

end Bill

variable {cfg : Settings} {text : Text} {fromisoformat : String → Except PyError Time}
  {client : LLMClient} {s : Bill} {a : BillAction} {customer : UUID}

/-- No worker crashes and no transaction aborts, and it is the client that ends the calls. -/
def Commits (cfg : Settings) (text : Text) (client : LLMClient) (s : Bill) : BillAction → Prop
  | .call n prompt post births clock => ∀ worker ∈ s.fleet.workers[n]?, ∀ snapshot ∈ worker.calling,
    (attempt (Tx.conclude cfg clock snapshot.id (processSnapshot cfg text births clock snapshot
      (client.analyzeCall cfg post prompt))) s.fleet.db).isOk
  | .other (.claim _ workerId limit recovery query clock) =>
    (commit (claimAdmittedJobs cfg workerId limit recovery query clock) s.fleet.db).isSome
  | .other (.finish ..) | .other (.crash _) => False
  | .other (.start ..) | .other (.elsewhere _) => True

/-- The answer, if there is one, counts its tokens in a whole number. -/
def CountsWhole (cfg : Settings) (client : LLMClient) : BillAction → Prop
  | .call _ prompt post _ _ => (metered client cfg post prompt).Whole
  | .other _ => True

/-- The tokens that are on the account of a customer, over all windows. -/
def usedTokens (t : UsageTable) (customer : UUID) : ℤ :=
  total t customer (fun _ => True) .usedTokens

/-- The sum of the tokens of these answers. -/
def tokensOf (payments : List Payment) : ℚ := (payments.map (·.tokens.val)).sum

/-- The customer is charged the tokens of all answers to its calls. -/
def Billed (s : Bill) (customer : UUID) : Prop :=
  usedTokens s.fleet.db.usage customer = tokensOf (s.payments.filter (·.customerId = customer))

/-- The tokens of the answers to its calls that found the row of their job not running, or of which no
analysis was made. -/
def missed (s : Bill) (customer : UUID) : ℚ :=
  tokensOf (s.payments.filter fun p => p.customerId = customer ∧ ¬ p.kept)

/-- The tokens that its row has as the row of the platform: those of all other answers, if the customer
carries the reserved id. -/
def shared (s : Bill) (customer : UUID) : ℚ :=
  if customer = GLOBAL_RATE_LIMIT_ID then tokensOf (s.payments.filter (·.kept)) else 0

/-- The ledger has what the answers took that were kept. -/
structure Tallied (s : Bill) : Prop where
  inRange : InRange s.fleet.db.usage
  tokens : ∀ customer, (usedTokens s.fleet.db.usage customer : ℚ) =
    ((s.payments.filter (·.kept)).map fun p =>
      (share customer p.customerId : ℚ) * p.tokens.val).sum

/-! ### What an action does to the ledger -/

/-- A charge of a whole number of tokens. -/
lemma usedTokens_of_charged {t t' : UsageTable} {c : UUID} {windowStart : Time} {tokens : Number}
    (charged : Debited t t' c windowStart tokens) (whole : tokens.Whole) (inRange : InRange t) :
    (usedTokens t' customer : ℚ) = usedTokens t customer + share customer c * tokens.val := by
  have raised : total t' customer (fun _ => True) .usedTokens =
      total t customer (fun _ => True) .usedTokens +
        if True then share customer c * used tokens.trunc .usedTokens else 0 :=
    total_of_counter (charged.counter inRange fun _ => whole)
  rw [if_pos trivial] at raised
  unfold usedTokens
  rw [raised, ← whole]
  push_cast
  rfl

/-- A claim reserves tokens, and uses none. -/
lemma usedTokens_of_settled {clock : UUID → Clock} {db : Db} {t t' : UsageTable}
    {jobs : List InteractionJob} {snapshots : List ClaimedLLMJob}
    (settled : Settled cfg clock db t jobs snapshots t') (inRange : InRange t) :
    InRange t' ∧ ∀ customer, usedTokens t' customer = usedTokens t customer := by
  induction settled with
  | nil => exact ⟨inRange, fun _ => rfl⟩
  | admitted admitted allowed _ _ _ ih =>
    obtain ⟨inRange, rest⟩ := ih (inRange_reserve admitted inRange)
    refine ⟨inRange, fun customer => (rest customer).trans (total_of_same fun k => ?_)⟩
    rw [counter_of_allowed admitted allowed]
    simp [reserved]
  | deferred admitted refused _ _ _ _ ih =>
    obtain ⟨inRange, rest⟩ := ih (inRange_reserve admitted inRange)
    refine ⟨inRange, fun customer => (rest customer).trans (total_of_same fun k => ?_)⟩
    rw [counter_of_refused admitted (Bool.eq_false_iff.2 refused)]

/-- An action that leaves the ledger alone and processes no answer that is kept. -/
lemma Tallied.of_same {s' : Bill} (h : Tallied s) (usage : s'.fleet.db.usage = s.fleet.db.usage)
    (payments : s'.payments.filter (·.kept) = s.payments.filter (·.kept)) : Tallied s' := by
  refine ⟨usage ▸ h.inRange, fun customer => ?_⟩
  rw [usage, payments, h.tokens]

/-- A worker claims a batch. -/
lemma tallied_claim {n : ℕ} {workerId : String} {limit : ℕ} {recovery : RecoveryClock}
    {query : ClaimQuery} {clock : UUID → Clock} (h : Tallied s) :
    Tallied (s.step cfg text fromisoformat client
      (.other (.claim n workerId limit recovery query clock))) := by
  simp only [Bill.step, BillAction.action, Fleet.step, Fleet.claim]
  split
  case h_2 => exact h.of_same rfl rfl
  case h_1 =>
    split
    case h_2 => exact h.of_same rfl rfl
    case h_1 admitted db committed =>
      have settled := settled_of_claim (commit_eq_some.1 committed)
      obtain ⟨inRange, same⟩ := usedTokens_of_settled settled h.inRange
      refine ⟨inRange, fun customer => ?_⟩
      rw [same]
      exact h.tokens customer

/-- The report of a call charges the answer if it is kept, and nothing otherwise. -/
lemma usage_of_call {prompt : String} {post : LLMRequest → HttpAnswer} {db db' : Db}
    {births : ChildSlot → Birth} {clock : Clock} {snapshot : ClaimedLLMJob} {u : Unit}
    (ran : Tx.conclude cfg clock snapshot.id (processSnapshot cfg text births clock snapshot
      (client.analyzeCall cfg post prompt)) db = .ok u db') :
    if isRunning db snapshot.id && gaveAnalysis (client.analyzeCall cfg post prompt) then
      Debited db.usage db'.usage snapshot.customerId (minuteWindow (clock 1))
        (metered client cfg post prompt)
    else SameUsage db db' := by
  cases outcome : client.analyzeCall cfg post prompt with
  | returns response =>
    rw [outcome] at ran
    have ⟨isOk, cost⟩ := costs_of_returns outcome
    have recorded := usage_of_response ran
    simpa only [isOk, cost, and_true, gaveAnalysis, Bool.and_true] using recorded
  | rateLimited message retryAfter =>
    rw [outcome] at ran
    simpa [gaveAnalysis] using (usage_of_outcome (by simp)).of_ok ran
  | raises e =>
    rw [outcome] at ran
    simpa [gaveAnalysis] using (usage_of_outcome (by simp)).of_ok ran

/-- A call ends. -/
lemma tallied_call {n : ℕ} {prompt : String} {post : LLMRequest → HttpAnswer}
    {births : ChildSlot → Birth} {clock : Clock} (h : Tallied s)
    (commits : Commits cfg text client s (.call n prompt post births clock))
    (whole : (metered client cfg post prompt).Whole) :
    Tallied (s.step cfg text fromisoformat client (.call n prompt post births clock)) := by
  by_cases busy : ∃ pending snapshot, s.fleet.workers[n]? = some ⟨pending, some snapshot⟩
  case neg =>
    have silent : s.payment? cfg client (.call n prompt post births clock) = none := by
      unfold Bill.payment?
      simp only
      split
      case h_1 pending snapshot e => exact absurd ⟨pending, snapshot, e⟩ busy
      case h_2 => rfl
    simp only [Bill.step, BillAction.action, Fleet.step, Fleet.finish_of_idle busy, silent]
    exact h.of_same rfl rfl
  case pos =>
    obtain ⟨pending, snapshot, busy⟩ := busy
    have committed := commits _ busy snapshot rfl
    cases ended : attempt (Tx.conclude cfg clock snapshot.id
        (processSnapshot cfg text births clock snapshot (client.analyzeCall cfg post prompt)))
        s.fleet.db with
    | error e =>
      rw [ended] at committed
      cases committed
    | ok db =>
      obtain ⟨_, ran⟩ := attempt_eq_ok.1 ended
      have usage := usage_of_call ran
      simp only [Bill.step, BillAction.action, Fleet.step, Fleet.finish, Bill.payment?, busy, ended]
      cases kept : isRunning s.fleet.db snapshot.id &&
          gaveAnalysis (client.analyzeCall cfg post prompt) with
      | false =>
        rw [kept] at usage
        refine h.of_same (usage : db.usage = s.fleet.db.usage) ?_
        split
        case isTrue => simp [Payment.kept, kept]
        case isFalse => rfl
      | true =>
        rw [kept, if_pos rfl] at usage
        have given : providerAnswered client cfg post prompt := by
          cases outcome : client.analyzeCall cfg post prompt with
          | returns response => exact providerAnswered_of_returns outcome
          | rateLimited => simp [outcome, gaveAnalysis] at kept
          | raises => simp [outcome, gaveAnalysis] at kept
        refine ⟨usage.inRange, fun customer => ?_⟩
        rw [if_pos given, Option.toList_some, List.singleton_append,
          List.filter_cons_of_pos (by exact kept), List.map_cons, List.sum_cons,
          usedTokens_of_charged usage whole h.inRange, h.tokens, add_comm]

/-- Without crashes and aborts, every action keeps the ledger at what the kept answers took. -/
lemma tallied_step (h : Tallied s) (commits : Commits cfg text client s a)
    (whole : CountsWhole cfg client a) : Tallied (s.step cfg text fromisoformat client a) := by
  cases a with
  | call => exact tallied_call h commits whole
  | other a =>
    cases a with
    | claim => exact tallied_claim h
    | start n now =>
      refine h.of_same ?_ rfl
      simp only [Bill.step, BillAction.action, Fleet.step, Fleet.start]
      split
      · split <;> rfl
      · rfl
    | finish => exact commits.elim
    | crash => exact commits.elim
    | elsewhere => exact h.of_same rfl rfl

/-! ### The tokens of a customer -/

/-- What the ledger has is what all answers of the customer took, less the missed ones, and what it has
as the platform. -/
lemma Tallied.balance (h : Tallied s) :
    (usedTokens s.fleet.db.usage customer : ℚ) + missed s customer =
      tokensOf (s.payments.filter (·.customerId = customer)) + shared s customer := by
  rw [h.tokens customer, missed, shared]
  unfold tokensOf
  induction s.payments with
  | nil => simp
  | cons p ps ih =>
    simp only [sum_map_filter_cons, decide_eq_true_eq]
    have each : (if p.kept then (share customer p.customerId : ℚ) * p.tokens.val else 0) +
        (if p.customerId = customer ∧ ¬ p.kept then p.tokens.val else 0) =
        (if p.customerId = customer then p.tokens.val else 0) +
          if customer = GLOBAL_RATE_LIMIT_ID then if p.kept then p.tokens.val else 0 else 0 := by
      unfold share
      by_cases kept : p.kept = true <;> by_cases own : p.customerId = customer <;>
        simp [kept, own, add_mul, eq_comm, add_comm]
    by_cases platform : customer = GLOBAL_RATE_LIMIT_ID
    · rw [if_pos platform] at ih each ⊢
      linarith
    · rw [if_neg platform] at ih each ⊢
      linarith

/-- In a run without crashes and aborts whose answers count whole tokens, a customer is charged the
tokens of all answers to its calls exactly if the missed ones took no tokens together; for the reserved
id, exactly if they took what is on the row of the platform. -/
theorem billed_iff_missed {db : Db} {workers : ℕ} {as : List BillAction}
    (run : Run (Bill.step cfg text fromisoformat client) (Commits cfg text client)
      (.init db workers) as s)
    (whole : ∀ a ∈ as, CountsWhole cfg client a) :
    ∀ customer, Billed s customer ↔ missed s customer = shared s customer := by
  have kept : Tallied s := by
    refine (run.of_forall_mem whole).invariant ⟨fun _ mem => ?_, fun _ => rfl⟩
      fun s a h ok => tallied_step h ok.1 ok.2
    exact (List.not_mem_nil mem).elim
  intro customer
  have balance := @Tallied.balance s customer kept
  unfold Billed
  constructor
  · intro billed
    linarith
  · intro same
    linarith

/-! ### A retry, and two workers -/

instance : Decidable (Commits cfg text client s a) := match a with
  | .call n prompt post births clock => inferInstanceAs (Decidable
      (∀ worker ∈ s.fleet.workers[n]?, ∀ snapshot ∈ worker.calling,
        (attempt (Tx.conclude cfg clock snapshot.id (processSnapshot cfg text births clock snapshot
          (client.analyzeCall cfg post prompt))) s.fleet.db).isOk = true))
  | .other (.claim _ workerId limit recovery query clock) => inferInstanceAs (Decidable
      ((commit (claimAdmittedJobs cfg workerId limit recovery query clock) s.fleet.db).isSome = true))
  | .other (.finish ..) | .other (.crash _) => instDecidableFalse
  | .other (.start ..) | .other (.elsewhere _) => instDecidableTrue

instance : DecidablePred (CountsWhole cfg client) := fun a => match a with
  | .call _ prompt post _ _ => inferInstanceAs (Decidable (metered client cfg post prompt).Whole)
  | .other _ => instDecidableTrue

/-- One interaction, with an analysis to do. -/
def oneAnalysis : Db :=
  { (World.ofInteraction .plain).db with
    queue := (Queue.empty.addAll? [(NewJob.plain 1 .llmAnalysis).row settings]).getD .empty }

/-- A client that reads every content as an empty object. -/
def readingClient : LLMClient := ⟨"key", fun _ => .value (.dict [])⟩

/-- The provider answers with a message of this content, which took so many tokens. -/
def answerOf (content : Json) (tokens : ℤ) (_ : LLMRequest) : HttpAnswer := .response {
  statusCode := 200
  retryAfter := none
  statusError := ""
  json := .ok (.dict [
    ("choices", .list [.dict [("message", .dict [("content", content)])]]),
    ("usage", .dict [("total_tokens", .int tokens)])]) }

/-- The first answer has no text, and is free; the job is tried again. -/
def analysedAgain : List BillAction := [
  .other (.claim 0 "worker" 1 (.at 0) (.at 0) fun _ _ => 0),
  .other (.start 0 0),
  .call 0 "" (answerOf .null 0) .plain fun _ => seconds 10,
  .other (.claim 0 "worker" 1 (.at (seconds 900)) (.at (seconds 900)) fun _ _ => seconds 900),
  .other (.start 0 (seconds 900)),
  .call 0 "" (answerOf (.str "\x7b\x7d") 1500) .plain fun _ => seconds 910]

/-- The workers after these actions. -/
def billOf (as : List BillAction) : Bill :=
  as.foldl (Bill.step settings .plain (fun _ => .ok 0) readingClient) (.init oneAnalysis 2)

/-- A retry after an answer that was paid for: the second one is kept. -/
theorem billed_iff_missed_plain :
    (billOf analysedAgain).payments.map (·.kept) = [true, false] ∧
      usedTokens (billOf analysedAgain).fleet.db.usage 1 = 1500 ∧ Billed (billOf analysedAgain) 1 := by
  have run : Run (Bill.step settings .plain (fun _ => .ok 0) readingClient)
      (Commits settings .plain readingClient) (.init oneAnalysis 2) analysedAgain
      (billOf analysedAgain) := Run.of_checked (by decide +kernel)
  exact ⟨by decide +kernel, by decide +kernel,
    (billed_iff_missed run (by decide +kernel) 1).2 (by decide +kernel)⟩

/-- A call takes longer than the lock of its job: another worker claims the job and calls the provider
as well, and both get an answer. -/
def analysedTwice : List BillAction := [
  .other (.claim 0 "slow" 1 (.at 0) (.at 0) fun _ _ => 0),
  .other (.start 0 0),
  .other (.claim 1 "worker" 1 (.at (seconds 301)) (.at (seconds 301)) fun _ _ => seconds 301),
  .other (.start 1 (seconds 301)),
  .call 0 "" (answerOf (.str "\x7b\x7d") 1500) .plain fun _ => seconds 302,
  .call 1 "" (answerOf (.str "\x7b\x7d") 1600) .plain fun _ => seconds 310]

/-- The first answer completes the job, and the tokens of the second are not charged. -/
theorem not_billed : ¬ ∀ (cfg : Settings) (text : Text)
    (fromisoformat : String → Except PyError Time) (client : LLMClient) (db : Db) (workers : ℕ)
    (as : List BillAction) (s : Bill),
    Run (Bill.step cfg text fromisoformat client) (Commits cfg text client) (.init db workers) as s →
    ∀ customer, customer ≠ GLOBAL_RATE_LIMIT_ID → Billed s customer := by
  intro billed
  have run : Run (Bill.step settings .plain (fun _ => .ok 0) readingClient)
      (Commits settings .plain readingClient) (.init oneAnalysis 2) analysedTwice
      (billOf analysedTwice) := Run.of_checked (by decide +kernel)
  have charged : usedTokens (billOf analysedTwice).fleet.db.usage 1 = 1500 ∧
      tokensOf ((billOf analysedTwice).payments.filter (·.customerId = 1)) = 3100 := by
    decide +kernel
  have same := billed _ _ _ _ _ _ _ _ run 1 (by decide)
  rw [Billed, charged.1, charged.2] at same
  exact absurd same (by norm_num)

end PostCall.Properties
