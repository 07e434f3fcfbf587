import PostCall.Machine.Envelope
import PostCall.Properties.Reconciliation

/-!
# What an analysis costs

Over every run the ledger has counted, of the answers of the provider, one request and the tokens of
the envelope for each whose analysis was stored, and nothing else. A row adds a number as Python does:
an integer exactly, and a float with the sum truncated for the column, so that whole numbers add up.
-/

namespace PostCall.Properties
open PostCall.Library PostCall.Python PostCall.Model PostCall.Machine LLMWorkerService

variable {cfg : Settings} {text : Text} {client : LLMClient} {w w₀ : World} {db db' : Db}
  {t t' : UsageTable}

/-! ### What is charged -/

/-- What the ledger counts of an answer. -/
structure Charge where
  customerId : UUID
  windowStart : Time
  tokens : Number

/-- What a counter of a row is after a charge: its tokens are added to the row of the customer and to
that of the platform. -/
def Charge.post (k : UUID × Time) (f : Counter) (n : ℤ) (c : Charge) : ℤ :=
  f.add n (additions c.customerId c.windowStart c.tokens k)

/-- What a charge of a whole number adds to the used tokens of a row. -/
def Charge.on (k : UUID × Time) (c : Charge) : ℤ :=
  (if k = (GLOBAL_RATE_LIMIT_ID, c.windowStart) then c.tokens.trunc else 0) +
    if k = (c.customerId, c.windowStart) then c.tokens.trunc else 0

/-- The client is asked for the analysis of an execution, or something else happens. -/
inductive ClientAction where
  | call (n : ℕ) (prompt : String) (post : LLMRequest → HttpAnswer) (births : ChildSlot → Birth)
      (clock : Clock)
  | other (a : Action)

/-- The action of the system, with the outcome that the client gives. -/
def ClientAction.action (cfg : Settings) (client : LLMClient) : ClientAction → Action
  | call n prompt post births clock =>
    .report n (.analysis (client.analyzeCall cfg post prompt) births) clock
  | other a => a

/-- One action of the system whose provider is the client. -/
def clientStep (cfg : Settings) (text : Text) (client : LLMClient) (w : World) (a : ClientAction) :
    World := World.step cfg text w (a.action cfg client)

/-- Only the client gives analyses. -/
def ByClient (_ : World) (a : ClientAction) : Prop :=
  ∀ n outcome births clock, a ≠ .other (.report n (.analysis outcome births) clock)

/-- The transaction that reports the outcome of a call. -/
def concluding (cfg : Settings) (text : Text) (births : ChildSlot → Birth) (clock : Clock)
    (snapshot : ClaimedLLMJob) (outcome : ProviderOutcome) : Tx Unit :=
  Tx.conclude cfg clock snapshot.id (processSnapshot cfg text births clock snapshot outcome)

/-- What is charged for a step: the metered tokens of a call that gave an analysis, if the job of
the execution was running and the transaction that stores the analysis was committed. -/
def charges (cfg : Settings) (text : Text) (client : LLMClient) (w : World) :
    ClientAction → List Charge
  | .call n prompt post births clock =>
    match w.inflight[n]? with
    | some ⟨.analysis snapshot, _⟩ =>
      let outcome := client.analyzeCall cfg post prompt
      if gaveAnalysis outcome ∧ isRunning w.db snapshot.id ∧
          (commit (concluding cfg text births clock snapshot outcome) w.db).isSome then
        [⟨snapshot.customerId, minuteWindow (clock 1), metered client cfg post prompt⟩]
      else []
    | _ => []
  | .other _ => []

/-- What a step does to the counters of the answers: nothing, or one charge. -/
inductive Counts (t t' : UsageTable) : List Charge → Prop where
  | nothing :
    (∀ k f, f = .usedTokens ∨ f = .requestsUsed → counter t' k f = counter t k f) →
    (InRange t → InRange t') →
    Counts t t' []
  | charge {c : Charge} :
    Debited t t' c.customerId c.windowStart c.tokens →
    Counts t t' [c]

lemma Counts.refl (t : UsageTable) : Counts t t [] := .nothing (fun _ _ _ => rfl) id

/-- The counters are what the charges make of them. -/
lemma Counts.counter {charged : List Charge} (h : Counts t t' charged) (k : UUID × Time)
    {f : Counter} (responds : f = .usedTokens ∨ f = .requestsUsed) :
    Machine.counter t' k f = charged.foldl (Charge.post k f) (Machine.counter t k f) := by
  cases h with
  | nothing same _ => exact same k f responds
  | charge charged => exact charged.recorded k f

/-- Whole charges add up. -/
lemma Counts.whole {charged : List Charge} (h : Counts t t' charged) (inRange : InRange t)
    (whole : ∀ c ∈ charged, c.tokens.Whole) (k : UUID × Time) :
    InRange t' ∧ Machine.counter t' k .usedTokens =
      Machine.counter t k .usedTokens + (charged.map (·.on k)).sum := by
  cases h with
  | nothing same kept => exact ⟨kept inRange, by simpa using same k .usedTokens (.inl rfl)⟩
  | @charge c charged =>
    refine ⟨charged.inRange, ?_⟩
    have raised := charged.counter inRange (f := .usedTokens) (fun _ => whole c (by simp)) k
    rw [raised, List.map_singleton, List.sum_singleton, Charge.on, add_assoc]
    rfl

/-- A reservation is not counted as used. -/
lemma reserved_of_responds {tokens : ℤ} {f : Counter}
    (responds : f = .usedTokens ∨ f = .requestsUsed) : reserved tokens f = 0 := by
  rcases responds with rfl | rfl <;> rfl

/-- The admissions of a claim count nothing as used. -/
lemma counts_admitJobs {clock : UUID → Clock} {jobs : List InteractionJob}
    {admitted : List ClaimedLLMJob} (returned : admitJobs cfg clock jobs db = .ok admitted db') :
    (∀ k f, f = .usedTokens ∨ f = .requestsUsed →
      counter db'.usage k f = counter db.usage k f) ∧ (InRange db.usage → InRange db'.usage) := by
  induction jobs generalizing db admitted with
  | nil =>
    cases returned
    exact ⟨fun _ _ _ => rfl, id⟩
  | cons job jobs ih =>
    obtain ⟨first, s, one, returned⟩ := Program.bind_ok.1 returned
    obtain ⟨others, s', rest, returned⟩ := Program.bind_ok.1 returned
    cases returned
    obtain ⟨later, kept⟩ := ih rest
    obtain ⟨budget, usage, result, booked, outcome⟩ := admitJob_ok one
    have same : s.usage = usage := by
      split at outcome <;> (subst outcome; rfl)
    refine ⟨fun k f responds => (later k f responds).trans ?_, fun inRange => kept ?_⟩
    · rw [same]
      by_cases allowed : result.allowed
      · rw [counter_of_allowed booked allowed, reserved_of_responds responds, ite_self, ite_self,
          add_zero, add_zero]
      · exact counter_of_refused booked (Bool.eq_false_iff.2 allowed) k f
    · rw [same]
      exact inRange_reserve booked inRange

/-- The report of a call charges the tokens of an analysis that it stores, and no others. -/
lemma counts_conclude {snapshot : ClaimedLLMJob} {births : ChildSlot → Birth} {clock : Clock}
    {outcome : ProviderOutcome} {tokens : Number}
    (costs : ∀ response, outcome = .returns response → Costs cfg response tokens) :
    Counts db.usage
      (World.transact db (concluding cfg text births clock snapshot outcome)).usage
      (if gaveAnalysis outcome ∧ isRunning db snapshot.id ∧
          (commit (concluding cfg text births clock snapshot outcome) db).isSome then
        [⟨snapshot.customerId, minuteWindow (clock 1), tokens⟩]
      else []) := by
  unfold World.transact
  cases ended : commit (concluding cfg text births clock snapshot outcome) db with
  | none =>
    rw [if_neg (by simp)]
    exact .refl _
  | some result =>
    obtain ⟨u, db'⟩ := result
    have returned := commit_eq_some.1 ended
    have silent (same : SameUsage db db') : Counts db.usage db'.usage [] := by
      rw [show db'.usage = db.usage from same]
      exact .refl _
    cases outcome with
    | rateLimited message retryAfter =>
      rw [if_neg (by simp [gaveAnalysis])]
      exact silent (usage_of_failure.of_ok returned)
    | raises e =>
      rw [if_neg (by simp [gaveAnalysis])]
      exact silent (usage_of_failure.of_ok returned)
    | returns response =>
      have ⟨isOk, cost⟩ := costs response rfl
      have recorded := usage_of_response returned
      by_cases running : isRunning db snapshot.id
      · rw [if_pos ⟨running, isOk⟩, cost] at recorded
        rw [if_pos ⟨rfl, running, rfl⟩]
        exact .charge recorded
      · rw [if_neg fun h => running h.1] at recorded
        rw [if_neg fun h => running h.2.1]
        exact silent recorded

/-- A step counts what it charges. -/
lemma counts_step {a : ClientAction} (sound : Sound w) (byClient : ByClient w a) :
    Counts w.db.usage (clientStep cfg text client w a).db.usage (charges cfg text client w a) := by
  cases a with
  | other a =>
    cases (stepBooks_step sound : StepBooks cfg text w a _) with
    | nothing quiet =>
      have same : (clientStep cfg text client w (.other a)).db.usage = w.db.usage := quiet.usage
      rw [same]
      exact .refl _
    | admissions returned =>
      rw [claimAdmittedJobs, Program.bind_of_ok recoverStaleRunningJobs_run,
        Program.bind_of_ok claimReadyJobs_run] at returned
      obtain ⟨same, inRange⟩ := counts_admitJobs returned
      exact .nothing same inRange
    | analysis => exact absurd rfl (byClient _ _ _ _)
  | call n prompt post births clock =>
    simp only [clientStep, ClientAction.action, World.step, World.report, charges]
    cases w.inflight[n]? with
    | none => exact .refl _
    | some f =>
      obtain ⟨work, claim⟩ := f
      cases work with
      | recording => exact .refl _
      | result => exact .refl _
      | processed => exact .refl _
      | analysis snapshot => exact counts_conclude fun _ => costs_of_returns

/-- After every run, each counter of the answers, of a customer or of the platform and in any window, is
what the charges have made of it: the analyses that were stored, each with the tokens of the envelope
it came in. If these are whole numbers, the used tokens have grown by their sum. -/
theorem charged_as_metered {as : List ClientAction}
    (run : Run (clientStep cfg text client) ByClient w₀ as w) (idle : w₀.inflight = []) :
    let charged := emitted (clientStep cfg text client) (charges cfg text client) w₀ as
    (∀ k f, f = .usedTokens ∨ f = .requestsUsed →
      counter w.db.usage k f = charged.foldl (Charge.post k f) (counter w₀.db.usage k f)) ∧
    (InRange w₀.db.usage → (∀ c ∈ charged, c.tokens.Whole) → ∀ k,
      counter w.db.usage k .usedTokens =
        counter w₀.db.usage k .usedTokens + (charged.map (·.on k)).sum) := by
  have law : (∀ k f, f = .usedTokens ∨ f = .requestsUsed → counter w.db.usage k f =
        (emitted (clientStep cfg text client) (charges cfg text client) w₀ as).foldl
          (Charge.post k f) (counter w₀.db.usage k f)) ∧
      (InRange w₀.db.usage →
        (∀ c ∈ emitted (clientStep cfg text client) (charges cfg text client) w₀ as,
          c.tokens.Whole) →
        InRange w.db.usage ∧ ∀ k, counter w.db.usage k .usedTokens =
          counter w₀.db.usage k .usedTokens +
            ((emitted (clientStep cfg text client) (charges cfg text client) w₀ as).map
              (·.on k)).sum) := by
    induction run with
    | nil => exact ⟨fun _ _ _ => rfl, fun inRange _ => ⟨inRange, fun _ => (add_zero _).symm⟩⟩
    | snoc run byClient ih =>
      have sound := run.invariant (sound_of_idle idle) fun _ _ sound _ => sound_step sound
      have counts : Counts _ _ (charges cfg text client _ _) := counts_step sound byClient
      rw [run.emitted_snoc]
      refine ⟨fun k f responds => ?_, fun inRange whole => ?_⟩
      · rw [List.foldl_append, ← ih.1 k f responds]
        exact counts.counter k responds
      · obtain ⟨inRange, sums⟩ := ih.2 inRange fun c mem => whole c (List.mem_append_left _ mem)
        have last := counts.whole inRange fun c mem => whole c (List.mem_append_right _ mem)
        refine ⟨(last (0, 0)).1, fun k => ?_⟩
        rw [(last k).2, sums k, List.map_append, List.sum_append, add_assoc]
  exact ⟨law.1, fun inRange whole => (law.2 inRange whole).2⟩

/-- A client whose language model claims to have used nothing. -/
def forging : LLMClient where
  apiKey := "key"
  loads _ := .value (.dict [("summary", .str "free"), ("usage", .dict [("total_tokens", .int 0)])])

/-- A response whose envelope has 1500 tokens. -/
def envelope (_ : LLMRequest) : HttpAnswer := .response {
  statusCode := 200
  retryAfter := none
  statusError := ""
  json := .ok (.dict [
    ("choices", .list [.dict [("message", .dict [("content", .str "free")])]]),
    ("usage", .dict [("total_tokens", .int 1500)])]) }

/-- A job is created, claimed and analysed. -/
def analysedByClient : List ClientAction := [
  .other (.createIfAbsent (.plain 1 .llmAnalysis)),
  .other (.claimAnalyses "worker" 1 (.at 0) (.at 0) fun _ _ => 0),
  .call 0 "" envelope Birth.plain fun _ => seconds 1]

/-- What the model says of its own usage is not charged. -/
theorem charged_as_metered_forged :
    counter (analysedByClient.foldl (clientStep settings .plain forging)
      (.ofInteraction .plain)).db.usage (1, 0) .usedTokens = 0 + 1500 := by
  have run : Run (clientStep settings .plain forging) ByClient (.ofInteraction .plain)
      analysedByClient (analysedByClient.foldl (clientStep settings .plain forging)
        (.ofInteraction .plain)) := by
    refine .cons ?_ (.cons ?_ (.cons ?_ .nil))
    · rintro n outcome births clock ⟨⟩
    · rintro n outcome births clock ⟨⟩
    · rintro n outcome births clock ⟨⟩
  rw [(charged_as_metered run rfl).2 (fun _ mem => (List.not_mem_nil mem).elim)
    (by decide +kernel) (1, 0)]
  decide +kernel

end PostCall.Properties
