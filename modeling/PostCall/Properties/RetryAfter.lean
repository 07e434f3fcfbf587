import PostCall.Properties.Metering
import PostCall.Properties.Retries
import PostCall.Properties.Windows

/-!
# Retry-After

The provider may answer that it is asked too often, and say for how long it wants to be left alone.
The client reads the header, the worker hands the number to the retry policy, the failure handler
stores the time in the row, and the claims of all workers look at that: so no worker takes the
analysis up before the provider said, as long as that is within the longest delay of the policy.
-/

namespace PostCall.Properties
open PostCall.Library PostCall.Python PostCall.Model PostCall.Machine

variable {cfg : Settings} {text : Text} {client : LLMClient} {w : World} {a : Action}

/-! ### The header -/

lemma eq_ofNat {c : Char} (h : c.isDigit) : ∃ d < 10, c = Char.ofNat (48 + d) := by
  simp only [Char.isDigit, Bool.and_eq_true, decide_eq_true_eq, ge_iff_le] at h
  have low : 48 ≤ c.toNat := h.1
  have high : c.toNat ≤ 57 := h.2
  exact ⟨c.toNat - 48, by omega, by rw [Nat.add_sub_cancel' low, Char.ofNat_toNat]⟩

/-- What `int()` makes of a decimal digit. -/
lemma digit?_decimal {c : Char} (h : c.isDigit) :
    digit? 10 c = some (c.toNat - '0'.toNat) ∧ isIntSpace c = false := by
  have each : ∀ d < 10, digit? 10 (Char.ofNat (48 + d)) =
      some ((Char.ofNat (48 + d)).toNat - '0'.toNat) ∧ isIntSpace (Char.ofNat (48 + d)) = false := by
    decide
  obtain ⟨d, lt, rfl⟩ := eq_ofNat h
  exact each d lt

/-- Decimal digits are read as the number that they are of. -/
lemma digits?_decimal {l : List Char} (decimal : ∀ c ∈ l, c.isDigit) (ne : l ≠ []) :
    digits? 10 l = some (l.map fun c => c.toNat - '0'.toNat) := by
  induction l with
  | nil => exact absurd rfl ne
  | cons c l ih =>
    have hd := (digit?_decimal (decimal c List.mem_cons_self)).1
    cases l with
    | nil => simp [digits?, hd]
    | cons d l =>
      have rest := ih (fun d hd => decimal d (List.mem_cons_of_mem _ hd)) (List.cons_ne_nil _ _)
      have plain : d ≠ '_' := by
        rintro rfl
        exact absurd (decimal '_' (by simp)) (by decide)
      rw [digits?.eq_4 _ _ _ (by simp) fun _ h => plain (List.cons.inj h).1, hd, rest]
      rfl

/-- A number that is written in digits is read as itself. -/
lemma parseInt?_toDigits {n : ℕ} (short : (Nat.toDigits 10 n).length ≤ 4300) :
    parseInt? 10 (Nat.toDigits 10 n) = some (n : ℤ) := by
  have decimal : ∀ c ∈ Nat.toDigits 10 n, c.isDigit := fun c mem =>
    Nat.isDigit_of_mem_toDigits (by decide) (by decide) mem
  have solid : ∀ c ∈ Nat.toDigits 10 n, isIntSpace c = false := fun c mem =>
    (digit?_decimal (decimal c mem)).2
  have value : ((Nat.toDigits 10 n).map fun c => c.toNat - '0'.toNat).foldl
      (fun n d => n * 10 + d) 0 = n := by
    have same := @Nat.ofDigitChars_toDigits 10 n (by decide) (by decide)
    rw [Nat.ofDigitChars_eq_foldl] at same
    simp only [Nat.mul_comm] at same
    rwa [List.foldl_map]
  have read : magnitude? 10 (Nat.toDigits 10 n) = some n := by
    rw [magnitude?, if_neg (by decide), digits?_decimal decimal Nat.toDigits_ne_nil]
    simp only [List.length_map, value]
    rw [if_neg fun h => absurd h.2 (by omega)]
  unfold parseInt?
  rw [UUID.strip_eq_self solid]
  split
  case h_1 e => exact absurd (decimal '+' (e ▸ List.mem_cons_self)) (by decide)
  case h_2 e => exact absurd (decimal '-' (e ▸ List.mem_cons_self)) (by decide)
  case h_3 =>
    rw [read]
    rfl

/-- The header is read as the number of seconds that it says, but at least one. -/
lemma parseRetryAfter_toString {n : ℕ} (short : (toString n).length ≤ 4300) :
    parseRetryAfter (some (toString n)) = max n 1 := by
  have text : (toString n).toList = Nat.toDigits 10 n := by
    rw [Nat.toString_eq_ofList_toDigits, String.toList_ofList]
  have ne : toString n ≠ "" := by
    intro empty
    rw [empty] at text
    exact Nat.toDigits_ne_nil text.symm
  rw [← String.length_toList, text] at short
  rw [parseRetryAfter, if_neg ne, text, parseInt?_toDigits short, Nat.cast_max]
  rfl

/-! ### The wait -/

/-- The time until which a response with the status 429 wants the client to wait, as far as the
retry policy goes along. -/
def limitedUntil (cfg : Settings) (r : LLMHttpResponse) (now : Time) : Time :=
  now + seconds (min (parseRetryAfter r.retryAfter) cfg.workflowMaxRetrySeconds)

/-- What is noted of a job: that it is to wait until a time, or that a claim takes it at a time. -/
inductive Notice where
  | wait (jobId : UUID) (due : Time)
  | claim (jobId : UUID) (now : Time)
  deriving DecidableEq

/-- What is noted of a step: the jobs that a claim takes, and a response with the status 429 for a
job that has attempts left. -/
def notices (cfg : Settings) (client : LLMClient) (s : Clocked) : ClientAction → List Notice
  | .other a =>
    match askedAt? a with
    | some now => (batch cfg s.world a).map fun job => .claim job.id now
    | none => []
  | .call n prompt post _ clock =>
    match s.world.inflight[n]? with
    | some ⟨.analysis snapshot, _⟩ =>
      match post (client.request cfg prompt), s.world.db.queue.get? snapshot.id with
      | .response r, some job =>
        if client.isMock = false ∧ r.statusCode = 429 ∧ job.attempts < job.maxAttempts then
          [.wait job.id (limitedUntil cfg r (clock 0))]
        else []
      | _, _ => []
    | _ => []

/-- No claim takes a job that is to wait. -/
def Respected : Notice → Notice → Prop
  | .wait id due, .claim id' now => id = id' → due ≤ now
  | _, _ => True

/-- The time is over until which the job is to wait, or the job waits for it in the table. -/
def Observed (s : Clocked) : Notice → Prop
  | .wait id due => due ≤ s.now ∨ ∃ row ∈ s.world.db.queue.jobs.rows, row.id = id ∧
      row.jobType = .llmAnalysis ∧ row.status = .deferred ∧ due ≤ row.runAfter
  | .claim .. => True

/-- One action of the system whose provider is the client, with the clock of the claims. -/
def clockedStep (cfg : Settings) (text : Text) (client : LLMClient) (s : Clocked)
    (a : ClientAction) : Clocked := s.step cfg text (a.action cfg client)

/-- No lock times out, and no claim reads an earlier time than the claims before it. -/
def Steady (cfg : Settings) (client : LLMClient) (s : Clocked) (a : ClientAction) : Prop :=
  NoTimeout cfg s.world (a.action cfg client) ∧
    ∀ now, askedAt? (a.action cfg client) = some now → s.now ≤ now

section Wait

variable {s : Clocked} {e e' : Notice} {row : InteractionJob}

/-- A deferred analysis stays as it is, unless a claim takes it whose time has come. -/
lemma deferred_step (fence : Fenced w) (calm : NoTimeout cfg w a)
    (mem : row ∈ w.db.queue.jobs.rows) (type : row.jobType = .llmAnalysis)
    (deferred : row.status = .deferred) :
    row ∈ (World.step cfg text w a).db.queue.jobs.rows ∨
      ∃ now, askedAt? a = some now ∧ row.runAfter ≤ now := by
  by_cases other : row.jobType ∉ claims a
  · have same : view (World.step cfg text w a).db.queue row.id = view w.db.queue row.id :=
      fence.view_of_deferred calm mem deferred other
    have found : (view w.db.queue row.id).row = some row := Queue.get?_of_mem mem
    rw [← same] at found
    exact .inl (Queue.get?_eq_some.1 found).1
  obtain ⟨workerId, limit, recovery, query, clock, rfl⟩ : ∃ workerId limit recovery query clock,
      a = .claimAnalyses workerId limit recovery query clock := by
    cases a <;> simp_all [claims]
  by_cases taken : ∃ job ∈ claimedJobs workerId [.llmAnalysis] limit query
      (recovered cfg workerId recovery w.db), job.id = row.id
  · obtain ⟨job, hj, same⟩ := taken
    exact .inr ⟨query.now, rfl, runAfter_le_of_batch mem deferred hj same⟩
  · refine .inl ?_
    cases returned : LLMWorkerService.claimAdmittedJobs cfg workerId limit recovery query clock
        w.db with
    | error e db' =>
      rw [World.step, World.claim, commit, returned]
      exact mem
    | ok snapshots db' =>
      rw [World.step, World.claim, commit, returned]
      exact mem_of_not_batch returned mem deferred fun job hj same => taken ⟨job, hj, same⟩

/-- A wait that is observed goes on, or its time is over. -/
lemma observed_step {a : ClientAction} (fence : Fenced s.world) (steady : Steady cfg client s a)
    (h : Observed s e) : Observed (clockedStep cfg text client s a) e := by
  cases e with
  | claim => trivial
  | wait id due =>
    have forward : s.now ≤ (clockedStep cfg text client s a).now := by
      simp only [clockedStep, Clocked.step]
      cases asked : askedAt? (a.action cfg client) with
      | none => exact le_rfl
      | some now => exact steady.2 now asked
    rcases h with gone | ⟨row, mem, same, type, deferred, waits⟩
    · exact .inl (gone.trans forward)
    · rcases deferred_step fence steady.1 mem type deferred with there | ⟨now, asked, due'⟩
      · exact .inr ⟨row, there, same, type, deferred, waits⟩
      · refine .inl ((waits.trans due').trans ?_)
        simp only [clockedStep, Clocked.step, asked]
        exact le_rfl

/-- What a step notes of a claim: an action that takes the job, at this time. -/
lemma of_claim_mem_notices {a : ClientAction} {id : UUID} {now : Time}
    (h : .claim id now ∈ notices cfg client s a) :
    askedAt? (a.action cfg client) = some now ∧
      ∃ job ∈ batch cfg s.world (a.action cfg client), job.id = id := by
  cases a with
  | call n prompt post births clock =>
    simp only [notices] at h
    repeat' split at h
    all_goals simp at h
  | other a =>
    simp only [notices] at h
    cases asked : askedAt? a with
    | none =>
      rw [asked] at h
      cases h
    | some now' =>
      rw [asked] at h
      obtain ⟨job, mem, same⟩ := List.mem_map.1 h
      cases same
      exact ⟨asked, job, mem, rfl⟩

/-- A claim that takes a job comes when no wait keeps it. -/
lemma respected_of_observed {a : ClientAction} (steady : Steady cfg client s a)
    (h : Observed s e) (mem : e' ∈ notices cfg client s a) : Respected e e' := by
  cases e with
  | claim => trivial
  | wait id due =>
    cases e' with
    | wait => trivial
    | claim id' now =>
      rintro rfl
      obtain ⟨asked, job, taken, same⟩ := of_claim_mem_notices mem
      rcases h with gone | ⟨row, there, same', _, deferred, waits⟩
      · exact gone.trans (steady.2 now asked)
      · refine waits.trans ?_
        cases acts : a.action cfg client with
        | claimAnalyses workerId limit recovery query clock =>
          rw [acts] at asked taken
          cases asked
          exact runAfter_le_of_batch there deferred taken (same.trans same'.symm)
        | _ => rw [acts] at asked; cases asked

/-- The notices of a step are either those of its claim or the one of its call. -/
lemma pairwise_notices {a : ClientAction} : (notices cfg client s a).Pairwise Respected := by
  cases a with
  | other a =>
    simp only [notices]
    split
    · exact List.pairwise_map.2 (List.pairwise_of_forall fun _ _ => trivial)
    · exact .nil
  | call n prompt post births clock =>
    simp only [notices]
    repeat' split
    all_goals first | exact .nil | exact List.pairwise_singleton _ _

/-- What the client asks for is at least a second. -/
lemma one_le_parseRetryAfter {header : Option String} : 1 ≤ parseRetryAfter header := by
  unfold parseRetryAfter
  split
  · decide
  · split
    · decide
    · split
      · exact le_max_right _ _
      · decide

/-- The failure that the worker reports of a response with the status 429. -/
lemma limited_of_response {prompt : String} {post : LLMRequest → HttpAnswer}
    {r : LLMHttpResponse} (births : ChildSlot → Birth) (clock : Clock) {snapshot : ClaimedLLMJob}
    {claim : ℕ} (real : client.isMock = false)
    (answer : post (client.request cfg prompt) = .response r) (limited : r.statusCode = 429) :
    (InFlight.mk (.analysis snapshot) claim).work.conclusion cfg text clock
        (.analysis (client.analyzeCall cfg post prompt) births) =
      some (.error ⟨"llm_worker", "LLM_RATE_LIMIT", "LLM provider rate limit exceeded",
        some (parseRetryAfter r.retryAfter), true⟩) := by
  have outcome : client.analyzeCall cfg post prompt =
      .rateLimited "LLM provider rate limit exceeded" (parseRetryAfter r.retryAfter) := by
    simp only [LLMClient.analyzeCall, real, answer, LLMClient.read, limited, if_true,
      Bool.false_eq_true, if_false]
  rw [outcome]
  rfl

/-- After a response with the status 429 the job is to wait. -/
lemma observed_of_mem_notices {a : ClientAction} (fence : Fenced s.world)
    (h : e ∈ notices cfg client s a) : Observed (clockedStep cfg text client s a) e := by
  cases a with
  | other a =>
    simp only [notices] at h
    split at h
    case h_2 => cases h
    case h_1 =>
      obtain ⟨_, _, rfl⟩ := List.mem_map.1 h
      trivial
  | call n prompt post births clock =>
    simp only [notices] at h
    split at h
    case h_2 => cases h
    case h_1 snapshot claim executes =>
      split at h
      case h_2 => cases h
      case h_1 r job answer found =>
        split at h
        case isFalse => cases h
        case isTrue limited =>
          obtain ⟨real, status, left⟩ := limited
          obtain rfl := List.mem_singleton.1 h
          obtain ⟨mem, id⟩ := Queue.get?_eq_some.1 found
          obtain ⟨row, there, of⟩ := fence.sound _ (List.mem_of_getElem? executes)
          obtain rfl : row = job := Table.eq_of_key there mem (of.jobId.symm.trans id.symm)
          have type : row.jobType = .llmAnalysis := by
            cases of with
            | analysis _ type => exact type
          let failure : Failure := ⟨"llm_worker", "LLM_RATE_LIMIT",
            "LLM provider rate limit exceeded", some (parseRetryAfter r.retryAfter), true⟩
          have handled : (World.step cfg text s.world
              (.report n (.analysis (client.analyzeCall cfg post prompt) births) clock)).db =
                s.world.db.handle cfg clock row failure :=
            report_failure_db executes (limited_of_response births clock real answer status) mem id
          have next : failure.nextRunAt cfg (clock 0) row = some (limitedUntil cfg r (clock 0)) := by
            rw [Failure.nextRunAt_of_lt rfl left, RetryPolicy.nextDelay]
            rw [if_pos (lt_of_lt_of_le Int.zero_lt_one one_le_parseRetryAfter)]
            rfl
          refine .inr ⟨row.defer (limitedUntil cfg r (clock 0)) failure.errorCode
            failure.errorMessage, ?_, rfl, type, rfl, le_rfl⟩
          simp only [clockedStep, Clocked.step, ClientAction.action, handled, Db.handle_queue]
          rw [next]
          exact Queue.mem_updateJob_self mem

end Wait

/-- In every run with a clock that does not go back and without timeouts of locks, whatever workers
there are: no claim takes a job before the time that a response with the status 429 named for it. A
header with a number names that many seconds, up to the longest delay of the retry policy. -/
theorem retry_after_respected {s₀ s : Clocked} {as : List ClientAction}
    (run : Run (clockedStep cfg text client) (Steady cfg client) s₀ as s)
    (idle : s₀.world.inflight = []) :
    (emitted (clockedStep cfg text client) (notices cfg client) s₀ as).Pairwise Respected ∧
    ∀ r : LLMHttpResponse, ∀ n : ℕ, r.retryAfter = some (toString n) →
      (toString n).length ≤ 4300 → ∀ now, limitedUntil cfg r now =
        now + seconds (min (max n 1) cfg.workflowMaxRetrySeconds) := by
  have fenced := run.strengthen (I := fun s => Fenced s.world) (.of_idle idle)
    fun s a fence steady => fence.step steady.1.unrecovered
  refine ⟨fenced.pairwise_emitted Observed (fun _ _ _ => pairwise_notices)
    (fun s a e h mem => observed_of_mem_notices h.1 mem)
    (fun s a e observed h => observed_step h.1 h.2 observed)
    fun s a e e' observed h mem => respected_of_observed h.2 observed mem, ?_⟩
  intro r n header short now
  rw [limitedUntil, header, parseRetryAfter_toString short, Nat.cast_max, Nat.cast_one]

/-- A client that asks a provider. -/
def asking : LLMClient where
  apiKey := "key"
  loads _ := .invalid

/-- The provider wants to be left alone for two minutes. -/
def tooOften (_ : LLMRequest) : HttpAnswer :=
  .response ⟨429, some (toString 120), "", .error ⟨"JSONDecodeError", ""⟩⟩

/-- An analysis is claimed, put off, looked for a minute later, and claimed when it is due. -/
def putOff : List ClientAction := [
  .other (.createIfAbsent (.plain 1 .llmAnalysis)),
  .other (.claimAnalyses "worker" 1 (.at 0) (.at 0) fun _ _ => 0),
  .call 0 "" tooOften Birth.plain fun _ => seconds 1,
  .other (.claimAnalyses "worker" 1 (.at (seconds 60)) (.at (seconds 60)) fun _ _ => seconds 60),
  .other (.claimAnalyses "worker" 1 (.at (seconds 121)) (.at (seconds 121)) fun _ _ =>
    seconds 121)]

/-- The notices of these steps. -/
def notedOf (as : List ClientAction) : List Notice :=
  emitted (clockedStep settings .plain asking) (notices settings asking)
    ⟨.ofInteraction .plain, 0⟩ as

/-- Put off by 120 seconds at the first second, the job is claimed at the second 121. -/
theorem retry_after_respected_plain : (notedOf putOff).Pairwise Respected ∧
    notedOf putOff = [.claim 1 0, .wait 1 (seconds 121), .claim 1 (seconds 121)] := by
  have run : Run (clockedStep settings .plain asking) (Steady settings asking)
      ⟨.ofInteraction .plain, 0⟩ putOff
      (putOff.foldl (clockedStep settings .plain asking) ⟨.ofInteraction .plain, 0⟩) := by
    refine .cons ⟨by decide +kernel, ?_⟩ (.cons ⟨by decide +kernel, ?_⟩
      (.cons ⟨by decide +kernel, ?_⟩ (.cons ⟨by decide +kernel, ?_⟩
        (.cons ⟨by decide +kernel, ?_⟩ .nil))))
    · rintro now ⟨⟩
    · rintro now ⟨⟩
      decide
    · rintro now ⟨⟩
    · rintro now ⟨⟩
      decide
    · rintro now ⟨⟩
      decide
  exact ⟨(retry_after_respected run rfl).1, by decide +kernel⟩

end PostCall.Properties
