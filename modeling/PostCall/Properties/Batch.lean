import PostCall.Machine.Executions

/-!
# Every admitted job of a batch

The LLM worker processes its admitted jobs one after another, and only the provider call stands in
the `try` block. A raise outside of it, by an `ended_at` that is no date or by a token count that is
none, ends the loop: that job and those after it stay running. An answer that no `JSONB` column takes
does the same. Where none of these occurs, and the database refuses nothing else, the loop returns and
each job has its outcome.
-/

namespace PostCall.Properties
open PostCall.Library PostCall.Python PostCall.Model PostCall.Machine LLMWorkerService

variable {cfg : Settings} {text : Text} {fromisoformat : String → Except PyError Time}
  {turn : UUID → Turn} {snapshot : ClaimedLLMJob} {db db' : Db}

/-! ### What the success transaction raises -/

section Raises

variable {births : ChildSlot → Birth} {clock : Clock} {result : AnalysisResult} {n : Number}
  {budget : Option ℤ} {job : InteractionJob}

/-- Queueing a job raises what breaks the session. -/
lemma raises_createIfAbsent {new : NewJob} :
    Raises (fun e => e.breaksSession) (Tx.createIfAbsent cfg new) := by
  refine .bind .get fun db => ?_
  split
  · exact .pure
  split
  · exact .throw (by decide)
  split
  · exact .throw (by decide)
  split
  · exact .bind .set fun _ => .pure
  · exact .throw (by decide)

lemma getOrCreateUsage_error {t : UsageTable} {customer : UUID} {windowStart : Time} {tokens : ℤ}
    {e : PyError} (h : t.getOrCreateUsage customer windowStart tokens = .error e) :
    e.breaksSession := by
  unfold UsageTable.getOrCreateUsage at h
  split at h
  · cases h
  · simp only at h
    split at h
    · split at h
      · cases h
      · cases h
        decide
    · cases h
      decide

lemma recordUsage_error {t : UsageTable} {customer : UUID} {now : Time} {e : PyError}
    (h : t.recordUsage cfg customer n now budget = .error e) : e.breaksSession := by
  unfold UsageTable.recordUsage at h
  simp only [bind, Except.bind] at h
  split at h
  case h_1 read =>
    cases h
    exact getOrCreateUsage_error read
  case h_2 =>
    split at h
    case h_1 read =>
      cases h
      exact getOrCreateUsage_error read
    case h_2 =>
      split at h
      · cases h
      · cases h
        decide

/-- An analysis that is recorded has a count of tokens and an answer that can be stored. -/
lemma recordAnalysis_ok (h : recordAnalysis cfg text clock snapshot result db = .ok n db') :
    Json.asTokens result.tokensUsed = .ok n ∧ (Json.dict result.rawResponse).storable := by
  obtain ⟨_, _, _, h⟩ := Program.bind_ok.1 h
  obtain ⟨tokens, _, counted, h⟩ := Program.bind_ok.1 h
  obtain ⟨_, _, _, h⟩ := Program.bind_ok.1 h
  obtain ⟨_, _, _, h⟩ := Program.bind_ok.1 h
  obtain ⟨_, _, _, h⟩ := Program.bind_ok.1 h
  obtain ⟨_, _, _, h⟩ := Program.bind_ok.1 h
  split at h
  case isTrue taken =>
    cases h
    exact ⟨(Program.ofExcept_run_ok.1 counted).1, (Bool.and_eq_true_iff.1 taken).2⟩
  case isFalse => cases h

/-- With a count and a budget, recording it raises what breaks the session. -/
lemma raises_recordAnalysis (counted : Json.asTokens result.tokensUsed = .ok n)
    (budgeted : customerBudget snapshot.payload = .ok budget) :
    Raises (fun e => e.breaksSession) (recordAnalysis cfg text clock snapshot result) := by
  refine .bind .modify fun _ => .bind (.ofExcept fun e h => ?_) fun _ => ?_
  · rw [counted] at h
    cases h
  refine .bind (.ofExcept fun e h => ?_) fun _ => ?_
  · rw [budgeted] at h
    cases h
  refine .bind .get fun _ => .bind (.ofExcept fun e h => recordUsage_error h) fun _ => ?_
  refine .bind .modify fun _ => ?_
  split
  · exact .pure
  · exact .throw (by decide)

/-- With a token count, only the database raises, unless the count is negative. -/
lemma raises_succeed (counted : Json.asTokens result.tokensUsed = .ok n)
    (budgeted : customerBudget snapshot.payload = .ok budget) :
    Raises (fun e => e.breaksSession ∨ n.val < 0)
      (succeed cfg text births clock snapshot result job) := by
  intro s e s' h
  rcases Program.bind_error.1 h with h | ⟨tokens, s₁, recorded, h⟩
  · exact .inl (raises_recordAnalysis counted budgeted s e s' h)
  obtain rfl : tokens = n := Except.ok.inj ((recordAnalysis_ok recorded).1.symm.trans counted)
  obtain ⟨marked, s₂, h⟩ : ∃ marked s₂, _ := by
    rcases Program.bind_error.1 h with h | ⟨marked, s₂, _, h⟩
    · cases h
    · exact ⟨marked, s₂, h⟩
  rcases Program.bind_error.1 h with h | ⟨_, s₃, _, h⟩
  · have queue : Raises (fun e => e.breaksSession) (Tx.queueResultJobs cfg text births
        marked.toJobIdentity snapshot.payload result.rawResponse marked.priority
        (callStageText text result.rawResponse)) :=
      .bind raises_createIfAbsent fun _ => .bind .pure fun _ =>
        .bind raises_createIfAbsent fun _ => .pure
    exact .inl (queue s₂ e s' h)
  · split at h
    · exact .inr ‹_›
    · cases h

/-- The transaction returns only with a token count that is not negative and an answer that the column
takes. -/
lemma succeed_ok (h : succeed cfg text births clock snapshot result job db = .ok ⟨⟩ db') :
    (∃ n, Json.asTokens result.tokensUsed = .ok n ∧ 0 ≤ n.val) ∧
      (Json.dict result.rawResponse).storable := by
  obtain ⟨n, _, recorded, h⟩ := Program.bind_ok.1 h
  obtain ⟨_, _, _, h⟩ := Program.bind_ok.1 h
  obtain ⟨_, _, _, h⟩ := Program.bind_ok.1 h
  split at h
  · cases h
  · obtain ⟨counted, storable⟩ := recordAnalysis_ok recorded
    exact ⟨⟨n, counted, not_lt.1 ‹_›⟩, storable⟩

end Raises

/-! ### The condition -/

/-- The payload has no text under `ended_at`, or one that is a date. -/
def EndReadable (fromisoformat : String → Except PyError Time) (payload : Dict) : Prop :=
  ∀ s, payload.get? "ended_at" = some (.str s) → ∃ t, fromisoformat s = .ok t

instance {payload : Dict} : Decidable (EndReadable fromisoformat payload) :=
  decidable_of_iff ((match payload.get? "ended_at" with
      | some (.str s) => (fromisoformat s).isOk
      | _ => true) = true) <| by
    unfold EndReadable
    split
    case h_1 s found =>
      cases parsed : fromisoformat s with
      | ok t =>
        refine iff_of_true rfl fun s' e => ?_
        obtain rfl : s = s' := Json.str.inj (Option.some.inj (found.symm.trans e))
        exact ⟨t, parsed⟩
      | error e =>
        refine iff_of_false Bool.false_ne_true fun all => ?_
        obtain ⟨t, e'⟩ := all s found
        rw [parsed] at e'
        cases e'
    case h_2 other => exact iff_of_true rfl fun s found => absurd found (other s)

/-- A count of tokens: a finite number that is not negative, or a truth value. -/
def IsCount (tokens : Json) : Prop :=
  (∃ n : ℕ, tokens = .int n) ∨ (∃ b, tokens = .bool b) ∨ ∃ q, 0 ≤ q ∧ tokens = .float q

/-- If the usage of an answer is an object, its `total_tokens` is a count, and a `JSONB` column takes
the answer. -/
def Recordable (response : Dict) : Prop :=
  ∀ usage : Dict, response.getD "usage" (.dict []) = .dict usage →
    IsCount (usage.getD "total_tokens" (.int 0)) ∧ (Json.dict response).storable

/-- The context of a job can be built, and what the provider answers to it can be recorded. -/
def Processable (text : Text) (fromisoformat : String → Except PyError Time) (turn : Turn)
    (snapshot : ClaimedLLMJob) : Prop :=
  EndReadable fromisoformat snapshot.payload ∧
    ∀ ctx response, contextFromSnapshot text fromisoformat turn.utcnow snapshot = .ok ctx →
      turn.provider ctx = .returns response → Recordable response

/-- Whether the database refused a write. -/
def refused {α : Type} : EStateM.Result PyError Db α → Bool
  | .ok _ _ => false
  | .error e _ => e.breaksSession

/-- Whether the database takes the success transaction of a job, if what it writes is well typed. -/
def accepts (cfg : Settings) (text : Text) (fromisoformat : String → Except PyError Time)
    (turn : Turn) (snapshot : ClaimedLLMJob) (db : Db) : Bool :=
  match contextFromSnapshot text fromisoformat turn.utcnow snapshot with
  | .error _ => true
  | .ok ctx =>
    match processPostCall cfg (turn.provider ctx) with
    | .error _ => true
    | .ok result =>
      match Json.asTokens result.tokensUsed with
      | .error _ => true
      | .ok _ => !(Json.dict result.rawResponse).storable ||
          !refused (complete cfg text turn.births turn.clock snapshot result db)

/-- Whether it does so for each job of a batch, in its turn. -/
def acceptsEach (cfg : Settings) (text : Text) (fromisoformat : String → Except PyError Time)
    (turn : UUID → Turn) : List ClaimedLLMJob → Db → Bool
  | [], _ => true
  | snapshot :: snapshots, db =>
    accepts cfg text fromisoformat (turn snapshot.id) snapshot db &&
      match processOne cfg text fromisoformat turn snapshot db with
      | .ok db => acceptsEach cfg text fromisoformat turn snapshots db
      | .error _ => true

/-- A count is a number of tokens that is not negative. -/
lemma isCount_iff {tokens : Json} :
    IsCount tokens ↔ ∃ n, Json.asTokens tokens = .ok n ∧ 0 ≤ n.val := by
  constructor
  · rintro (⟨n, rfl⟩ | ⟨b, rfl⟩ | ⟨q, nonneg, rfl⟩)
    · exact ⟨_, rfl, by simp⟩
    · exact ⟨_, rfl, by cases b <;> simp⟩
    · exact ⟨_, rfl, nonneg⟩
  · rintro ⟨n, counted, nonneg⟩
    cases tokens with
    | int m =>
      cases counted
      have : 0 ≤ m := by simpa using nonneg
      exact .inl ⟨m.toNat, by rw [Int.toNat_of_nonneg this]⟩
    | bool b => exact .inr (.inl ⟨b, rfl⟩)
    | float q =>
      cases counted
      exact .inr (.inr ⟨q, nonneg, rfl⟩)
    | _ => cases counted

/-- The context is read exactly where the dates of the payload are. -/
lemma context_iff (text : Text) (utcnow : Time) :
    (∃ ctx, contextFromSnapshot text fromisoformat utcnow snapshot = .ok ctx) ↔
      EndReadable fromisoformat snapshot.payload := by
  unfold contextFromSnapshot EndReadable
  simp only
  split
  case h_1 s found =>
    rw [found]
    cases parsed : fromisoformat s with
    | error e => simp [bind, Except.bind, parsed]
    | ok t => simp [bind, Except.bind, pure, Except.pure, parsed]
  case h_2 other =>
    refine ⟨fun _ s found => absurd found (other s), fun _ => ⟨_, rfl⟩⟩

/-- What the `try` block makes of an answer. -/
lemma processPostCall_ok {outcome : ProviderOutcome} {result : AnalysisResult}
    (h : processPostCall cfg outcome = .ok result) :
    ∃ response usage : Dict, outcome = .returns response ∧
      response.getD "usage" (.dict []) = .dict usage ∧
      result.tokensUsed = usage.getD "total_tokens" (.int 0) ∧ result.rawResponse = response := by
  cases outcome with
  | rateLimited => cases h
  | raises => cases h
  | returns response =>
    simp only [processPostCall] at h
    split at h
    case h_2 => cases h
    case h_1 parsed =>
      cases h
      unfold parseResponse at parsed
      cases object : response.getD "usage" (.dict []) with
      | dict usage =>
        rw [object] at parsed
        cases parsed
        exact ⟨response, usage, rfl, object, rfl, rfl⟩
      | _ =>
        rw [object] at parsed
        cases parsed

/-- An answer whose usage is no object is a failure that the worker reports. -/
lemma processPostCall_error {response : Dict} {failure : Failure}
    (h : processPostCall cfg (.returns response) = .error failure) (usage : Dict) :
    response.getD "usage" (.dict []) ≠ .dict usage := by
  intro object
  simp only [processPostCall, parseResponse, object] at h
  cases h

/-! ### One job -/

/-- The success transaction of a job that is running returns if and only if the tokens are counted and
the column takes the answer. -/
lemma complete_iff {births : ChildSlot → Birth} {clock : Clock} {result : AnalysisResult}
    {job : InteractionJob} {budget : Option ℤ} (found : db.queue.get? snapshot.id = some job)
    (running : job.status = .running) (budgeted : customerBudget snapshot.payload = .ok budget)
    (taken : ∀ n, Json.asTokens result.tokensUsed = .ok n →
      (Json.dict result.rawResponse).storable →
      refused (complete cfg text births clock snapshot result db) = false) :
    (∃ db', complete cfg text births clock snapshot result db = .ok ⟨⟩ db') ↔
      IsCount result.tokensUsed ∧ (Json.dict result.rawResponse).storable := by
  have e : complete cfg text births clock snapshot result db =
      succeed cfg text births clock snapshot result job db := by
    simp only [complete, Program.bind_of_ok Program.get_run, found, if_pos running]
  rw [isCount_iff]
  constructor
  · rintro ⟨db', h⟩
    exact succeed_ok (e.symm.trans h)
  · rintro ⟨⟨n, counted, nonneg⟩, storable⟩
    cases done : complete cfg text births clock snapshot result db with
    | ok _ db' => exact ⟨db', rfl⟩
    | error raised s =>
      have free := taken n counted storable
      rw [done] at free
      rcases raises_succeed counted budgeted db raised s (e.symm.trans done) with h | h
      · rw [refused, h] at free
        cases free
      · exact absurd h (not_lt.2 nonneg)

/-- A job that is being executed: its snapshot is of a row that is running. -/
def Admitted (db : Db) (snapshot : ClaimedLLMJob) : Prop :=
  (∃ budget, customerBudget snapshot.payload = .ok budget) ∧
    ∃ job ∈ db.queue.jobs.rows, snapshot = LLMWorkerService.snapshot job ∧
      job.jobType = .llmAnalysis ∧ job.status = .running

/-- The job has its outcome. -/
def HasOutcome (db : Db) (id : UUID) : Prop :=
  ∃ job ∈ db.queue.jobs.rows, job.id = id ∧
    (job.status = .succeeded ∨ job.status = .deferred ∨ job.status = .deadLettered)

lemma Admitted.running (h : Admitted db snapshot) :
    ∃ job, db.queue.get? snapshot.id = some job ∧ job ∈ db.queue.jobs.rows ∧
      WorkOf job.toJobIdentity (.analysis snapshot) ∧ job.id = snapshot.id ∧
      job.status = .running := by
  obtain ⟨_, job, mem, rfl, type, running⟩ := h
  exact ⟨job, Queue.get?_of_mem mem, mem, .analysis rfl type, rfl, running⟩

/-- The last transaction of a job that is running returns if and only if what the provider answered can
be recorded. -/
lemma conclude_iff (cfg : Settings) (text : Text) (births : ChildSlot → Birth) (clock : Clock)
    {outcome : ProviderOutcome} (h : Admitted db snapshot)
    (taken : ∀ result n, processPostCall cfg outcome = .ok result →
      Json.asTokens result.tokensUsed = .ok n → (Json.dict result.rawResponse).storable →
      refused (complete cfg text births clock snapshot result db) = false) :
    (∃ db', Tx.conclude cfg clock snapshot.id
        (processSnapshot cfg text births clock snapshot outcome) db = .ok ⟨⟩ db') ↔
      ∀ response, outcome = .returns response → Recordable response := by
  obtain ⟨job, found, _, _, _, running⟩ := h.running
  obtain ⟨budget, budgeted⟩ := h.1
  unfold processSnapshot
  cases answer : processPostCall cfg outcome with
  | error failure =>
    -- the failure is handled, and the answer, if there was one, has no usage
    refine iff_of_true ⟨db.handle cfg clock job failure, ?_⟩ fun response e usage object => ?_
    · simp only [Functor.map, Except.map, Tx.conclude, Tx.handleFailure,
        Program.bind_of_ok Program.get_run, found]
      rfl
    · subst e
      exact absurd object (processPostCall_error answer usage)
  | ok result =>
    obtain ⟨response, usage, rfl, object, tokens, raw⟩ := processPostCall_ok answer
    refine (complete_iff found running budgeted fun n => taken result n answer).trans ?_
    rw [tokens, raw]
    constructor
    · rintro recordable _ ⟨⟩ usage' object'
      obtain rfl : usage = usage' := Json.dict.inj (object.symm.trans object')
      exact recordable
    · exact fun counts => counts response rfl usage object

/-- A context that is not read is raised. -/
lemma processOne_of_error {e : PyError}
    (h : contextFromSnapshot text fromisoformat (turn snapshot.id).utcnow snapshot = .error e) :
    processOne cfg text fromisoformat turn snapshot db = .error e := by
  simp only [processOne, h]
  rfl

lemma processOne_of_ok {ctx : PostCallContext}
    (h : contextFromSnapshot text fromisoformat (turn snapshot.id).utcnow snapshot = .ok ctx) :
    processOne cfg text fromisoformat turn snapshot db =
      attempt (Tx.conclude cfg (turn snapshot.id).clock snapshot.id
        (processSnapshot cfg text (turn snapshot.id).births (turn snapshot.id).clock snapshot
          ((turn snapshot.id).provider ctx))) db := by
  simp only [processOne, h]
  rfl

/-- The turn of a job returns if and only if the job can be processed. -/
lemma processOne_iff (h : Admitted db snapshot)
    (taken : accepts cfg text fromisoformat (turn snapshot.id) snapshot db) :
    (∃ db', processOne cfg text fromisoformat turn snapshot db = .ok db') ↔
      Processable text fromisoformat (turn snapshot.id) snapshot := by
  unfold Processable
  rw [← context_iff text (turn snapshot.id).utcnow]
  unfold accepts at taken
  cases built : contextFromSnapshot text fromisoformat (turn snapshot.id).utcnow snapshot with
  | error e =>
    rw [processOne_of_error built]
    refine iff_of_false ?_ ?_
    · rintro ⟨_, ⟨⟩⟩
    · rintro ⟨⟨_, ⟨⟩⟩, _⟩
  | ok ctx =>
    rw [built] at taken
    have free : ∀ result n, processPostCall cfg ((turn snapshot.id).provider ctx) = .ok result →
        Json.asTokens result.tokensUsed = .ok n → (Json.dict result.rawResponse).storable →
        refused (complete cfg text (turn snapshot.id).births (turn snapshot.id).clock snapshot
          result db) = false := by
      intro result n answer counted storable
      simpa only [answer, counted, storable, Bool.not_true, Bool.false_or, Bool.not_eq_true']
        using taken
    have concluded := conclude_iff cfg text _ _ h free
    rw [processOne_of_ok built]
    simp only [attempt_eq_ok]
    constructor
    · rintro ⟨db', _, returned⟩
      refine ⟨⟨ctx, rfl⟩, ?_⟩
      rintro _ response ⟨⟩
      exact concluded.1 ⟨db', returned⟩ response
    · rintro ⟨_, counts⟩
      obtain ⟨db', returned⟩ := concluded.2 fun response => counts ctx response rfl
      exact ⟨db', _, returned⟩

/-- A job that a move finishes or defers has an outcome. -/
lemma outcome_of_move {l : Label} {job row : InteractionJob} (m : Move cfg db l db')
    (about : l.job? = some job) (after : l.after? cfg = some row)
    (status : row.status = .succeeded ∨ row.status = .deferred ∨ row.status = .deadLettered) :
    HasOutcome db' job.id :=
  ⟨row, (m.effect.rows row).2 (.inr (.inr after)),
    congrArg JobIdentity.id (Move.identity_after after about), status⟩

/-- A last transaction that returned gives the job its outcome. -/
lemma outcome_of_conclude {outcome : ProviderOutcome} {births : ChildSlot → Birth} {clock : Clock}
    (h : Admitted db snapshot)
    (concluded : Tx.conclude cfg clock snapshot.id
      (processSnapshot cfg text births clock snapshot outcome) db = .ok ⟨⟩ db') :
    HasOutcome db' snapshot.id := by
  obtain ⟨job, found, mem, of, same, running⟩ := h.running
  rw [← same]
  cases answer : processPostCall cfg outcome with
  | error failure =>
    have handled : db.handle cfg clock job failure = db' := by
      simp only [processSnapshot, answer, Functor.map, Except.map, Tx.conclude, Tx.handleFailure,
        Program.bind_of_ok Program.get_run, found] at concluded
      cases concluded
      rfl
    have m : Move cfg db (.fail job failure clock) db' := handled ▸ .fail mem
    cases next : failure.nextRunAt cfg (clock 0) job with
    | some runAfter =>
      have after : (Label.fail job failure clock).after? cfg =
          some (job.defer runAfter failure.errorCode failure.errorMessage) := by
        simp only [Label.after?, next]
      exact outcome_of_move m rfl after (.inr (.inl rfl))
    | none =>
      have after : (Label.fail job failure clock).after? cfg =
          some (job.deadLetter failure.errorCode failure.errorMessage (clock 2)) := by
        simp only [Label.after?, next]
      exact outcome_of_move m rfl after (.inr (.inr rfl))
  | ok result =>
    have conclusion : (Work.analysis snapshot).conclusion cfg text clock (.analysis outcome births) =
        some (.ok (complete cfg text births clock snapshot result)) := by
      simp only [Work.conclusion, processSnapshot, answer]
      rfl
    have returned : complete cfg text births clock snapshot result db = .ok ⟨⟩ db' := by
      simpa only [processSnapshot, answer, Functor.map, Except.map, Tx.conclude] using concluded
    cases completed_of_ok mem of conclusion returned with
    | idle idle => exact absurd running idle
    | done _ m _ after =>
      obtain ⟨row, mem', id, status⟩ := outcome_of_move m rfl rfl (.inl rfl)
      exact ⟨row, after.queue ▸ mem', id, status⟩

/-- The last transaction of an execution is about its job only. -/
lemma job_of_reportMoves {work : Work} {conclusion : Except Failure (Tx Unit)} {clock : Clock}
    {job job' : InteractionJob} {l : Label} (h : reportMoves cfg text work conclusion clock job db l)
    (about : l.job? = some job') : job' = job := by
  cases l with
  | aside => cases about
  | create => cases about
  | claim => exact h.1.elim
  | recover => exact h.1.elim
  | refuse => exact h.1.elim
  | succeed =>
    cases about
    exact h.1.1
  | fail =>
    cases about
    exact h.1

/-- A turn that returned: its job has its outcome, and the rows of other jobs stay. -/
lemma processOne_ok (h : Admitted db snapshot)
    (returned : processOne cfg text fromisoformat turn snapshot db = .ok db') :
    HasOutcome db' snapshot.id ∧
      ∀ row ∈ db.queue.jobs.rows, row.id ≠ snapshot.id → row ∈ db'.queue.jobs.rows := by
  obtain ⟨job, _, mem, of, same, _⟩ := h.running
  cases built : contextFromSnapshot text fromisoformat (turn snapshot.id).utcnow snapshot with
  | error e =>
    rw [processOne_of_error built] at returned
    cases returned
  | ok ctx =>
    rw [processOne_of_ok built, attempt_eq_ok] at returned
    obtain ⟨_, concluded⟩ := returned
    refine ⟨outcome_of_conclude h concluded, fun row there ne => ?_⟩
    have p := @path_conclude cfg text db db' _ (.analysis _ _) _ _ job mem of rfl concluded
    refine Path.mem_of_ne p there fun _ l job' hl about => ?_
    rw [job_of_reportMoves hl about, same]
    exact ne

/-! ### The batch -/

/-- The loop returns if and only if every job can be processed, and then each has its outcome, and
the rows of other jobs stay. -/
lemma processEach_iff {snapshots : List ClaimedLLMJob} (admitted : ∀ s ∈ snapshots, Admitted db s)
    (nodup : (snapshots.map (·.id)).Nodup)
    (taken : acceptsEach cfg text fromisoformat turn snapshots db) :
    ((processEach cfg text fromisoformat turn snapshots db).1 = .ok () ↔
      ∀ s ∈ snapshots, Processable text fromisoformat (turn s.id) s) ∧
    ((processEach cfg text fromisoformat turn snapshots db).1 = .ok () →
      (∀ s ∈ snapshots, HasOutcome (processEach cfg text fromisoformat turn snapshots db).2 s.id) ∧
        ∀ row ∈ db.queue.jobs.rows, row.id ∉ snapshots.map (·.id) →
          row ∈ (processEach cfg text fromisoformat turn snapshots db).2.queue.jobs.rows) := by
  induction snapshots generalizing db with
  | nil => exact ⟨⟨fun _ s mem => absurd mem List.not_mem_nil, fun _ => rfl⟩,
      fun _ => ⟨fun s mem => absurd mem List.not_mem_nil, fun row mem _ => mem⟩⟩
  | cons snapshot snapshots ih =>
    simp only [List.map_cons, List.nodup_cons] at nodup
    simp only [acceptsEach, Bool.and_eq_true] at taken
    obtain ⟨taken, later⟩ := taken
    have first := admitted snapshot List.mem_cons_self
    have decides : (∃ db', processOne cfg text fromisoformat turn snapshot db = .ok db') ↔
        Processable text fromisoformat (turn snapshot.id) snapshot := processOne_iff first taken
    unfold processEach
    cases returned : processOne cfg text fromisoformat turn snapshot db with
    | error e =>
      have stuck : ¬ Processable text fromisoformat (turn snapshot.id) snapshot := by
        rw [← decides, returned]
        rintro ⟨_, ⟨⟩⟩
      exact ⟨iff_of_false nofun fun all => stuck (all snapshot List.mem_cons_self), nofun⟩
    | ok db₁ =>
      have processable := decides.1 ⟨db₁, returned⟩
      obtain ⟨settled, frame⟩ := processOne_ok first returned
      simp only [returned] at later
      have ne : ∀ s ∈ snapshots, s.id ≠ snapshot.id := fun s mem e =>
        nodup.1 (List.mem_map.2 ⟨s, mem, e⟩)
      -- the other jobs of the batch are still running as they were
      have admitted₁ : ∀ s ∈ snapshots, Admitted db₁ s := by
        intro s mem
        obtain ⟨budget, job, there, rfl, type, running⟩ := admitted s (List.mem_cons_of_mem _ mem)
        exact ⟨budget, job, frame job there (ne _ mem), rfl, type, running⟩
      obtain ⟨iff, done⟩ := ih admitted₁ nodup.2 later
      refine ⟨iff.trans ?_, fun ok => ?_⟩
      · rw [List.forall_mem_cons]
        exact (and_iff_right processable).symm
      · obtain ⟨rest, kept⟩ := done ok
        refine ⟨List.forall_mem_cons.2 ⟨?_, rest⟩, fun row mem out => ?_⟩
        · obtain ⟨job, there, id, status⟩ := settled
          exact ⟨job, kept job there (id ▸ nodup.1), id, status⟩
        · rw [List.map_cons, List.mem_cons, not_or] at out
          exact kept row (frame row mem out.1) out.2

/-- The rate limiter reads the budget of a job that it admits. -/
lemma admitJobs_budget {clock : UUID → Clock} {jobs : List InteractionJob}
    {snapshots : List ClaimedLLMJob} (h : admitJobs cfg clock jobs db = .ok snapshots db') :
    ∀ s ∈ snapshots, ∃ budget, customerBudget s.payload = .ok budget := by
  induction jobs generalizing db snapshots with
  | nil =>
    cases h
    exact fun s mem => absurd mem List.not_mem_nil
  | cons job jobs ih =>
    obtain ⟨admitted, s₁, first, h₁⟩ := Program.bind_ok.1 h
    obtain ⟨rest, s₂, others, h₂⟩ := Program.bind_ok.1 h₁
    obtain ⟨budget, _, read, pass⟩ := Program.bind_ok.1 first
    obtain ⟨budgeted, rfl⟩ := Program.ofExcept_run_ok.1 read
    cases h₂
    intro s mem
    rcases List.mem_append.1 mem with mem | mem
    · -- the job itself, if it was admitted
      obtain ⟨_, _, _, pass₁⟩ := Program.bind_ok.1 pass
      obtain ⟨⟨_, admission⟩, _, _, pass₂⟩ := Program.bind_ok.1 pass₁
      obtain ⟨_, _, _, pass₃⟩ := Program.bind_ok.1 pass₂
      split at pass₃
      · obtain ⟨_, _, _, pass₄⟩ := Program.bind_ok.1 pass₃
        cases pass₄
        rw [Option.toList_some, List.mem_singleton] at mem
        exact ⟨budget, mem ▸ budgeted⟩
      · obtain ⟨_, _, _, pass₄⟩ := Program.bind_ok.1 pass₃
        cases pass₄
        cases mem
    · exact ih others s mem

/-- What the claim transaction hands on: distinct jobs that are being executed. -/
lemma admitted_of_claim {workerId : String} {limit : ℕ} {recovery : RecoveryClock}
    {query : ClaimQuery} {clock : UUID → Clock} {snapshots : List ClaimedLLMJob}
    (h : claimAdmittedJobs cfg workerId limit recovery query clock db = .ok snapshots db') :
    (∀ s ∈ snapshots, Admitted db' s) ∧ (snapshots.map (·.id)).Nodup := by
  obtain ⟨_, s₁, _, h⟩ := Program.bind_ok.1 h
  obtain ⟨jobs, s₂, claim, h⟩ := Program.bind_ok.1 h
  rw [claimReadyJobs_run] at claim
  cases claim
  have budget := admitJobs_budget h
  obtain ⟨admitted, sub, rfl, kept⟩ := admitJobs_ok nodup_claimedJobs running_of_claimedJobs h
  refine ⟨fun s mem => ⟨budget s mem, ?_⟩, ?_⟩
  · obtain ⟨job, of, rfl⟩ := List.mem_map.1 mem
    obtain ⟨row, _, rfl, type⟩ := of_mem_claimedJobs (sub.subset of)
    exact ⟨_, kept _ of, rfl, List.mem_singleton.1 type, rfl⟩
  · rw [List.map_map]
    exact nodup_claimedJobs.sublist (sub.map _)

/-- Two analysis jobs of the plain interaction, whose call ended at a date. -/
def twoAnalyses : Db :=
  let payload := [("ended_at", .str "2024-01-01T00:00:00")]
  let rows := [(NewJob.plain 1 .llmAnalysis payload).row settings,
    (NewJob.plain 2 .llmAnalysis payload).row settings]
  { (World.ofInteraction .plain).db with queue := (Queue.empty.addAll? rows).getD .empty }

/-- The claim of both. -/
def bothClaimed : EStateM.Result PyError Db (List ClaimedLLMJob) :=
  claimAdmittedJobs settings "worker" 10 (.at 0) (.at 0) (fun _ _ => 0) twoAnalyses

/-- Accepts that date. -/
def readDate (s : String) : Except PyError Time :=
  if s = "2024-01-01T00:00:00" then .ok 1704067200000000
  else .error (.valueError s!"Invalid isoformat string: '{s}'")

/-- The provider answers to the first job with these tokens, and to the other with 1500. -/
def answering (tokens : Json) (id : UUID) : Turn where
  utcnow := 0
  provider _ := .returns [("usage", .dict [("total_tokens", if id = 1 then tokens else .int 1500)])]
  births
    | .signal => ⟨if id = 1 then 11 else 21, 0, 0⟩
    | _ => ⟨if id = 1 then 12 else 22, 0, 0⟩
  clock _ := 1

/-- A run over both. -/
def runBoth (tokens : Json) : Except PyError ℕ × Db :=
  runOnce settings .plain readDate (answering tokens) "worker" 10 (.at 0) (.at 0) (fun _ _ => 0)
    twoAnalyses

/-- Whether both are admitted, with a date in their payload, and the database takes what is well
typed. -/
def bothAdmitted (tokens : Json) : Bool :=
  match bothClaimed with
  | .ok admitted db => admitted.map (·.id) = [1, 2] &&
      admitted.all (fun s => EndReadable readDate s.payload) &&
      acceptsEach settings .plain readDate (answering tokens) admitted db
  | .error _ _ => false

lemma claimed_of_bothAdmitted {tokens : Json} (h : bothAdmitted tokens) :
    ∃ admitted db, bothClaimed = .ok admitted db ∧ admitted.map (·.id) = [1, 2] ∧
      (∀ s ∈ admitted, EndReadable readDate s.payload) ∧
      acceptsEach settings .plain readDate (answering tokens) admitted db := by
  unfold bothAdmitted at h
  cases claimed : bothClaimed with
  | error =>
    rw [claimed] at h
    cases h
  | ok admitted db =>
    rw [claimed] at h
    simp only [Bool.and_eq_true, decide_eq_true_eq, List.all_eq_true] at h
    exact ⟨admitted, db, rfl, h.1.1, h.1.2, h.2⟩

end PostCall.Properties
