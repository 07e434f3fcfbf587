import PostCall.Machine.Journal
import PostCall.Machine.Regular
import PostCall.Properties.Admission
import PostCall.Properties.Deferrals

/-!
# The trail and the ledger

The tables of the audit events and of the dead letters have no foreign keys, and nothing in the schema
ties the ledger of tokens to the trail. Still every event and every dead letter names a job of the
table and repeats what its row says, and the events of the admissions and of the finished analyses
account for each counter of the ledger: an admission reserves what its job was estimated at, and a
finished analysis has used what its event says, in the same transaction. The counter of used tokens
adds what the event truncates, so that the two go together while the provider counts in whole numbers.
-/

namespace PostCall.Properties
open PostCall.Library PostCall.Python PostCall.Model PostCall.Machine LLMWorkerService

variable {cfg : Settings} {text : Text} {w w₀ : World} {as : List Action} {a : Action} {db db' : Db}
  {job : InteractionJob}

/-- What the job of an event was estimated at. -/
def estimateOf (q : Queue) (id : UUID) : ℤ := (q.get? id).elim 0 (·.tokenEstimate)

/-- What an event tells that the counters of a customer were raised by, over all windows. -/
def amount (q : Queue) (customer : UUID) (f : Counter) (e : AuditEvent) : ℤ :=
  if e.message = "llm_job_admitted" then
    share customer e.customerId * reserved (max (estimateOf q e.jobId) 1) f
  else if e.message = "llm_analysis_completed" then
    share customer e.customerId * used e.tokenUsage f
  else 0

/-- These counters of a customer are what the trail tells of. -/
def Explained (fs : Counter → Prop) (db : Db) : Prop := ∀ customer f, fs f →
  total db.usage customer (fun _ => True) f = (db.auditEvents.map (amount db.queue customer f)).sum

/-- The trail names jobs of the table, and accounts for these counters of the ledger. -/
structure Audited (fs : Counter → Prop) (db : Db) : Prop where
  names : ∀ e ∈ db.auditEvents, Names db e
  buries : ∀ letter ∈ db.queue.deadLetterJobs, Buries db letter
  inRange : InRange db.usage
  explained : Explained fs db

variable {fs : Counter → Prop}

lemma sum_bookings {q : Queue} {customer : UUID} {f : Counter} {events : List AuditEvent} :
    (events.map (amount q customer f)).sum =
      ((events.filter isBooking).map (amount q customer f)).sum := by
  induction events with
  | nil => rfl
  | cons e events ih =>
    rw [List.map_cons, List.sum_cons, ih]
    by_cases booking : isBooking e
    · rw [List.filter_cons_of_pos booking, List.map_cons, List.sum_cons]
    · rw [List.filter_cons_of_neg booking]
      have silent : amount q customer f e = 0 := by
        simp only [isBooking, Bool.or_eq_true, decide_eq_true_eq, not_or] at booking
        rw [amount, if_neg booking.1, if_neg booking.2]
      rw [silent, zero_add]

/-- A job keeps its estimate. -/
lemma estimateOf_of_names {e : AuditEvent} (h : ∀ job, Stands db job → Stands db' job)
    (names : Names db e) : estimateOf db'.queue e.jobId = estimateOf db.queue e.jobId := by
  obtain ⟨row, mem, id, _⟩ := names
  obtain ⟨row', mem', same, _⟩ := h row (.of_mem mem)
  have id' : e.jobId = row'.id := id.trans (congrArg JobIdentity.id same).symm
  unfold estimateOf
  rw [id, Queue.get?_of_mem mem, ← id, id', Queue.get?_of_mem mem']
  exact congrArg JobIdentity.tokenEstimate same

/-- What is booked goes with what the trail says of it. -/
lemma Audited.step (new : List AuditEvent) (h : Audited fs db) (keeps : Keeps db db')
    (inRange : InRange db'.usage)
    (bookings : db'.auditEvents.filter isBooking = db.auditEvents.filter isBooking ++ new)
    (totals : ∀ customer f, fs f → total db'.usage customer (fun _ => True) f =
      total db.usage customer (fun _ => True) f + (new.map (amount db'.queue customer f)).sum) :
    Audited fs db' := by
  obtain ⟨events, trail, names⟩ := keeps.events
  obtain ⟨letters, dead, buries⟩ := keeps.letters
  refine ⟨fun e mem => ?_, fun letter mem => ?_, inRange, fun customer f of => ?_⟩
  · rw [trail] at mem
    rcases List.mem_append.1 mem with mem | mem
    · exact (h.names e mem).mono keeps.stands
    · exact names e mem
  · rw [dead] at mem
    rcases List.mem_append.1 mem with mem | mem
    · exact (h.buries letter mem).mono keeps.stands
    · exact buries letter mem
  · have old : (db.auditEvents.filter isBooking).map (amount db'.queue customer f) =
        (db.auditEvents.filter isBooking).map (amount db.queue customer f) := by
      refine List.map_congr_left fun e mem => ?_
      have same := estimateOf_of_names keeps.stands (h.names e (List.mem_of_mem_filter mem))
      simp only [amount, same]
    rw [totals _ _ of, h.explained _ _ of, sum_bookings, @sum_bookings _ _ _ db'.auditEvents, bookings,
      List.map_append, List.sum_append, old]

lemma Audited.quiet (h : Audited fs db) (quiet : Quiet db db') : Audited fs db' :=
  h.step [] quiet.toKeeps (quiet.usage ▸ h.inRange) (by rw [quiet.bookings, List.append_nil])
    fun customer f _ => by rw [quiet.usage, List.map_nil, List.sum_nil, add_zero]

/-! ### The admission -/

/-- An admission that returned has booked, and told of it, or has refused. -/
lemma admitJob_ok {clock : Clock} {admitted : Option ClaimedLLMJob}
    (h : admitJob cfg clock job db = .ok admitted db') :
    ∃ budget usage result, db.usage.rateLimiterAdmit cfg job.customerId job.tokenEstimate
        job.priority (clock 0) budget = .ok (usage, result) ∧
      if result.allowed then
        db' = ({ db with usage := usage } : Db).emit job "llm_scheduler" "admitted" "llm_job_admitted"
      else db' = ({ db with usage := usage } : Db).deferRefused clock job result := by
  obtain ⟨budget, usage, result, read, booked, _, outcome⟩ := of_admitJob_ok h
  refine ⟨budget, usage, result, booked, ?_⟩
  split at outcome
  case isFalse refused =>
    rw [if_neg refused]
    exact outcome.2
  case isTrue allowed =>
    unfold admitJob at h
    rw [read, Program.ofExcept_ok, pure_bind, Program.bind_of_ok Program.get_run, booked,
      Program.ofExcept_ok, pure_bind] at h
    simp only at h
    rw [Program.bind_of_ok Program.modify_run, if_pos allowed] at h
    cases h
    rw [if_pos allowed]

/-- The estimate of a job is the one in its row. -/
lemma estimateOf_of_stands (stands : Stands db job) :
    estimateOf db.queue job.id = job.tokenEstimate := by
  obtain ⟨row, mem, same, _⟩ := stands
  unfold estimateOf
  rw [← congrArg JobIdentity.id same, Queue.get?_of_mem mem]
  exact congrArg JobIdentity.tokenEstimate same

lemma audited_admitJob {clock : Clock} {admitted : Option ClaimedLLMJob} (h : Audited fs db)
    (stands : Stands db job) (returned : admitJob cfg clock job db = .ok admitted db') :
    Audited fs db' ∧ Keeps db db' := by
  obtain ⟨budget, usage, result, booked, outcome⟩ := admitJob_ok returned
  have inRange : InRange usage := inRange_reserve booked h.inRange
  have opened : Keeps db { db with usage := usage } := .of_same rfl rfl
  have stands' := opened.stands job stands
  split at outcome
  case isTrue allowed =>
    subst outcome
    have keeps : Keeps db (({ db with usage := usage } : Db).emit job "llm_scheduler" "admitted"
        "llm_job_admitted") := opened.trans (.emit stands')
    refine ⟨h.step [.ofJob job "llm_scheduler" "admitted" "llm_job_admitted" none] keeps inRange
      (List.filter_append _ _) fun customer f _ => ?_, keeps⟩
    have raised : total usage customer (fun _ => True) f =
        total db.usage customer (fun _ => True) f +
          if True then share customer job.customerId * reserved (max job.tokenEstimate 1) f else 0 :=
      total_of_counter fun k => counter_of_allowed booked allowed k f
    rw [if_pos trivial, ← estimateOf_of_stands stands] at raised
    rw [List.map_singleton, List.sum_singleton]
    exact raised
  case isFalse refused =>
    subst outcome
    have quiet : Quiet { db with usage := usage } (Db.deferRefused clock job result _) :=
      quiet_deferRefused stands'
    have same : Audited fs { db with usage := usage } := by
      refine h.step [] opened inRange (List.append_nil _).symm fun customer f _ => ?_
      rw [List.map_nil, List.sum_nil, add_zero]
      exact total_of_same fun k => counter_of_refused booked (Bool.eq_false_iff.2 refused) k f
    exact ⟨same.quiet quiet, opened.trans quiet.toKeeps⟩

lemma audited_admitJobs {clock : UUID → Clock} {jobs : List InteractionJob}
    {admitted : List ClaimedLLMJob} (h : Audited fs db) (stands : ∀ job ∈ jobs, Stands db job)
    (returned : admitJobs cfg clock jobs db = .ok admitted db') : Audited fs db' := by
  induction jobs generalizing db admitted with
  | nil =>
    cases returned
    exact h
  | cons job jobs ih =>
    obtain ⟨first, s, one, returned⟩ := Program.bind_ok.1 returned
    obtain ⟨others, s', rest, returned⟩ := Program.bind_ok.1 returned
    cases returned
    obtain ⟨audited, keeps⟩ := audited_admitJob h (stands job List.mem_cons_self) one
    exact ih audited (fun row mem => keeps.stands row (stands row (List.mem_cons_of_mem _ mem))) rest

lemma audited_claimAdmittedJobs {workerId : String} {limit : ℕ} {recovery : RecoveryClock}
    {query : ClaimQuery} {clock : UUID → Clock} {admitted : List ClaimedLLMJob} (h : Audited fs db)
    (returned : claimAdmittedJobs cfg workerId limit recovery query clock db = .ok admitted db') :
    Audited fs db' := by
  rw [claimAdmittedJobs, Program.bind_of_ok recoverStaleRunningJobs_run,
    Program.bind_of_ok claimReadyJobs_run] at returned
  exact audited_admitJobs ((h.quiet quiet_recovered).quiet quiet_claimed) stands_claimed returned

/-! ### The success of an analysis -/

/-- Neither the queue nor the trail has changed. -/
def SameRows (db db' : Db) : Prop := db'.queue = db.queue ∧ db'.auditEvents = db.auditEvents

instance : IsPreorder Db SameRows where
  refl _ := ⟨rfl, rfl⟩
  trans _ _ _ h h' := ⟨h'.1.trans h.1, h'.2.trans h.2⟩

lemma same_recordAnalysis {clock : Clock} {snapshot : ClaimedLLMJob} {result : AnalysisResult} :
    Within SameRows (recordAnalysis cfg text clock snapshot result) := by
  refine .bind (.modify fun _ => ⟨rfl, rfl⟩) fun _ => .bind .ofExcept fun _ => ?_
  refine .bind .ofExcept fun _ => .bind .get fun _ => .bind .ofExcept fun _ => ?_
  refine .bind (.modify fun _ => ⟨rfl, rfl⟩) fun _ => ?_
  split
  · exact .pure
  · exact .throw

/-- The tokens that are recorded are those of the result. -/
lemma tokens_of_recordAnalysis {clock : Clock} {snapshot : ClaimedLLMJob} {result : AnalysisResult}
    {tokensUsed : Number} (h : recordAnalysis cfg text clock snapshot result db = .ok tokensUsed db') :
    Json.asTokens result.tokensUsed = .ok tokensUsed := by
  unfold recordAnalysis at h
  rw [Program.bind_of_ok Program.modify_run] at h
  obtain ⟨tokens, _, read, h⟩ := Program.bind_ok.1 h
  obtain ⟨counted, rfl⟩ := Program.ofExcept_run_ok.1 read
  obtain ⟨budget, _, read, h⟩ := Program.bind_ok.1 h
  obtain ⟨_, rfl⟩ := Program.ofExcept_run_ok.1 read
  rw [Program.bind_of_ok Program.get_run] at h
  obtain ⟨usage, _, read, h⟩ := Program.bind_ok.1 h
  obtain ⟨_, rfl⟩ := Program.ofExcept_run_ok.1 read
  rw [Program.bind_of_ok Program.modify_run] at h
  split at h
  case isFalse => cases h
  case isTrue =>
    cases h
    exact counted

/-- The success of an analysis writes its event. -/
lemma audited_succeed {births : ChildSlot → Birth} {clock : Clock} {snapshot : ClaimedLLMJob}
    {result : AnalysisResult} {u : Unit} (h : Audited fs db) (stands : Stands db job)
    (customer : snapshot.customerId = job.customerId)
    (whole : fs .usedTokens → (asCount result.tokensUsed).Whole)
    (returned : succeed cfg text births clock snapshot result job db = .ok u db') :
    Audited fs db' := by
  obtain ⟨tokens, counted, charged⟩ := recorded_succeed returned
  obtain ⟨tokensUsed, s₁, recorded, returned⟩ := Program.bind_ok.1 returned
  obtain rfl : tokensUsed = tokens :=
    Except.ok.inj ((tokens_of_recordAnalysis recorded).symm.trans counted)
  obtain ⟨queue, trail⟩ := same_recordAnalysis.of_ok recorded
  have before : Keeps db s₁ := .of_same queue trail
  obtain ⟨job', s₂, completed, returned⟩ := Program.bind_ok.1 returned
  have first := quiet_markSucceeded.of_ok completed
  cases completed
  obtain ⟨_, s₃, queued, returned⟩ := Program.bind_ok.1 returned
  have quiet := first.trans (quiet_queueResultJobs.of_ok queued)
  have stands' : Stands s₃ (job.markSucceeded result.rawResponse tokensUsed.trunc (clock 2)) :=
    (quiet.stands job (before.stands job stands)).of_same rfl rfl
  split at returned
  case isTrue => cases returned
  case isFalse =>
    cases returned
    have kept := before.trans quiet.toKeeps
    refine h.step [.ofJob (job.markSucceeded result.rawResponse tokensUsed.trunc (clock 2))
      "llm_worker" "succeeded" "llm_analysis_completed" none] (kept.trans (.emit stands'))
      charged.inRange ?_ fun c f of => ?_
    · rw [← trail, ← quiet.bookings]
      exact List.filter_append _ _
    · have exact : f = .usedTokens → tokensUsed.Whole := by
        rintro rfl
        simpa only [asCount, counted] using whole of
      have booked : total s₃.usage c (fun _ => True) f = total db.usage c (fun _ => True) f +
          if True then share c snapshot.customerId * used tokensUsed.trunc f else 0 :=
        total_of_counter (charged.counter h.inRange exact)
      rw [if_pos trivial, customer] at booked
      rw [List.map_singleton, List.sum_singleton]
      exact booked

/-! ### What a step books -/

/-- What a step of the system books: nothing, the admissions of a claim, or a finished analysis. -/
inductive StepBooks (cfg : Settings) (text : Text) (w : World) : Action → Db → Prop where
  | nothing {a : Action} {db : Db} :
    Quiet w.db db →
    StepBooks cfg text w a db
  | admissions {workerId limit recovery query clock admitted} {db : Db} :
    claimAdmittedJobs cfg workerId limit recovery query clock w.db = .ok admitted db →
    StepBooks cfg text w (.claimAnalyses workerId limit recovery query clock) db
  | analysis {n snapshot claim outcome births clock result u} {job : InteractionJob} {db : Db} :
    w.inflight[n]? = some ⟨.analysis snapshot, claim⟩ →
    job ∈ w.db.queue.jobs.rows →
    snapshot.id = job.id →
    snapshot.customerId = job.customerId →
    job.status = .running →
    processPostCall cfg outcome = .ok result →
    succeed cfg text births clock snapshot result job w.db = .ok u db →
    StepBooks cfg text w (.report n (.analysis outcome births) clock) db

section StepBooks

/-- A transaction that raised books nothing, and neither does one that is quiet. -/
lemma stepBooks_transact {α : Type} {x : Tx α}
    (books : ∀ u db, x w.db = .ok u db → StepBooks cfg text w a db) :
    StepBooks cfg text w a (World.transact w.db x) := by
  unfold World.transact commit
  cases returned : x w.db with
  | ok u db => exact books u db returned
  | error => exact .nothing (.refl _)

lemma stepBooks_transact_quiet {α : Type} {x : Tx α} (quiet : Within Quiet x) :
    StepBooks cfg text w a (World.transact w.db x) :=
  stepBooks_transact fun _ _ returned => .nothing (quiet.of_ok returned)

lemma stepBooks_claim {α : Type} {x : Tx (List α)} {work : α → Work}
    (books : ∀ jobs db, x w.db = .ok jobs db → StepBooks cfg text w a db) :
    StepBooks cfg text w a (w.claim x work).db := by
  unfold World.claim commit
  cases returned : x w.db with
  | ok jobs db => exact books jobs db returned
  | error => exact .nothing (.refl _)

lemma stepBooks_report {n : ℕ} {f : InFlight} {outcome : Outcome} {clock : Clock}
    {conclusion : Except Failure (Tx Unit)} {u : Unit} (found : w.inflight[n]? = some f)
    (mem : job ∈ w.db.queue.jobs.rows) (of : WorkOf job.toJobIdentity f.work)
    (concludes : f.work.conclusion cfg text clock outcome = some conclusion)
    (returned : Tx.conclude cfg clock f.jobId conclusion w.db = .ok u db) :
    StepBooks cfg text w (.report n outcome clock) db := by
  have failed : ∀ failure, conclusion = .error failure →
      StepBooks cfg text w (.report n outcome clock) db := by
    rintro failure rfl
    exact .nothing (quiet_handleFailure.of_ok returned)
  obtain ⟨work, claim⟩ := f
  cases concludes_of_conclusion concludes with
  | @analysed snapshot _ _ result answer =>
    cases of with
    | @analysis row same =>
      have id : (snapshot row).id = job.id := congrArg JobIdentity.id same
      have customer : (snapshot row).customerId = job.customerId :=
        congrArg JobIdentity.customerId same
      change complete cfg text _ clock _ result w.db = _ at returned
      rw [complete, Program.bind_of_ok Program.get_run, id, Queue.get?_of_mem mem] at returned
      simp only at returned
      split at returned
      case isTrue running => exact .analysis found mem id customer running answer returned
      case isFalse =>
        cases returned
        exact .nothing (.refl _)
  | fetched => exact .nothing (quiet_completeRecording.of_ok returned)
  | processed => exact .nothing (quiet_completeResult.of_ok returned)
  | unanalysed => exact failed _ rfl
  | unfetched => exact failed _ rfl
  | unprocessed => exact failed _ rfl

lemma stepBooks_step (sound : Sound w) : StepBooks cfg text w a (World.step cfg text w a).db := by
  cases a with
  | createIfAbsent new => exact stepBooks_transact_quiet quiet_createIfAbsent
  | recoverStaleRunningJobs workerId recovery => exact .nothing quiet_recovered
  | endInteraction request =>
    simp only [World.step, World.endInteraction, commit]
    cases returned : endInteraction cfg text request w.db with
    | error => exact .nothing (.refl _)
    | ok job db =>
      have queued := quiet_endInteraction.of_ok returned
      simp only
      split
      · rw [transact_wakeupFailed]
        split
        · exact .nothing (queued.trans (.emit (stands_endInteraction returned) (by decide)))
        · exact .nothing queued
      · exact .nothing queued
  | legacyTask payload birth => exact stepBooks_transact_quiet quiet_persistLegacyPayload
  | orchestrate workerId limit recovery query run => exact stepBooks_transact_quiet quiet_runOnce
  | claimAnalyses workerId limit recovery query clock =>
    exact stepBooks_claim fun _ _ returned => .admissions returned
  | claimRecordings workerId limit query =>
    refine stepBooks_claim fun _ _ returned => ?_
    cases returned
    exact .nothing quiet_claimed
  | claimResults workerId limit query =>
    refine stepBooks_claim fun _ _ returned => ?_
    cases returned
    exact .nothing quiet_claimed
  | processResult n fault =>
    simp only [World.step, World.processResult]
    split
    case h_2 => exact .nothing (.refl _)
    case h_1 =>
      split
      case h_2 => exact .nothing (.refl _)
      case h_1 returned => exact .nothing (quiet_processResult.of_ok returned)
  | report n outcome clock =>
    simp only [World.step, World.report]
    split
    case h_2 => exact .nothing (.refl _)
    case h_1 f found =>
      split
      case h_2 => exact .nothing (.refl _)
      case h_1 conclusion concludes =>
        obtain ⟨job, mem, of⟩ := sound f (List.mem_of_getElem? found)
        exact stepBooks_transact fun _ _ => stepBooks_report found mem of concludes
  | crash n => exact .nothing (.refl _)

end StepBooks

/-! ### Runs -/

/-- An answer of the provider that counts its tokens in a whole number. -/
def WholeAnswer (cfg : Settings) : Action → Prop
  | .report _ (.analysis (.returns response) _) _ => (totalTokens cfg response).Whole
  | _ => True

lemma audited_step (sound : Sound w) (h : Audited fs w.db)
    (whole : fs .usedTokens → WholeAnswer cfg a) : Audited fs (World.step cfg text w a).db := by
  cases stepBooks_step sound with
  | nothing quiet => exact h.quiet quiet
  | admissions returned => exact audited_claimAdmittedJobs h returned
  | analysis _ mem _ customer _ answer returned =>
    refine audited_succeed h (.of_mem mem) customer (fun of => ?_) returned
    obtain ⟨response, rfl, parsed⟩ := of_processPostCall answer
    have whole := whole of
    simpa only [WholeAnswer, totalTokens, parsed] using whole

/-- Nothing has been written down yet. -/
def Unwritten (w : World) : Prop :=
  Initial w ∧ w.db.auditEvents = [] ∧ w.db.usage = .empty

lemma audited_of_run {ok : World → Action → Prop} (fs : Counter → Prop)
    (run : Run (World.step cfg text) ok w₀ as w) (init : Unwritten w₀)
    (whole : fs .usedTokens → ∀ a ∈ as, WholeAnswer cfg a) : Audited fs w.db := by
  obtain ⟨⟨queue, idle⟩, trail, usage⟩ := init
  have start : Audited fs w₀.db := by
    refine ⟨fun e mem => ?_, fun letter mem => ?_, fun u mem => ?_, fun customer f _ => ?_⟩
    · rw [trail] at mem
      cases mem
    · rw [queue] at mem
      cases mem
    · rw [usage] at mem
      cases mem
    · rw [trail, usage]
      rfl
  have each : ∀ a ∈ as, fs .usedTokens → WholeAnswer cfg a := fun a mem of => whole of a mem
  refine ((run.of_forall_mem each).invariant (I := fun w => Sound w ∧ Audited fs w.db)
    ⟨sound_of_idle idle, start⟩ fun w a inv ok => ?_).2
  exact ⟨sound_step inv.1, audited_step inv.1 inv.2 ok.2⟩

/-- After every run, each counter of each customer, over all windows, is what the events of its
admissions and of its finished analyses amount to, that of the used tokens if the provider has counted
in whole numbers; the rows of the platform have counted those of all customers. -/
theorem ledger_reconciled (run : Run (World.step cfg text) anyStep w₀ as w) (init : Unwritten w₀) :
    ∀ customer f, (f = .usedTokens → ∀ a ∈ as, WholeAnswer cfg a) →
      total w.db.usage customer (fun _ => True) f =
        (w.db.auditEvents.map (amount w.db.queue customer f)).sum :=
  fun customer f whole => (audited_of_run (· = f) run init fun e => whole e.symm).explained
    customer f rfl

/-- After every run, each event and each dead letter repeats what the row of its job says, and the
interaction that it names has a row. -/
theorem references_kept (run : Run (World.step cfg text) anyStep w₀ as w) (init : Unwritten w₀) :
    (∀ e ∈ w.db.auditEvents, Names w.db e ∧
      (w.db.interactions.find? e.interactionId).isSome) ∧
    ∀ letter ∈ w.db.queue.deadLetterJobs, Buries w.db letter ∧
      (w.db.interactions.find? letter.interactionId).isSome := by
  have audited := audited_of_run (fun _ => False) run init False.elim
  have known : ∀ row ∈ w.db.queue.jobs.rows,
      (w.db.interactions.find? row.interactionId).isSome := fun row mem => by
    simpa [errorLog?] using known_of_run run init.1 row mem
  refine ⟨fun e mem => ?_, fun letter mem => ?_⟩
  · have names := audited.names e mem
    obtain ⟨row, mem, _, interaction, _⟩ := names
    exact ⟨audited.names e ‹_›, interaction ▸ known row mem⟩
  · have buries := audited.buries letter mem
    obtain ⟨row, mem, _, interaction, _⟩ := buries
    exact ⟨audited.buries letter ‹_›, interaction ▸ known row mem⟩

/-- Two analyses are admitted; one has used other tokens than it reserved, which the provider counts in
a float, the other one fails for good. -/
def settled : List Action := [
  .createIfAbsent { NewJob.plain 1 .llmAnalysis with tokenEstimate := 1000 },
  .createIfAbsent { NewJob.plain 6 .llmAnalysis with tokenEstimate := 700, maxAttempts := some 1 },
  .claimAnalyses "worker" 2 (.at 0) (.at 0) fun _ _ => 0,
  .report 0 (.analysis (.returns [("usage", .dict [("total_tokens", .float 1500)])]) Birth.plain)
    fun _ => seconds 1,
  .report 0 providerLost fun _ => seconds 2]

lemma run_settled : Run (World.step settings .plain) anyStep (.ofInteraction .plain) settled
    (after settled) := .of_foldl settled

lemma unwritten_plain : Unwritten (.ofInteraction .plain) := ⟨⟨rfl, rfl⟩, rfl, rfl⟩

theorem ledger_reconciled_plain :
    (∀ customer f, total (after settled).db.usage customer (fun _ => True) f =
      ((after settled).db.auditEvents.map (amount (after settled).db.queue customer f)).sum) ∧
    total (after settled).db.usage 1 (fun _ => True) .reservedTokens = 1700 ∧
    total (after settled).db.usage 1 (fun _ => True) .usedTokens = 1500 := by
  refine ⟨fun customer f => ledger_reconciled run_settled unwritten_plain customer f fun _ a mem => ?_,
    by decide +kernel, by decide +kernel⟩
  simp only [settled, List.mem_cons, List.not_mem_nil, or_false] at mem
  rcases mem with rfl | rfl | rfl | rfl | rfl
  case inr.inr.inr.inl => exact (by decide +kernel : Number.Whole (.float 1500))
  all_goals trivial

theorem references_kept_plain :
    ((∀ e ∈ (after settled).db.auditEvents, Names (after settled).db e ∧
      ((after settled).db.interactions.find? e.interactionId).isSome) ∧
    ∀ letter ∈ (after settled).db.queue.deadLetterJobs, Buries (after settled).db letter ∧
      ((after settled).db.interactions.find? letter.interactionId).isSome) ∧
    (after settled).db.queue.deadLetterJobs.length = 1 :=
  ⟨references_kept run_settled unwritten_plain, by decide +kernel⟩

end PostCall.Properties
