import PostCall.Machine.Keys

/-!
# The shape of a call

What the workers make of one orchestration job. `Legal` says which rows there may be and why; each
move keeps all rows legal, since a finished analysis stays as it is behind the fence. That there is
at most one row of each kind follows from the keys, which are unique: the kind determines the key,
but for the call stage, and the stage is the one that the analysis was completed with.
-/

namespace PostCall.Properties
open PostCall.Library PostCall.Python PostCall.Model PostCall.Machine

variable {cfg : Settings} {text : Text} {w w₀ : World} {a : Action} {as : List Action}
  {db db' : Db} {l : Label} {root job : JobIdentity} {row : InteractionJob}

/-- The transcript was extracted, and has fewer than four turns. -/
def Short (payload : Dict) : Prop := ∃ turns, transcript payload = .ok turns ∧ turns.length < 4

/-- The job is one of the call that the root is about. -/
structure SameCall (root job : JobIdentity) : Prop where
  interactionId : job.interactionId = root.interactionId
  sessionId : job.sessionId = root.sessionId
  leadId : job.leadId = root.leadId
  campaignId : job.campaignId = root.campaignId
  customerId : job.customerId = root.customerId

/-- The tail is one of a result job for this stage. -/
def ResultTail (stage : String) (t : Tail) : Prop := t = .signal stage ∨ t = .lead stage

/-- The type and the key of the job are those of the tail. -/
structure Under (root : JobIdentity) (t : Tail) (job : JobIdentity) : Prop where
  jobType : job.jobType = t.jobType
  key : job.idempotencyKey = jobKey root.interactionId t.text

/-- What a row may be. -/
inductive Legal (text : Text) (root : JobIdentity) (db : Db) (job : JobIdentity) : Prop where
  | root :
    job = root →
    Legal text root db job
  | recording :
    Under root .recording job →
    hasCallSid root.payload →
    Legal text root db job
  | analysis :
    Under root .analysis job →
    ¬ Short root.payload →
    Legal text root db job
  | shortCall {t} :
    Under root t job →
    ResultTail "short_call" t →
    Short root.payload →
    job.payload = resultPayload root.payload (shortCallResult "short_call") →
    Legal text root db job
  | result {t} {analysis : InteractionJob} :
    Under root t job →
    ResultTail (callStageText text analysis.result) t →
    analysis ∈ db.queue.jobs.rows →
    analysis.jobType = .llmAnalysis →
    analysis.status = .succeeded →
    job.payload = resultPayload analysis.payload analysis.result →
    Legal text root db job

/-- All rows are legal rows of the call. -/
def AllLegal (text : Text) (root : JobIdentity) (db : Db) : Prop :=
  ∀ row ∈ db.queue.jobs.rows, SameCall root row.toJobIdentity ∧ Legal text root db row.toJobIdentity

/-- What the workers do to the rows of the call behind the fence. -/
def workerMoves (cfg : Settings) (text : Text) (root : JobIdentity) : Label → Prop
  | .create row => ∃ new, row = new.row cfg ∧ Child root new
  | .succeed job result _ _ children => ∀ row ∈ children, job.jobType = .llmAnalysis ∧
      ∃ new, ResultOf text job.toJobIdentity job.payload result new ∧ row = new.row cfg
  | .fail job _ _ => job.status = .running
  | _ => True

lemma unfinished_of_move (m : Move cfg db l db') (ok : workerMoves cfg text root l)
    {job : InteractionJob} (e : l.job? = some job) : job.status ≠ .succeeded := by
  cases m with
  | aside => cases e
  | create => cases e
  | claim _ ready =>
    cases e
    rcases ready with ready | ready <;> simp [ready]
  | recover _ running =>
    cases e
    simp [running]
  | succeed _ running =>
    cases e
    simp [running]
  | fail =>
    cases e
    simp [show _ = JobStatus.running from ok]
  | refuse _ running =>
    cases e
    simp [running]

/-- A legal row stays legal: the analysis that it comes from is left alone. -/
lemma legal_move (m : Move cfg db l db') (ok : workerMoves cfg text root l)
    (h : Legal text root db job) : Legal text root db' job := by
  cases h with
  | root e => exact .root e
  | recording under sid => exact .recording under sid
  | analysis under long => exact .analysis under long
  | shortCall under tail short payload => exact .shortCall under tail short payload
  | result under tail mem type succeeded payload =>
    refine .result under tail (m.mem_of_ne mem fun job e id => ?_) type succeeded payload
    obtain rfl := Table.eq_of_key mem (m.job_mem e) id
    exact unfinished_of_move m ok e succeeded

section Child

variable {parent : JobIdentity} {birth : Birth} {priority : JobPriority} {tail : String}
  {payload : Dict} {tokenEstimate : ℤ} {maxAttempts : Option ℕ}

/-- What a job of the call queues is of the call. -/
lemma SameCall.child {jobType : JobType} (call : SameCall root parent) :
    SameCall root ((NewJob.child parent birth jobType priority tail payload tokenEstimate
      maxAttempts).row cfg).toJobIdentity :=
  ⟨call.1, call.2, call.3, call.4, call.5⟩

lemma under_child (t : Tail) (call : SameCall root parent) (e : tail = t.text) :
    Under root t ((NewJob.child parent birth t.jobType priority tail payload tokenEstimate
      maxAttempts).row cfg).toJobIdentity := by
  refine ⟨rfl, ?_⟩
  rw [← e, ← call.interactionId]
  rfl

end Child

/-- A child of a legal job is legal. -/
lemma legal_child {new : NewJob} (h : Child root new) :
    SameCall root (new.row cfg).toJobIdentity ∧ Legal text root db (new.row cfg).toJobIdentity := by
  have call : SameCall root root := ⟨rfl, rfl, rfl, rfl, rfl⟩
  cases h with
  | recording sid => exact ⟨call.child, .recording (under_child .recording call rfl) sid⟩
  | shortSignal hturns few =>
    refine ⟨call.child, .shortCall (t := .signal "short_call") ?_ (.inl rfl) ⟨_, hturns, few⟩ rfl⟩
    exact under_child (.signal "short_call") call Tail.text_shortSignal.symm
  | shortLead hturns few =>
    refine ⟨call.child, .shortCall (t := .lead "short_call") ?_ (.inr rfl) ⟨_, hturns, few⟩ rfl⟩
    exact under_child (.lead "short_call") call Tail.text_shortLead.symm
  | analysis hturns many =>
    refine ⟨call.child, .analysis (under_child .analysis call rfl) ?_⟩
    rintro ⟨turns, hturns', few⟩
    cases hturns.symm.trans hturns'
    exact many few

/-- What is queued for the result of an analysis of the call is legal, once the analysis has
succeeded with that result. -/
lemma legal_result {analysis : InteractionJob} {new : NewJob}
    (h : ResultOf text analysis.toJobIdentity analysis.payload analysis.result new)
    (call : SameCall root analysis.toJobIdentity) (mem : analysis ∈ db.queue.jobs.rows)
    (type : analysis.jobType = .llmAnalysis) (succeeded : analysis.status = .succeeded) :
    SameCall root (new.row cfg).toJobIdentity ∧ Legal text root db (new.row cfg).toJobIdentity := by
  cases h with
  | signal =>
    refine ⟨call.child, .result ?_ (.inl rfl) mem type succeeded rfl⟩
    exact under_child (.signal _) call rfl
  | lead =>
    refine ⟨call.child, .result ?_ (.inr rfl) mem type succeeded rfl⟩
    exact under_child (.lead _) call rfl

/-- A move of a worker keeps the rows legal. -/
lemma allLegal_move (m : Move cfg db l db') (ok : workerMoves cfg text root l)
    (h : AllLegal text root db) : AllLegal text root db' := by
  intro row mem
  rcases m.of_mem mem with ⟨row₀, mem₀, same⟩ | born
  · obtain ⟨call, legal⟩ := h row₀ mem₀
    rw [same]
    exact ⟨call, legal_move m ok legal⟩
  · cases l with
    | create =>
      obtain ⟨new, e, child⟩ := ok
      rw [List.mem_singleton.1 born, e]
      exact legal_child child
    | succeed job result tokensUsed now children =>
      obtain ⟨type, new, of, rfl⟩ := ok row born
      have call := (h job (m.job_mem rfl)).1
      have completed : job.markSucceeded result tokensUsed now ∈ db'.queue.jobs.rows :=
        (m.effect.rows _).2 (.inr (.inr rfl))
      -- the completed row has the payload and the result that the children were made of
      have of' : ResultOf text (job.markSucceeded result tokensUsed now).toJobIdentity job.payload
        result new := of
      exact legal_result of' call completed type rfl
    | _ => cases born

/-! ### What the type of a legal row says -/

/-- A job of another type is not the root. -/
lemma ne_root (type : root.jobType = .orchestrateInteraction)
    (other : job.jobType ≠ .orchestrateInteraction) : job ≠ root := by
  rintro rfl
  exact other type

/-- A result job has one of two types. -/
lemma Under.result {stage : String} {t : Tail} (under : Under root t job)
    (tail : ResultTail stage t) : job.jobType = .signalJobs ∨ job.jobType = .leadStageUpdate := by
  rw [under.jobType]
  rcases tail with rfl | rfl
  · exact .inl rfl
  · exact .inr rfl

/-- The only orchestration job of the call is its root. -/
lemma eq_root (legal : Legal text root db job) (type : job.jobType = .orchestrateInteraction) :
    job = root := by
  cases legal with
  | root e => exact e
  | recording under => cases under.jobType.symm.trans type
  | analysis under => cases under.jobType.symm.trans type
  | shortCall under tail => exact absurd (under.result tail) (by simp [type])
  | result under tail => exact absurd (under.result tail) (by simp [type])

/-- A recording is fetched for a call that has an id. -/
lemma hasCallSid_of_recording (legal : Legal text root db job)
    (type : root.jobType = .orchestrateInteraction) (kind : job.jobType = .recordingFetch) :
    hasCallSid root.payload := by
  cases legal with
  | root e => exact absurd e (ne_root type (by simp [kind]))
  | recording _ sid => exact sid
  | analysis under => cases under.jobType.symm.trans kind
  | shortCall under tail => exact absurd (under.result tail) (by simp [kind])
  | result under tail => exact absurd (under.result tail) (by simp [kind])

/-- An analysis is of a call that is not short, and has the one key of an analysis. -/
lemma under_analysis (legal : Legal text root db job)
    (type : root.jobType = .orchestrateInteraction) (kind : job.jobType = .llmAnalysis) :
    Under root .analysis job ∧ ¬ Short root.payload := by
  cases legal with
  | root e => exact absurd e (ne_root type (by simp [kind]))
  | recording under => cases under.jobType.symm.trans kind
  | analysis under long => exact ⟨under, long⟩
  | shortCall under tail => exact absurd (under.result tail) (by simp [kind])
  | result under tail => exact absurd (under.result tail) (by simp [kind])

/-- A result job is for a short call, or for an analysis that has succeeded. -/
lemma of_result (legal : Legal text root db job) (type : root.jobType = .orchestrateInteraction)
    (kind : job.jobType = .signalJobs ∨ job.jobType = .leadStageUpdate) :
    (Short root.payload ∧
      job.payload = resultPayload root.payload (shortCallResult "short_call")) ∨
    ∃ analysis ∈ db.queue.jobs.rows, analysis.jobType = .llmAnalysis ∧
      analysis.status = .succeeded ∧ ∃ t, ResultTail (callStageText text analysis.result) t ∧
        Under root t job ∧ job.payload = resultPayload analysis.payload analysis.result := by
  cases legal with
  | root e => exact absurd e (ne_root type (by rcases kind with kind | kind <;> simp [kind]))
  | recording under => rcases kind with kind | kind <;> cases under.jobType.symm.trans kind
  | analysis under => rcases kind with kind | kind <;> cases under.jobType.symm.trans kind
  | shortCall _ _ short payload => exact .inl ⟨short, payload⟩
  | result under tail mem llm succeeded payload =>
    exact .inr ⟨_, mem, llm, succeeded, _, tail, under, payload⟩

/-! ### Every run of the workers -/

/-- The action is one of a worker. -/
def OfWorker : Action → Prop
  | .createIfAbsent _ | .endInteraction _ | .legacyTask _ _ => False
  | _ => True

/-- The actions of the workers make such moves. -/
lemma workerMoves_of_allowed (fence : Fenced w) (legal : AllLegal text root w.db)
    (worker : OfWorker a) (h : Allowed cfg text w a db l) : workerMoves cfg text root l := by
  cases h with
  | bare => exact worker.elim
  | webhook => exact worker.elim
  | legacy => exact worker.elim
  | child mem type child => exact ⟨_, rfl, eq_root (legal _ mem).2 type ▸ child⟩
  | orchestrated => exact fun _ h => nomatch h
  | unorchestrated _ running => exact running
  | @report n f _ _ _ job _ l hf _ mem of moves =>
    cases l with
    | succeed job' =>
      obtain ⟨rfl, _, born⟩ := moves.1
      intro row hr
      obtain ⟨snapshot, new, work, of', e⟩ := born row hr
      rw [work] at of
      cases of with
      | analysis same type =>
        have payload := congrArg JobIdentity.payload same
        exact ⟨type, new, payload ▸ of', e⟩
    | fail job' =>
      obtain ⟨rfl, _⟩ := moves
      exact fence.running (List.mem_of_getElem? hf) mem of.jobId.symm
    | create => exact moves.1.elim
    | _ => trivial
  | _ => trivial

/-- Every run of the workers keeps the rows legal. -/
lemma allLegal_of_run
    (run : Run (World.step cfg text) (fun w a => OfWorker a ∧ Unrecovered cfg w a) w₀ as w)
    (legal : AllLegal text root w₀.db) (idle : w₀.inflight = []) : AllLegal text root w.db := by
  refine (run.invariant (I := fun w => Fenced w ∧ AllLegal text root w.db) ⟨.of_idle idle, legal⟩
    fun w a h ok => ?_).2
  obtain ⟨fence, legal⟩ := h
  refine ⟨fence.step ok.2, (step_path cfg text fence.sound a).invariant legal
    fun _ _ _ h m allowed => ?_⟩
  exact allLegal_move m (workerMoves_of_allowed fence legal ok.1 allowed) h

/-! ### One row of each kind -/

/-- The stage of the call: that of a short one, or of the analysis that has succeeded. -/
def StageOf (text : Text) (root : JobIdentity) (db : Db) (stage : String) : Prop :=
  (Short root.payload ∧ stage = "short_call") ∨ ∃ analysis ∈ db.queue.jobs.rows,
    analysis.jobType = .llmAnalysis ∧ stage = callStageText text analysis.result

/-- A legal row is the root, or has the tail that its type and the stage determine. -/
lemma Legal.tail (h : Legal text root db job) :
    job = root ∨ ∃ t, Under root t job ∧ ∀ s, ResultTail s t → StageOf text root db s := by
  cases h with
  | root e => exact .inl e
  | recording under => exact .inr ⟨_, under, fun s h => by rcases h with h | h <;> cases h⟩
  | analysis under => exact .inr ⟨_, under, fun s h => by rcases h with h | h <;> cases h⟩
  | shortCall under tail short =>
    refine .inr ⟨_, under, fun s h => .inl ⟨short, ?_⟩⟩
    rcases tail with rfl | rfl <;> rcases h with h | h <;> cases h <;> rfl
  | result under tail mem type =>
    refine .inr ⟨_, under, fun s h => .inr ⟨_, mem, type, ?_⟩⟩
    rcases tail with rfl | rfl <;> rcases h with h | h <;> cases h <;> rfl

section Unique

variable (legal : AllLegal text root db) (type : root.jobType = .orchestrateInteraction)

include legal type

lemma stage_unique {s s' : String} (h : StageOf text root db s) (h' : StageOf text root db s') :
    s = s' := by
  rcases h with ⟨short, rfl⟩ | ⟨analysis, mem, llm, rfl⟩ <;>
    rcases h' with ⟨short', rfl⟩ | ⟨analysis', mem', llm', rfl⟩
  · rfl
  · exact absurd short (under_analysis (legal _ mem').2 type llm').2
  · exact absurd short' (under_analysis (legal _ mem).2 type llm).2
  · have key := (under_analysis (legal _ mem).2 type llm).1.key
    have key' := (under_analysis (legal _ mem').2 type llm').1.key
    rw [Table.eq_of_index mem mem' (key.trans key'.symm)]

/-- Two legal rows of one type are the same row. -/
lemma legal_unique {row row' : InteractionJob} (mem : row ∈ db.queue.jobs.rows)
    (mem' : row' ∈ db.queue.jobs.rows) (same : row.jobType = row'.jobType) : row = row' := by
  rcases (legal row mem).2.tail with e | ⟨t, under, stage⟩ <;>
    rcases (legal row' mem').2.tail with e' | ⟨t', under', stage'⟩
  · exact Table.eq_of_key mem mem' (congrArg JobIdentity.id (e.trans e'.symm))
  · have other := under'.jobType.symm.trans (same.symm.trans (congrArg JobIdentity.jobType e))
    cases t' <;> cases other.trans type
  · have other := under.jobType.symm.trans (same.trans (congrArg JobIdentity.jobType e'))
    cases t <;> cases other.trans type
  · -- the type determines the tail, since there is one stage
    have types : t.jobType = t'.jobType := under.jobType.symm.trans (same.trans under'.jobType)
    have tails : t = t' := by
      cases t <;> cases t' <;> first | rfl | cases types
      case signal.signal => rw [stage_unique legal type (stage _ (.inl rfl)) (stage' _ (.inl rfl))]
      case lead.lead => rw [stage_unique legal type (stage _ (.inr rfl)) (stage' _ (.inr rfl))]
    subst tails
    exact Table.eq_of_index mem mem' (under.key.trans under'.key.symm)

end Unique

/-- There is at most one row of this type. -/
def AtMostOne (w : World) (type : JobType) : Prop :=
  (w.db.queue.jobs.rows.filter (·.jobType = type)).length ≤ 1

/-- Rows that are equal by their type are one at most. -/
lemma atMostOne_of_unique {type : JobType}
    (h : ∀ row ∈ w.db.queue.jobs.rows, ∀ row' ∈ w.db.queue.jobs.rows,
      row.jobType = row'.jobType → row = row') : AtMostOne w type := by
  have nodup : (w.db.queue.jobs.rows.filter (·.jobType = type)).Nodup :=
    (List.Nodup.of_map _ w.db.queue.jobs.keyNodup).filter _
  unfold AtMostOne
  cases e : w.db.queue.jobs.rows.filter (·.jobType = type) with
  | nil => simp
  | cons row rest =>
    cases rest with
    | nil => simp
    | cons row' rest =>
      have found : ∀ job ∈ row :: row' :: rest, job ∈ w.db.queue.jobs.rows ∧ job.jobType = type := by
        intro job hj
        rw [← e, List.mem_filter] at hj
        simpa using hj
      obtain ⟨mem, t⟩ := found row List.mem_cons_self
      obtain ⟨mem', t'⟩ := found row' (List.mem_cons_of_mem _ List.mem_cons_self)
      rw [e, h row mem row' mem' (t.trans t'.symm)] at nodup
      simp at nodup

/-- The shape of the call. -/
structure Shape (text : Text) (root : JobIdentity) (w : World) : Prop where
  call : ∀ row ∈ w.db.queue.jobs.rows, SameCall root row.toJobIdentity
  one : ∀ type, AtMostOne w type
  recording : ∀ row ∈ w.db.queue.jobs.rows, row.jobType = .recordingFetch → hasCallSid root.payload
  short : Short root.payload → ∀ row ∈ w.db.queue.jobs.rows, row.jobType ≠ .llmAnalysis ∧
    (row.jobType = .signalJobs ∨ row.jobType = .leadStageUpdate →
      row.payload = resultPayload root.payload (shortCallResult "short_call"))
  long : ¬ Short root.payload → ∀ row ∈ w.db.queue.jobs.rows,
    row.jobType = .signalJobs ∨ row.jobType = .leadStageUpdate →
      ∃ analysis ∈ w.db.queue.jobs.rows, analysis.jobType = .llmAnalysis ∧
        analysis.status = .succeeded ∧ ∃ t, ResultTail (callStageText text analysis.result) t ∧
          Under root t row.toJobIdentity ∧
          row.payload = resultPayload analysis.payload analysis.result

/-- What the workers make of one orchestration job has the shape of a call, in every run in which no
job is recovered while a worker that claimed it can still report. -/
theorem shape_of_run
    (run : Run (World.step cfg text) (fun w a => OfWorker a ∧ Unrecovered cfg w a) w₀ as w)
    (start : w₀.db.queue.jobs.rows = [row]) (type : row.jobType = .orchestrateInteraction)
    (idle : w₀.inflight = []) : Shape text row.toJobIdentity w := by
  have legal : AllLegal text row.toJobIdentity w.db := by
    refine allLegal_of_run run (fun job mem => ?_) idle
    rw [start, List.mem_singleton] at mem
    subst mem
    exact ⟨⟨rfl, rfl, rfl, rfl, rfl⟩, .root rfl⟩
  refine ⟨fun job mem => (legal job mem).1, fun t => ?_,
    fun job mem => hasCallSid_of_recording (legal job mem).2 type,
    fun short job mem => ⟨fun kind => ?_, fun kind => ?_⟩, fun long job mem kind => ?_⟩
  · exact atMostOne_of_unique fun _ mem _ mem' => legal_unique legal type mem mem'
  · exact (under_analysis (legal job mem).2 type kind).2 short
  · rcases of_result (legal job mem).2 type kind with ⟨_, payload⟩ | ⟨_, mem', llm, _⟩
    · exact payload
    · exact absurd short (under_analysis (legal _ mem').2 type llm).2
  · rcases of_result (legal job mem).2 type kind with ⟨short, _⟩ | analysed
    · exact absurd short long
    · exact analysed

/-- An orchestration that breaks off between the two result jobs of a short call, and the one that
follows it. -/
def brokenOff : List Action := [
  .orchestrate "orchestrator" 1 (.at 0) (.at 0) fun _ => ⟨Birth.plain, broken, fun _ => 0⟩,
  .claimRecordings "recorder" 1 (.at 0),
  .orchestrate "orchestrator" 1 (.at (seconds 200)) (.at (seconds 200)) fun _ =>
    ⟨Birth.plain, fun _ => none, fun _ => seconds 200⟩]
where
  broken (n : ℕ) : Option PyError := if n = 4 then some (.valueError "broken off") else none

/-- The orchestration job of a call without a transcript. -/
def calledOnce : List Action :=
  [.createIfAbsent (.plain 1 .orchestrateInteraction [("call_sid", .str "call")])]

theorem shape_of_run_plain : ∃ row, Shape .plain row (after (calledOnce ++ brokenOff)) := by
  have run : Run (World.step settings .plain)
      (fun w a => OfWorker a ∧ Unrecovered settings w a) (after calledOnce) brokenOff
      (after (calledOnce ++ brokenOff)) :=
    .cons ⟨trivial, NoTimeout.unrecovered (by decide +kernel)⟩
      (.cons ⟨trivial, NoTimeout.unrecovered (by decide +kernel)⟩
        (.cons ⟨trivial, NoTimeout.unrecovered (by decide +kernel)⟩ .nil))
  exact ⟨_, shape_of_run run rfl rfl rfl⟩

end PostCall.Properties
