import PostCall.Machine.Executions
import PostCall.Machine.Frame

/-!
# Leads

Only the side effect of a result job writes the stage of a lead: every other transaction leaves the
leads alone, whether it returns or raises. `stageWrite?` is the job whose stage an action commits.
-/

namespace PostCall.Machine
open PostCall.Library PostCall.Python PostCall.Model

variable {cfg : Settings} {text : Text} {db db' : Db} {w : World} {a : Action}

/-- The leads are as before. -/
def SameLeads (db db' : Db) : Prop := db'.leads = db.leads

instance : IsPreorder Db SameLeads where
  refl _ := rfl
  trans _ _ _ h h' := h'.trans h

section Programs

/-- What leaves the books alone leaves the leads alone. -/
lemma leads_of_books {α : Type} {x : Tx α} (h : Within SameBooks x) : Within SameLeads x :=
  h.mono fun _ _ books => books.leads

lemma leads_admitJobs {clock : UUID → Clock} {jobs : List InteractionJob} :
    Within SameLeads (LLMWorkerService.admitJobs cfg clock jobs) := by
  induction jobs with
  | nil => exact .pure
  | cons job jobs ih =>
    refine .bind ?_ fun _ => .bind ih fun _ => .pure
    refine .bind .ofExcept fun _ => .bind .get fun _ => .bind .ofExcept fun _ => ?_
    refine .bind (.modify fun _ => rfl) fun _ => ?_
    split
    · exact .bind (leads_of_books books_emit) fun _ => .pure
    · exact .bind (.modify fun _ => rfl) fun _ => .pure

lemma leads_claimAdmittedJobs {workerId : String} {limit : ℕ} {recovery : RecoveryClock}
    {query : ClaimQuery} {clock : UUID → Clock} : Within SameLeads
      (LLMWorkerService.claimAdmittedJobs cfg workerId limit recovery query clock) :=
  .bind (leads_of_books books_mapQueue) fun _ =>
    .bind (leads_of_books books_claimReadyJobs) fun _ => leads_admitJobs

lemma leads_succeed {births : ChildSlot → Birth} {clock : Clock} {snapshot : ClaimedLLMJob}
    {result : AnalysisResult} {job : InteractionJob} :
    Within SameLeads (LLMWorkerService.succeed cfg text births clock snapshot result job) := by
  have recorded : Within SameLeads
      (LLMWorkerService.recordAnalysis cfg text clock snapshot result) := by
    refine .bind (.modify fun _ => rfl) fun _ => .bind .ofExcept fun _ => .bind .ofExcept fun _ => ?_
    refine .bind .get fun _ => .bind .ofExcept fun _ => .bind (.modify fun _ => rfl) fun _ => ?_
    split
    · exact .pure
    · exact .throw
  refine .bind recorded fun _ => .bind (leads_of_books books_markSucceeded) fun _ => ?_
  refine .bind (leads_of_books books_queueResultJobs) fun _ => ?_
  split
  · exact .throw
  · exact leads_of_books books_emit

lemma leads_conclude {work : Work} {outcome : Outcome} {clock : Clock} {jobId : UUID}
    {conclusion : Except Failure (Tx Unit)}
    (h : work.conclusion cfg text clock outcome = some conclusion) :
    Within SameLeads (Tx.conclude cfg clock jobId conclusion) := by
  cases conclusion with
  | error failure => exact leads_of_books books_handleFailure
  | ok complete =>
    change Within SameLeads complete
    cases concludes_of_conclusion h with
    | analysed =>
      refine .bind .get fun _ => ?_
      split
      · exact .pure
      split
      · exact leads_succeed
      · exact .pure
    | fetched => exact leads_of_books books_completeRecording
    | processed => exact leads_of_books books_completeResult

end Programs

/-! ### Writing a stage -/

/-- The stage of a lead that a payload asks for. -/
def carriedStage (payload : Dict) : Except PyError Json := do
  let analysisResult ← (orElse (payload.get? "analysis_result") (.dict [])).asDict
  mapCallStageToLeadStage (analysisResult.getD "call_stage" (.str "unknown"))

/-- The job whose stage an action commits. -/
def stageWrite? (w : World) : Action → Option ClaimedResultJob
  | .processResult n fault =>
    match w.inflight[n]? with
    | some ⟨.result snapshot, _⟩ =>
      if snapshot.jobType = .leadStageUpdate ∧
          (commit (ResultWorkerService.process snapshot fault) w.db).isSome then some snapshot
      else none
    | _ => none
  | _ => none

/-- An execution of a result job has the number, or nothing happens. -/
lemma processResult_cases (w : World) (n : ℕ) (fault : Option PyError) :
    (∃ snapshot claim, w.inflight[n]? = some ⟨.result snapshot, claim⟩) ∨
      (w.processResult n fault = w ∧ stageWrite? w (.processResult n fault) = none) := by
  cases e : w.inflight[n]? with
  | none => exact .inr ⟨by simp only [World.processResult, e], by simp only [stageWrite?, e]⟩
  | some f =>
    obtain ⟨work, claim⟩ := f
    cases work with
    | result snapshot => exact .inl ⟨snapshot, claim, rfl⟩
    | _ => exact .inr ⟨by simp only [World.processResult, e], by simp only [stageWrite?, e]⟩

/-- A committed stage is that of an execution of a lead stage job. -/
lemma execution_of_write {s : ClaimedResultJob} (h : stageWrite? w a = some s) :
    s.jobType = .leadStageUpdate ∧ ∃ n fault claim, a = .processResult n fault ∧
      w.inflight[n]? = some ⟨.result s, claim⟩ := by
  cases a with
  | processResult n fault =>
    rcases processResult_cases w n fault with ⟨snapshot, claim, e⟩ | ⟨_, silent⟩
    · simp only [stageWrite?, e] at h
      split at h
      case isFalse => cases h
      case isTrue both =>
        cases h
        exact ⟨both.1, n, fault, claim, rfl, e⟩
    · cases silent.symm.trans h
  | _ => cases h

/-- The stage of the lead is that of the call, and the other leads are as before. -/
lemma updateLeadStage_ok {leadId : UUID} {callStage : Json} {u : Unit}
    (h : Tx.updateLeadStage leadId callStage db = .ok u db') {id : UUID} {lead : Lead}
    (found : db.leads.find? id = some lead) :
    if leadId = id then
      ∃ stage, mapCallStageToLeadStage callStage = .ok (.str stage) ∧
        db'.leads.find? id = some (lead.setStage stage)
    else db'.leads.find? id = some lead := by
  unfold Tx.updateLeadStage at h
  rw [Program.bind_of_ok Program.get_run] at h
  cases row : db.leads.find? leadId with
  | none =>
    simp only [row] at h
    cases h
    have other : leadId ≠ id := fun e => by
      rw [e, found] at row
      cases row
    rw [if_neg other]
    exact found
  | some lead' =>
    simp only [row] at h
    obtain ⟨mapping, s, returned, written⟩ := Program.bind_ok.1 h
    obtain ⟨mapped, rfl⟩ := Program.ofExcept_run_ok.1 returned
    cases mapping with
    | str stage =>
      simp only at written
      split at written
      case isTrue => cases written
      case isFalse =>
        cases written
        split
        case isTrue same =>
          refine ⟨stage, mapped, ?_⟩
          rw [Table.find?_modify, if_pos same.symm, found]
          rfl
        case isFalse other => rw [Table.find?_modify, if_neg fun e => other e.symm, found]
    | _ => cases written

/-- The side effect of a result job that is not a lead stage job, if it returned. -/
lemma process_of_ne {snapshot : ClaimedResultJob} {fault : Option PyError} {u : Unit}
    (h : ResultWorkerService.process snapshot fault db = .ok u db')
    (type : snapshot.jobType ≠ .leadStageUpdate) : db' = db := by
  obtain ⟨_, s, interrupted, rest⟩ := Program.bind_ok.1 h
  have same : s = db := by
    cases fault with
    | none => cases interrupted; rfl
    | some e => cases interrupted
  cases other : snapshot.jobType with
  | leadStageUpdate => exact absurd other type
  | _ =>
    simp only [other] at rest
    cases rest
    exact same

/-- The side effect of a result job, if it returned: that of a lead stage job sets the stage of its
lead. -/
lemma process_ok {snapshot : ClaimedResultJob} {fault : Option PyError} {u : Unit}
    (h : ResultWorkerService.process snapshot fault db = .ok u db') {id : UUID} {lead : Lead}
    (found : db.leads.find? id = some lead) :
    if snapshot.jobType = .leadStageUpdate ∧ snapshot.leadId = id then
      ∃ stage, carriedStage snapshot.payload = .ok (.str stage) ∧
        db'.leads.find? id = some (lead.setStage stage)
    else db'.leads.find? id = some lead := by
  by_cases type : snapshot.jobType = .leadStageUpdate
  · obtain ⟨_, s, interrupted, rest⟩ := Program.bind_ok.1 h
    have same : s = db := by
      cases fault with
      | none => cases interrupted; rfl
      | some e => cases interrupted
    subst same
    simp only [type] at rest
    obtain ⟨analysisResult, s', returned, written⟩ := Program.bind_ok.1 rest
    obtain ⟨read, rfl⟩ := Program.ofExcept_run_ok.1 returned
    have outcome := updateLeadStage_ok written found
    simp only [type, true_and, carriedStage, read, bind, Except.bind]
    exact outcome
  · rw [if_neg fun both => type both.1, process_of_ne h type]
    exact found

/-- What an action leaves of a lead: the stage that it writes, if it is one for this lead. -/
def Leaves (w : World) (a : Action) (id : UUID) (lead : Lead) (db : Db) : Prop :=
  ∃ lead', db.leads.find? id = some lead' ∧
    ((∃ snapshot ∈ stageWrite? w a, snapshot.leadId = id ∧
        carriedStage snapshot.payload = .ok (.str lead'.stage)) ∨
      ((∀ snapshot ∈ stageWrite? w a, snapshot.leadId ≠ id) ∧ lead' = lead))

/-- A step that writes no stage leaves the leads as they are. -/
lemma leaves_of_same {id : UUID} {lead : Lead} (found : w.db.leads.find? id = some lead)
    (same : SameLeads w.db db) (silent : stageWrite? w a = none) : Leaves w a id lead db := by
  refine ⟨lead, same ▸ found, .inr ⟨fun snapshot h => ?_, rfl⟩⟩
  rw [silent] at h
  cases h

lemma leads_transact {α : Type} {x : Tx α} (kept : Within SameLeads x) :
    SameLeads db (World.transact db x) := by
  unfold World.transact commit
  cases e : x db with
  | ok a db' => exact kept.of_ok e
  | error => rfl

lemma leads_claim {α : Type} {x : Tx (List α)} {work : α → Work} (kept : Within SameLeads x) :
    SameLeads w.db (w.claim x work).db := by
  unfold World.claim commit
  cases e : x w.db with
  | ok a db' => exact kept.of_ok e
  | error => rfl

lemma leads_webhook {request : EndRequest} :
    SameLeads db (World.endInteraction cfg text db request) := by
  simp only [World.endInteraction, commit]
  cases e : endInteraction cfg text request db with
  | error => rfl
  | ok job db' =>
    have first := (leads_of_books books_endInteraction).of_ok e
    cases request.wakeup with
    | none => exact first
    | some failed =>
      have second : Within SameBooks (wakeupFailed job failed) :=
        .bind books_interrupt fun _ => books_emit
      exact (leads_transact (leads_of_books second)).trans first

/-- The `try` block of a result job writes the stage of its own call, if any. -/
lemma leaves_processResult {n : ℕ} {fault : Option PyError} {id : UUID} {lead : Lead}
    (found : w.db.leads.find? id = some lead) :
    Leaves w (.processResult n fault) id lead (w.processResult n fault).db := by
  rcases processResult_cases w n fault with ⟨snapshot, claim, e⟩ | ⟨same, silent⟩
  · cases ran : ResultWorkerService.process snapshot fault w.db with
    | error raised db =>
      refine leaves_of_same found ?_ ?_
      · simp only [World.processResult, e, ran]
        rfl
      · simp only [stageWrite?, e, commit, ran, Option.isSome_none, Bool.false_eq_true, and_false,
          if_false]
    | ok u db =>
      have outcome := process_ok ran found
      simp only [Leaves, stageWrite?, World.processResult, e, commit, ran, Option.isSome_some,
        and_true]
      by_cases both : snapshot.jobType = .leadStageUpdate ∧ snapshot.leadId = id
      · rw [if_pos both] at outcome
        obtain ⟨stage, carried, written⟩ := outcome
        rw [if_pos both.1]
        exact ⟨_, written, .inl ⟨snapshot, rfl, both.2, carried⟩⟩
      · rw [if_neg both] at outcome
        refine ⟨lead, outcome, .inr ⟨fun s h => ?_, rfl⟩⟩
        split at h
        case isTrue type =>
          cases h
          exact fun own => both ⟨type, own⟩
        case isFalse => cases h
  · exact leaves_of_same found (congrArg (fun w' : World => w'.db.leads) same) silent

/-- An action that commits no stage changes no lead. -/
lemma leads_of_silent (silent : stageWrite? w a = none) :
    SameLeads w.db (World.step cfg text w a).db := by
  cases a with
  | createIfAbsent => exact leads_transact (leads_of_books books_createIfAbsent)
  | recoverStaleRunningJobs => exact leads_transact (leads_of_books books_mapQueue)
  | endInteraction => exact leads_webhook
  | legacyTask => exact leads_transact (leads_of_books books_persistLegacyPayload)
  | orchestrate => exact leads_transact (leads_of_books books_runOnce)
  | claimAnalyses => exact leads_claim leads_claimAdmittedJobs
  | claimRecordings | claimResults =>
    exact leads_claim (.bind (leads_of_books books_claimReadyJobs) fun _ => .pure)
  | processResult n fault =>
    rcases processResult_cases w n fault with ⟨snapshot, claim, e⟩ | ⟨same, _⟩
    case inr => exact congrArg (fun w' : World => w'.db.leads) same
    cases ran : ResultWorkerService.process snapshot fault w.db with
    | error raised db => simp only [SameLeads, World.step, World.processResult, e, ran]
    | ok u db =>
      have type : snapshot.jobType ≠ .leadStageUpdate := fun type => by
        simp [stageWrite?, e, commit, ran, type] at silent
      simp only [SameLeads, World.step, World.processResult, e, ran, process_of_ne ran type]
  | report n outcome clock =>
    simp only [World.step, World.report]
    split
    case h_2 => rfl
    case h_1 =>
      split
      case h_2 => rfl
      case h_1 conclusion ends => exact leads_transact (leads_conclude ends)
  | crash => rfl

/-- What a step of the system leaves of a lead. -/
theorem lead_step {id : UUID} {lead : Lead} (found : w.db.leads.find? id = some lead) :
    Leaves w a id lead (World.step cfg text w a).db := by
  cases a with
  | processResult n fault => exact leaves_processResult found
  | _ => exact leaves_of_same found (leads_of_silent rfl) rfl

end PostCall.Machine
