import PostCall.Model.Orchestrator

/-!
# The LLM worker

`src/llm_workers/worker.py`, with `_parse_response` and `_build_analysis_prompt` of
`src/services/post_call_processor.py`. The worker claims and reserves in one transaction, calls the
provider outside of any, and reports in another one. A raise inside a transaction leaves it rolled back.
-/

namespace PostCall.Model
open PostCall.Library PostCall.Python

structure ClaimedLLMJob where
  id : UUID
  interactionId : UUID
  sessionId : UUID
  leadId : UUID
  campaignId : UUID
  customerId : UUID
  priority : JobPriority
  attempts : ℕ
  tokenEstimate : ℤ
  payload : Dict

/-- What the processor is given of a call. -/
structure PostCallContext where
  interactionId : String
  sessionId : String
  leadId : String
  campaignId : String
  customerId : String
  agentId : String
  callSid : String
  transcriptText : String
  conversationData : Json
  additionalData : Json
  endedAt : Time
  exotelAccountId : Json

/-- The `system_prompt` of `_build_analysis_prompt`. -/
def systemPrompt : String := "\n".intercalate [
  "You are a call analysis assistant. Analyze the following",
  "call transcript and extract:",
  "1. call_stage: The outcome/disposition of the call",
  "2. entities: Key information mentioned (dates, times, amounts, names, preferences)",
  "3. summary: A brief summary of what happened in the call",
  "",
  "Respond in JSON format:",
  "\x7b",
  "    \"call_stage\": \"...\",",
  "    \"entities\": \x7b...\x7d,",
  "    \"summary\": \"...\"",
  "\x7d"]

/-- `_build_analysis_prompt`, with `json.dumps`. Its last argument is not used. -/
def buildAnalysisPrompt (dumps : Json → String) (transcript : String) (additionalData : Json) :
    String :=
  systemPrompt ++ "\n\nTranscript:\n" ++ transcript ++ "\n\nAdditional context:\n" ++
    dumps additionalData

/-- What the provider call does: it returns an object, or it raises. -/
inductive ProviderOutcome where
  | returns (response : Dict)
  | rateLimited (message : String) (retryAfterSeconds : ℤ)
  | raises (e : PyError)

def parseResponse (cfg : Settings) (response : Dict) : Except PyError AnalysisResult := do
  let usage ← (response.getD "usage" (.dict [])).asDict
  return {
    callStage := response.getD "call_stage" (.str "unknown")
    entities := response.getD "entities" (.dict [])
    summary := response.getD "summary" (.str "")
    rawResponse := response
    tokensUsed := usage.getD "total_tokens" (.int 0)
    provider := cfg.llmProvider
    model := cfg.llmModel }

/-- The number that `used_tokens += x` adds. The driver truncates a float for a column of type
`Integer`, which takes none that is no number. -/
def Json.asTokens : Json → Except PyError Number
  | .int n => .ok (.int n)
  | .bool b => .ok (.int (if b then 1 else 0))
  | .float q => .ok (.float q)
  | .nonFinite _ => .error (.dataError "value out of int32 range")
  | j => .error (.typeError s!"unsupported operand type(s) for +=: 'int' and '{j.typeName}'")

/-- The branch of `_claim_admitted_jobs` for a job the rate limiter refused. The clock is read for
the window and for `run_after`. -/
def Db.deferRefused (clock : Clock) (job : InteractionJob) (admission : ReservationResult)
    (db : Db) : Db :=
  let runAfter := clock 1 + seconds admission.deferSeconds
  let message := "LLM admission deferred by rate limiter"
  let db := db.mapQueue (·.recordRefusal job.id job.attempts)
  let db := db.mapQueue (·.defer job.id runAfter admission.reason message)
  db.emit (job.defer runAfter admission.reason message) "llm_scheduler" "deferred"
    "llm_job_deferred_by_rate_limiter" (some admission.reason)

lemma Db.deferRefused_queue {clock : Clock} {job : InteractionJob} {admission : ReservationResult}
    {db : Db} :
    (db.deferRefused clock job admission).queue =
      (db.queue.recordRefusal job.id job.attempts).defer job.id
        (clock 1 + seconds admission.deferSeconds) admission.reason
        "LLM admission deferred by rate limiter" := rfl

namespace LLMWorkerService

def snapshot (job : InteractionJob) : ClaimedLLMJob where
  id := job.id
  interactionId := job.interactionId
  sessionId := job.sessionId
  leadId := job.leadId
  campaignId := job.campaignId
  customerId := job.customerId
  priority := job.priority
  attempts := job.attempts
  tokenEstimate := job.tokenEstimate
  payload := job.payload

def customerBudget (payload : Dict) : Except PyError (Option ℤ) := do
  let additional ← (orElse (payload.get? "additional_data") (.dict [])).asDict
  let budget := additional.getD "customer_token_budget_per_minute" .null
  if budget.truthy then some <$> budget.toInt else return none

/-- One pass of the loop in `_claim_admitted_jobs`. -/
def admitJob (cfg : Settings) (clock : Clock) (job : InteractionJob) :
    Tx (Option ClaimedLLMJob) := do
  let budget ← Program.ofExcept (customerBudget job.payload)
  let (usage, admission) ← Program.ofExcept
    ((← get).usage.rateLimiterAdmit cfg job.customerId job.tokenEstimate job.priority (clock 0) budget)
  modify ({ · with usage := usage })
  if admission.allowed then
    Tx.emit job "llm_scheduler" "admitted" "llm_job_admitted"
    return some (snapshot job)
  else
    modify (·.deferRefused clock job admission)
    return none

/-- The loop in `_claim_admitted_jobs`. -/
def admitJobs (cfg : Settings) (clock : UUID → Clock) :
    List InteractionJob → Tx (List ClaimedLLMJob)
  | [] => return []
  | job :: jobs => do
    let admitted ← admitJob cfg (clock job.id) job
    let rest ← admitJobs cfg clock jobs
    return admitted.toList ++ rest

def claimAdmittedJobs (cfg : Settings) (workerId : String) (limit : ℕ) (recovery : RecoveryClock)
    (query : ClaimQuery) (clock : UUID → Clock) : Tx (List ClaimedLLMJob) := do
  Tx.recoverStaleRunningJobs cfg workerId recovery
  let jobs ← Tx.claimReadyJobs workerId [.llmAnalysis] limit query
  admitJobs cfg clock jobs

/-- The first part of the success transaction of `_process_snapshot`: the analysis and the usage are
recorded. The columns of the job that take the tokens and the answer are those `mark_succeeded`
writes next. -/
def recordAnalysis (cfg : Settings) (text : Text) (clock : Clock) (snapshot : ClaimedLLMJob)
    (result : AnalysisResult) : Tx Number := do
  modify fun db => db.updateAnalysisResult text snapshot.interactionId result (clock 0)
  let tokensUsed ← Program.ofExcept (Json.asTokens result.tokensUsed)
  let budget ← Program.ofExcept (customerBudget snapshot.payload)
  let usage ← Program.ofExcept
    ((← get).usage.recordUsage cfg snapshot.customerId tokensUsed (clock 1) budget)
  modify ({ · with usage := usage })
  if fitsInteger tokensUsed.trunc && (Json.dict result.rawResponse).storable then return tokensUsed
  else throw (.dataError "invalid input for a column of interaction_jobs")

/-- The success transaction of `_process_snapshot`, for a job that is still running. The clock is
read for the metadata, for the window and for the completion time. -/
def succeed (cfg : Settings) (text : Text) (births : ChildSlot → Birth) (clock : Clock)
    (snapshot : ClaimedLLMJob) (result : AnalysisResult) (job : InteractionJob) : Tx Unit := do
  let tokensUsed ← recordAnalysis cfg text clock snapshot result
  let job ← Tx.markSucceeded job result.rawResponse tokensUsed.trunc (clock 2)
  Tx.queueResultJobs cfg text births job.toJobIdentity snapshot.payload result.rawResponse
    job.priority (callStageText text result.rawResponse)
  if tokensUsed.val < 0 then
    throw (.valueError "Counters can only be incremented by non-negative amounts.")
  Tx.emit job "llm_worker" "succeeded" "llm_analysis_completed"

/-- The success transaction of `_process_snapshot`. -/
def complete (cfg : Settings) (text : Text) (births : ChildSlot → Birth) (clock : Clock)
    (snapshot : ClaimedLLMJob) (result : AnalysisResult) : Tx Unit := do
  match (← get).queue.get? snapshot.id with
  | none => return
  | some job =>
    if job.status = .running then succeed cfg text births clock snapshot result job

/-- What the `try` block of `_process_snapshot` gives, or what its `except` clauses report. -/
def processPostCall (cfg : Settings) : ProviderOutcome → Except Failure AnalysisResult
  | .returns response =>
    match parseResponse cfg response with
    | .ok result => .ok result
    | .error e => .error ⟨"llm_worker", e.className, e.message, none, true⟩
  | .rateLimited message retryAfterSeconds =>
    .error ⟨"llm_worker", "LLM_RATE_LIMIT", message, some retryAfterSeconds, true⟩
  | .raises e => .error ⟨"llm_worker", e.className, e.message, none, true⟩

def processSnapshot (cfg : Settings) (text : Text) (births : ChildSlot → Birth) (clock : Clock)
    (snapshot : ClaimedLLMJob) (outcome : ProviderOutcome) : Except Failure (Tx Unit) :=
  complete cfg text births clock snapshot <$> processPostCall cfg outcome

/-- `_context_from_snapshot`, with `datetime.fromisoformat` and the time now. -/
def contextFromSnapshot (text : Text) (fromisoformat : String → Except PyError Time) (utcnow : Time)
    (snapshot : ClaimedLLMJob) : Except PyError PostCallContext := do
  let payload := snapshot.payload
  let endedAt ← match payload.get? "ended_at" with
    | some (.str endedAt) => fromisoformat endedAt
    | _ => pure utcnow
  return {
    interactionId := snapshot.interactionId.str
    sessionId := snapshot.sessionId.str
    leadId := snapshot.leadId.str
    campaignId := snapshot.campaignId.str
    customerId := snapshot.customerId.str
    agentId := text.str (payload.getD "agent_id" (.str ""))
    callSid := text.str (orElse (payload.get? "call_sid") (.str ""))
    transcriptText := text.str (orElse (payload.get? "transcript_text") (.str ""))
    conversationData := orElse (payload.get? "conversation_data") (.dict [])
    additionalData := orElse (payload.get? "additional_data") (.dict [])
    endedAt := endedAt
    exotelAccountId := payload.getD "exotel_account_id" .null }

/-- What the environment decides about one job of a batch. -/
structure Turn where
  utcnow : Time
  provider : PostCallContext → ProviderOutcome
  births : ChildSlot → Birth
  clock : Clock

section Batch

variable (cfg : Settings) (text : Text) (fromisoformat : String → Except PyError Time)
  (turn : UUID → Turn)

/-- `_process_snapshot`, from the context on: what the last transaction raised, or the context. -/
def processOne (snapshot : ClaimedLLMJob) (db : Db) : Except PyError Db := do
  let turn := turn snapshot.id
  let ctx ← contextFromSnapshot text fromisoformat turn.utcnow snapshot
  attempt (Tx.conclude cfg turn.clock snapshot.id
    (processSnapshot cfg text turn.births turn.clock snapshot (turn.provider ctx))) db

/-- The loop of `run_once`. A raise ends it, with what the jobs before have left. -/
def processEach : List ClaimedLLMJob → Db → Except PyError Unit × Db
  | [], db => (.ok (), db)
  | snapshot :: snapshots, db =>
    match processOne cfg text fromisoformat turn snapshot db with
    | .ok db => processEach snapshots db
    | .error e => (.error e, db)

def runOnce (workerId : String) (limit : ℕ) (recovery : RecoveryClock) (query : ClaimQuery)
    (clock : UUID → Clock) (db : Db) : Except PyError ℕ × Db :=
  match claimAdmittedJobs cfg workerId limit recovery query clock db with
  | .error e _ => (.error e, db)
  | .ok admitted db =>
    match processEach cfg text fromisoformat turn admitted db with
    | (.ok _, db) => (.ok admitted.length, db)
    | (.error e, db) => (.error e, db)

end Batch

end LLMWorkerService

end PostCall.Model
