import PostCall.Model.Orchestrator

/-!
# The entry points

The webhook (`src/api/endpoints.py`, `src/queues/durable.py`, with the properties of
`src/models/interaction.py` it reads) and the legacy task of `src/tasks/celery_tasks.py`. Both
persist an orchestration job. The webhook writes the canonical text of the interaction id into the
idempotency key, the legacy task the text its payload holds.
-/

namespace PostCall.Model
open PostCall.Library PostCall.Python

namespace Interaction

/-- `(self.conversation_data or {})`, before a key is read from it. -/
def conversation (interaction : Interaction) : Except PyError Dict :=
  (orElse (some interaction.conversationData) (.dict [])).asDict

/-- `Interaction.transcript_text`. -/
def transcriptText (text : Text) (interaction : Interaction) : Except PyError String := do
  match (← interaction.conversation).getD "transcript" (.list []) with
  | .list turns => Model.transcriptText text turns
  | transcript => return text.str transcript

/-- `Interaction.is_short_transcript`. -/
def isShortTranscript (interaction : Interaction) : Except PyError Bool := do
  let transcript := (← interaction.conversation).getD "transcript" (.list [])
  return (← Json.len transcript) < 4

/-- `Interaction.exotel_account_id`. -/
def exotelAccountId (interaction : Interaction) : Except PyError Json := do
  return (← interaction.conversation).getD "exotel_account_sid" .null

end Interaction

/-- A value or `None`. -/
def Json.ofOption (x : Option Json) : Json := x.getD .null

/-- `x or default`, for texts. -/
def orText (x default : Option String) : Option String :=
  match x with
  | some s => if s = "" then default else some s
  | none => default

/-- A wakeup of the worker that failed: what it raised, and what the transaction that records this
raises, if it does. -/
structure FailedWakeup where
  error : PyError
  fault : Option PyError

/-- `InteractionEndRequest` with the path of the request, what its transaction reads from the clock,
what a created row gets, and how the wakeup of the worker fails, if it does. -/
structure EndRequest where
  sessionId : UUID
  interactionId : UUID
  callSid : Option String
  durationSeconds : Option ℤ
  additionalData : Option Dict
  endedAt : Time
  birth : Birth
  wakeup : Option FailedWakeup

/-- The payload of `enqueue_interaction_ended`, for the row as `mark_ended` left it. -/
def endedPayload (text : Text) (interaction : Interaction) (request : EndRequest) :
    Except PyError Dict := do
  return [
    ("interaction_id", .str interaction.id.str),
    ("session_id", .str interaction.sessionId.str),
    ("lead_id", .str interaction.leadId.str),
    ("campaign_id", .str interaction.campaignId.str),
    ("customer_id", .str interaction.customerId.str),
    ("agent_id", .str interaction.agentId.str),
    ("call_sid", Json.ofOption ((orText request.callSid interaction.callSid).map .str)),
    ("duration_seconds", Json.ofOption (request.durationSeconds.map .int)),
    ("conversation_data", orElse (some interaction.conversationData) (.dict [])),
    ("transcript_text", .str (← interaction.transcriptText text)),
    ("additional_data", .dict (request.additionalData.getD [])),
    ("ended_at", .str (text.isoformat request.endedAt)),
    ("exotel_account_id", ← interaction.exotelAccountId)]

/-- The arguments of `create_if_absent` for an orchestration job, under a key that holds this text
of the interaction id. -/
def NewJob.root (birth : Birth) (interactionId sessionId leadId campaignId customerId : UUID)
    (idText : String) (payload : Dict) : NewJob where
  id := birth.id
  interactionId := interactionId
  sessionId := sessionId
  leadId := leadId
  campaignId := campaignId
  customerId := customerId
  jobType := .orchestrateInteraction
  priority := .high
  idempotencyKey := "interaction:" ++ idText ++ ":orchestrate:v1"
  payload := payload
  now := birth.now
  createdAt := birth.createdAt

def Tx.enqueueInteractionEnded (cfg : Settings) (text : Text) (interaction : Interaction)
    (request : EndRequest) : Tx InteractionJob := do
  let payload ← Program.ofExcept (endedPayload text interaction request)
  let job ← createIfAbsent cfg (.root request.birth interaction.id interaction.sessionId
    interaction.leadId interaction.campaignId interaction.customerId interaction.id.str payload)
  emit job "webhook" "queued" "interaction_end_workflow_queued"
  return job

/-- Whether the columns take the duration and the id of the call. -/
def EndRequest.fits (request : EndRequest) : Bool :=
  request.durationSeconds.all fitsInteger &&
    request.callSid.all fun s => s.length ≤ 255 && Json.storableText s

/-- The transaction of `end_interaction`. -/
def endInteraction (cfg : Settings) (text : Text) (request : EndRequest) : Tx InteractionJob := do
  match (← get).interactions.find? request.interactionId with
  | none => throw ⟨"HTTPException", "404: Interaction not found"⟩
  | some interaction =>
    if interaction.sessionId ≠ request.sessionId then
      throw ⟨"HTTPException", "409: Interaction does not belong to requested session"⟩
    else if !request.fits then throw (.dataError "invalid input for a column of interactions")
    else
      modify (·.markEnded request.interactionId request.endedAt request.durationSeconds
        request.callSid)
      Tx.enqueueInteractionEnded cfg text
        (interaction.markEnded request.endedAt request.durationSeconds request.callSid) request

/-- What the transaction that records the failure raises: the environment may, and so does a text of
the error that the metadata of the event does not take. -/
def FailedWakeup.refusal (failed : FailedWakeup) : Option PyError :=
  match failed.fault with
  | some e => some e
  | none =>
    if Json.storableText failed.error.message then none
    else some (.dataError "invalid input for a column of audit_events")

/-- The transaction after a wakeup that failed. -/
def wakeupFailed (job : InteractionJob) (failed : FailedWakeup) : Tx Unit := do
  Tx.interrupt failed.refusal
  Tx.emit job "webhook" "queued" "workflow_wakeup_failed" (some failed.error.className)

/-- `UUID(str(payload[key]))`. -/
def uuidField (text : Text) (payload : Dict) (key : String) : Except PyError UUID :=
  match payload.get? key with
  | some value => UUID.ofString (text.str value)
  | none => .error (.keyError key)

/-- The transaction of `_persist_legacy_payload_and_orchestrate`. -/
def persistLegacyPayload (cfg : Settings) (text : Text) (payload : Dict) (birth : Birth) :
    Tx InteractionJob := do
  let interactionId ← Program.ofExcept (uuidField text payload "interaction_id")
  let sessionId ← Program.ofExcept (uuidField text payload "session_id")
  let leadId ← Program.ofExcept (uuidField text payload "lead_id")
  let campaignId ← Program.ofExcept (uuidField text payload "campaign_id")
  let customerId ← Program.ofExcept (uuidField text payload "customer_id")
  Tx.createIfAbsent cfg (.root birth interactionId sessionId leadId campaignId customerId
    (text.str (payload.getD "interaction_id" .null)) payload)

end PostCall.Model
