import PostCall.Model.Database

/-!
# The interaction repository

`src/repositories/interactions.py`. The operations return without effect when the row is missing.
Only the lead stage can raise: its value comes from the provider, and the column takes a string of
at most a hundred characters.
-/

namespace PostCall.Model
open PostCall.Library PostCall.Python

namespace Interaction

/-- The row after `mark_ended`. -/
def markEnded (endedAt : Time) (durationSeconds : Option ℤ) (callSid : Option String)
    (interaction : Interaction) : Interaction :=
  { interaction with
    status := .ended
    endedAt := some endedAt
    durationSeconds := durationSeconds
    callSid := match callSid with
      | some sid => if sid = "" then interaction.callSid else some sid
      | none => interaction.callSid }

/-- The row with these entries set in `interaction_metadata`. -/
def updateMetadata (entries : Dict) (interaction : Interaction) : Interaction :=
  { interaction with interactionMetadata := Dict.update interaction.interactionMetadata entries }

/-- The row after `append_error`. -/
def appendError (entry : ErrorEntry) (interaction : Interaction) : Interaction :=
  { interaction with
    errorLog := interaction.errorLog ++ [entry]
    retryCount := interaction.retryCount + 1 }

/-- The row after `update_recording_key`. -/
def updateRecordingKey (s3Key : String) (interaction : Interaction) : Interaction :=
  { interaction with recordingS3Key := some s3Key }

variable {interaction : Interaction}

@[simp] lemma markEnded_id {endedAt durationSeconds callSid} :
    (interaction.markEnded endedAt durationSeconds callSid).id = interaction.id := rfl

@[simp] lemma updateMetadata_id {entries} :
    (interaction.updateMetadata entries).id = interaction.id := rfl

@[simp] lemma appendError_id {entry} : (interaction.appendError entry).id = interaction.id := rfl

@[simp] lemma updateRecordingKey_id {s3Key} :
    (interaction.updateRecordingKey s3Key).id = interaction.id := rfl

end Interaction

/-- The result of the provider, as `_parse_response` reads it. -/
structure AnalysisResult where
  callStage : Json
  entities : Json
  summary : Json
  rawResponse : Dict
  tokensUsed : Json
  provider : String
  model : String

/-- The table in `_map_call_stage_to_lead_stage`. -/
def leadStages : List (String × String) := [
  ("rebook_confirmed", "booked"),
  ("demo_booked", "booked"),
  ("callback_requested", "follow_up"),
  ("escalation_needed", "needs_attention"),
  ("not_interested", "closed_lost"),
  ("short_call", "short_call"),
  ("already_done", "completed")]

/-- `_map_call_stage_to_lead_stage`: a list or an object cannot be looked up. -/
def mapCallStageToLeadStage : Json → Except PyError Json
  | .str s => .ok (.str ((leadStages.lookup s).getD (if s = "" then "unknown" else s)))
  | .list _ => .error (.typeError "unhashable type: 'list'")
  | .dict _ => .error (.typeError "unhashable type: 'dict'")
  | j => .ok (if j.truthy then j else .str "unknown")

namespace Db

/-- Change the row of one interaction, if there is one. -/
def updateInteraction (db : Db) (id : UUID) (f : Interaction → Interaction)
    (same : ∀ i, (f i).id = i.id) : Db :=
  { db with interactions := db.interactions.modify id f same same }

@[simp] lemma updateInteraction_queue {db : Db} {id f same} :
    (db.updateInteraction id f same).queue = db.queue := rfl
@[simp] lemma updateInteraction_usage {db : Db} {id f same} :
    (db.updateInteraction id f same).usage = db.usage := rfl
@[simp] lemma updateInteraction_auditEvents {db : Db} {id f same} :
    (db.updateInteraction id f same).auditEvents = db.auditEvents := rfl

def markEnded (db : Db) (id : UUID) (endedAt : Time) (durationSeconds : Option ℤ)
    (callSid : Option String) : Db :=
  db.updateInteraction id (·.markEnded endedAt durationSeconds callSid)
    fun _ => Interaction.markEnded_id

def markProcessing (db : Db) (id : UUID) (analysisStatus : String) : Db :=
  db.updateInteraction id (·.updateMetadata [("analysis_status", .str analysisStatus)])
    fun _ => Interaction.updateMetadata_id

def updateAnalysisResult (text : Text) (db : Db) (id : UUID) (result : AnalysisResult)
    (now : Time) : Db :=
  db.updateInteraction id (·.updateMetadata [
    ("analysis_status", .str "completed"),
    ("call_stage", result.callStage),
    ("entities", result.entities),
    ("summary", result.summary),
    ("tokens_used", result.tokensUsed),
    ("llm_provider", .str result.provider),
    ("llm_model", .str result.model),
    ("analyzed_at", .str (text.isoformat now))]) fun _ => Interaction.updateMetadata_id

def markShortCall (db : Db) (id : UUID) : Db :=
  db.updateInteraction id (·.updateMetadata [
    ("analysis_status", .str "skipped"),
    ("call_stage", .str "short_call"),
    ("skip_reason", .str "short_transcript"),
    ("tokens_used", .int 0)]) fun _ => Interaction.updateMetadata_id

def updateRecordingKey (db : Db) (id : UUID) (s3Key : String) : Db :=
  db.updateInteraction id (·.updateRecordingKey s3Key) fun _ => Interaction.updateRecordingKey_id

def appendError (db : Db) (id : UUID) (entry : ErrorEntry) : Db :=
  db.updateInteraction id (·.appendError entry) fun _ => Interaction.appendError_id

end Db

/-- The row of a lead with this stage. -/
def Lead.setStage (stage : String) (lead : Lead) : Lead := { lead with stage := stage }

@[simp] lemma Lead.setStage_id {stage : String} {lead : Lead} :
    (lead.setStage stage).id = lead.id := rfl

def Tx.updateLeadStage (leadId : UUID) (callStage : Json) : Tx Unit := do
  match (← get).leads.find? leadId with
  | none => return
  | some _ =>
    match ← Program.ofExcept (mapCallStageToLeadStage callStage) with
    | .str stage =>
      if 100 < stage.length then
        throw (.dataError "value too long for type character varying(100)")
      else
        modify fun db => { db with
          leads := db.leads.modify leadId (·.setStage stage) (fun _ => Lead.setStage_id)
            (fun _ => Lead.setStage_id) }
    | j => throw (.dataError s!"expected str, got {j.typeName}")

end PostCall.Model
