import PostCall.Model.Orchestrator

/-!
# The recording worker

`src/recording/worker.py` and `src/recording/service.py`. The storage names the object after the
interaction and does not fail of itself; what the network raises is part of the provider's answer.
-/

namespace PostCall.Model
open PostCall.Library PostCall.Python

structure ClaimedRecordingJob where
  id : UUID
  interactionId : UUID
  attempts : ℕ
  payload : Dict

/-- The answer of the telephony provider: a status with a body and the text `raise_for_status` has
for it, or no answer. -/
inductive ExotelAnswer where
  | response (status : ℕ) (body : Except PyError Json) (statusText : String)
  | raises (e : PyError)

structure RecordingResult where
  s3Key : String
  recordingUrl : Json

/-- What `poll_once` raises. -/
inductive RecordingError where
  | notReady (message : String)
  | unavailable (message : String)
  | other (e : PyError)

namespace RecordingService

def fetchExotelRecordingUrl : ExotelAnswer → Except RecordingError Json
  | .raises e => .error (.other e)
  | .response status body statusText =>
    if status = 200 then
      match body.bind Json.asDict with
      | .error e => .error (.other e)
      | .ok data =>
        let recordingUrl := data.getD "recording_url" .null
        if recordingUrl.truthy then .ok recordingUrl
        else .error (.notReady "Recording response did not include a URL")
    else if status = 404 then .error (.notReady "Recording is not ready yet")
    else if status = 400 ∨ status = 410 then
      .error (.unavailable s!"Recording permanently unavailable: HTTP {status}")
    else if 200 ≤ status ∧ status < 300 then .error (.notReady "Recording is not ready yet")
    else .error (.other ⟨"HTTPStatusError", statusText⟩)

def pollOnce (interactionId callSid exotelAccountId : String) (answer : ExotelAnswer) :
    Except RecordingError RecordingResult := do
  if callSid = "" ∨ exotelAccountId = "" then
    throw (.unavailable "Missing call SID or Exotel account ID")
  let recordingUrl ← fetchExotelRecordingUrl answer
  return ⟨"recordings/" ++ interactionId ++ ".mp3", recordingUrl⟩

end RecordingService

namespace RecordingWorkerService

/-- The snapshot of `_claim_jobs`. -/
def snapshot (job : InteractionJob) : ClaimedRecordingJob :=
  ⟨job.id, job.interactionId, job.attempts, job.payload⟩

def claimJobs (workerId : String) (limit : ℕ) (query : ClaimQuery) :
    Tx (List ClaimedRecordingJob) := do
  let jobs ← Tx.claimReadyJobs workerId [.recordingFetch] limit query
  return jobs.map snapshot

def nextRecordingDelay (cfg : Settings) (snapshot : ClaimedRecordingJob) : ℤ :=
  min (cfg.recordingInitialRetrySeconds * 2 ^ (snapshot.attempts - 1)) cfg.recordingMaxRetrySeconds

/-- What the branches of `_process` report of an exception. -/
def failureOf (cfg : Settings) (snapshot : ClaimedRecordingJob) : RecordingError → Failure
  | .notReady message => {
      stage := "recording_worker"
      errorCode := "RECORDING_NOT_READY"
      errorMessage := message
      retryAfterSeconds := some (nextRecordingDelay cfg snapshot)
      retryable := true }
  | .unavailable message => {
      stage := "recording_worker"
      errorCode := "RECORDING_UNAVAILABLE"
      errorMessage := message
      retryable := false }
  | .other e => {
      stage := "recording_worker"
      errorCode := e.className
      errorMessage := e.message
      retryable := true }

/-- The poll of `_process`. -/
def poll (text : Text) (snapshot : ClaimedRecordingJob) (answer : ExotelAnswer) :
    Except RecordingError RecordingResult :=
  RecordingService.pollOnce snapshot.interactionId.str
    (text.str (orElse (snapshot.payload.get? "call_sid") (.str "")))
    (text.str (orElse (snapshot.payload.get? "exotel_account_id") (.str ""))) answer

/-- The success transaction of `_process`. -/
def complete (clock : Clock) (snapshot : ClaimedRecordingJob) (result : RecordingResult) :
    Tx Unit := do
  match (← get).queue.get? snapshot.id with
  | none => return
  | some job =>
    if job.status = .running then
      modify (·.updateRecordingKey snapshot.interactionId result.s3Key)
      let job ← Tx.markSucceeded job [
        ("s3_key", .str result.s3Key),
        ("recording_url_present", .bool result.recordingUrl.truthy)] 0 (clock 0)
      Tx.emit job "recording_worker" "succeeded" "recording_uploaded"

def process (cfg : Settings) (text : Text) (clock : Clock) (snapshot : ClaimedRecordingJob)
    (answer : ExotelAnswer) : Except Failure (Tx Unit) :=
  match poll text snapshot answer with
  | .ok result => .ok (complete clock snapshot result)
  | .error e => .error (failureOf cfg snapshot e)

end RecordingWorkerService

end PostCall.Model
