import PostCall.Model.World
import PostCall.Python.Hmac

/-!
# The webhook

`src/security/webhooks.py` and the handler of `src/api/endpoints.py`, for a request whose path and
body the framework has read. A site is the system behind the endpoint, with what it has answered.
-/

namespace PostCall.Model
open PostCall.Library PostCall.Python

structure HTTPException where
  statusCode : ℕ
  detail : String
  deriving DecidableEq

structure InteractionEndResponse where
  status : String
  interactionId : String
  message : String
  workflowJobId : Option String
  deriving DecidableEq

/-- What the `try` block of the handler raises. -/
inductive EndpointError where
  | http (e : HTTPException)
  | other (e : PyError)
  deriving DecidableEq

/-- A request to the endpoint: what its transaction is given, the value of the signature header if
there is one, and the bytes of the body. -/
structure WebhookRequest where
  request : EndRequest
  signature : Option String
  body : List UInt8

/-- `text.removeprefix(pre)`, by the characters. -/
def removePrefix (pre text : List Char) : List Char :=
  if pre.isPrefixOf text then text.drop pre.length else text

/-- `validate_webhook_signature`, with `settings.WEBHOOK_SIGNING_SECRET`. -/
def validateWebhookSignature (secret : String) (r : WebhookRequest) : Except EndpointError Unit :=
  if secret = "" then .ok ()
  else
    let supplied := r.signature.getD ""
    if supplied = "" then .error (.http ⟨401, "Missing webhook signature"⟩)
    else
      let expected := hmacHexdigest secret r.body
      let normalized := strip isSpace (removePrefix "sha256=".toList supplied.toList)
      match compareDigest normalized expected with
      | .ok true => .ok ()
      | .ok false => .error (.http ⟨401, "Invalid webhook signature"⟩)
      | .error e => .error (.other e)

/-- What the transaction of the handler raises, as the handler sees it. -/
def EndpointError.ofTransaction (e : PyError) : EndpointError :=
  if e = ⟨"HTTPException", "404: Interaction not found"⟩ then .http ⟨404, "Interaction not found"⟩
  else if e = ⟨"HTTPException", "409: Interaction does not belong to requested session"⟩ then
    .http ⟨409, "Interaction does not belong to requested session"⟩
  else .other e

/-- The `except` clauses of the handler. -/
def EndpointError.answer : EndpointError → HTTPException
  | .http e => e
  | .other _ => ⟨500, "Internal server error"⟩

/-- What the endpoint answers. -/
abbrev EndpointAnswer := Except HTTPException InteractionEndResponse

/-- The response to a request that made or found this job. -/
def InteractionEndResponse.queued (interactionId : UUID) (job : InteractionJob) :
    InteractionEndResponse where
  status := "ok"
  interactionId := interactionId.str
  message := "Interaction ended, durable workflow queued"
  workflowJobId := some job.id.str

/-- `end_interaction`: the answer, and the database after it. -/
def endInteractionEndpoint (cfg : Settings) (text : Text) (secret : String) (r : WebhookRequest)
    (db : Db) : EndpointAnswer × Db :=
  match validateWebhookSignature secret r with
  | .error e => (.error e.answer, db)
  | .ok _ =>
    match endInteraction cfg text r.request db with
    | .error e _ => (.error (EndpointError.ofTransaction e).answer, db)
    | .ok job db =>
      match r.request.wakeup with
      | none => (.ok (.queued r.request.interactionId job), db)
      | some e =>
        match wakeupFailed job e db with
        | .error e _ => (.error (EndpointError.other e).answer, db)
        | .ok _ db => (.ok (.queued r.request.interactionId job), db)

/-- The system, and what the endpoint has answered to whom, newest first. -/
structure Site where
  world : World
  answers : List (WebhookRequest × EndpointAnswer)

/-- A request comes in, or the system does something of its own. -/
inductive SiteAction where
  | http (r : WebhookRequest)
  | act (a : Action)

def Site.step (cfg : Settings) (text : Text) (secret : String) (s : Site) : SiteAction → Site
  | .http r =>
    let (answer, db) := endInteractionEndpoint cfg text secret r s.world.db
    ⟨{ s.world with db := db }, (r, answer) :: s.answers⟩
  | .act a => { s with world := World.step cfg text s.world a }

end PostCall.Model
