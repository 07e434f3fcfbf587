import PostCall.Machine.Roots
import PostCall.Machine.Sessions

/-!
# Overlapping deliveries

Deliveries of the webhook, statement by statement, under READ COMMITTED: a statement sees what is
committed. `mark_ended` changes the object alone; the session sends the UPDATE before the look-up of
`create_if_absent`, and sends one in any case, since the time set there has no zone and so differs from
any that was loaded. From then on the row of the interaction is locked until the transaction ends, and
the UPDATE of another delivery waits, which here is a step that changes nothing. So does the INSERT of a
key or an id that another transaction has inserted and not yet committed.
-/

namespace PostCall.Machine
open PostCall.Library PostCall.Python PostCall.Model

/-- The response: the id of the job, or the status of an error. -/
inductive Answer where
  | ok (workflowJobId : UUID)
  | error (status : ℕ)
  deriving DecidableEq

/-- Where a delivery is between two statements. -/
inductive Phase where
  | arrived
  | loaded (interaction : Interaction)
  | updated (interaction : Interaction) (payload : Dict)
  | missed (interaction : Interaction) (payload : Dict)
  | found (interaction : Interaction) (job : InteractionJob)
  | inserted (interaction : Interaction) (job : InteractionJob)
  | committed (job : InteractionJob)
  | answered (answer : Answer)

namespace Phase

/-- Whether the row of the interaction is locked. -/
def locks : Phase → Bool
  | updated .. => true
  | missed .. => true
  | found .. => true
  | inserted .. => true
  | _ => false

/-- Whether a row with the key or the id of this one is inserted, and not committed. -/
def inserts (row : InteractionJob) : Phase → Bool
  | inserted _ job => job.idempotencyKey = row.idempotencyKey || job.id = row.id
  | _ => false

/-- The response that was sent. -/
def answer? : Phase → Option Answer
  | answered answer => some answer
  | _ => none

end Phase

/-- The object after `mark_ended`. -/
def ended (request : EndRequest) (interaction : Interaction) : Interaction :=
  interaction.markEnded request.endedAt request.durationSeconds request.callSid

/-- The UPDATE, for an object that was `old` and is `new`. -/
def flushEnded (old new row : Interaction) : Interaction :=
  { row with
    status := column old.status new.status row.status
    endedAt := new.endedAt
    durationSeconds := column old.durationSeconds new.durationSeconds row.durationSeconds
    callSid := column old.callSid new.callSid row.callSid }

@[simp] lemma flushEnded_id {old new row : Interaction} : (flushEnded old new row).id = row.id := rfl

structure Delivery where
  request : EndRequest
  phase : Phase

namespace Delivery

/-- Whether the delivery has locked the row of an interaction. -/
def locks (d : Delivery) (interactionId : UUID) : Bool :=
  d.phase.locks && d.request.interactionId = interactionId

/-- The commit of the transaction, with the jobs as it leaves them. -/
def commit (d : Delivery) (interaction : Interaction) (job : InteractionJob) (queue : Queue)
    (db : Db) : Db :=
  (({ db with queue := queue } : Db).updateInteraction interaction.id
      (flushEnded interaction (ended d.request interaction)) fun _ => flushEnded_id).emit
    job "webhook" "queued" "interaction_end_workflow_queued"

/-- The next statement of a delivery: what is committed after it, and where the delivery is then. -/
def next (cfg : Settings) (text : Text) (others : List Delivery) (db : Db) (d : Delivery) :
    Db × Phase :=
  match d.phase with
  | .arrived =>
    match db.interactions.find? d.request.interactionId with
    | none => (db, .answered (.error 404))
    | some interaction =>
      if interaction.sessionId ≠ d.request.sessionId then (db, .answered (.error 409))
      else (db, .loaded interaction)
  | .loaded interaction =>
    match endedPayload text (ended d.request interaction) d.request with
    | .error _ => (db, .answered (.error 500))
    | .ok payload =>
      if !d.request.fits then (db, .answered (.error 500))
      else if others.any (·.locks d.request.interactionId) then (db, .loaded interaction)
      else (db, .updated interaction payload)
  | .updated interaction payload =>
    match db.queue.getByIdempotencyKey?
        (rootAsked interaction d.request payload).idempotencyKey with
    | some job => (db, .found interaction job)
    | none => (db, .missed interaction payload)
  | .missed interaction payload =>
    let new := rootAsked interaction d.request payload
    if others.any (·.phase.inserts (new.row cfg)) then (db, .missed interaction payload)
    else if !new.fits then (db, .answered (.error 500))
    else if (db.interactions.find? interaction.id).isNone then (db, .answered (.error 500))
    else
      match db.queue.add? (new.row cfg) with
      | some _ => (db, .inserted interaction (new.row cfg))
      | none => (db, .answered (.error 500))
  | .found interaction job => (d.commit interaction job db.queue db, .committed job)
  | .inserted interaction job =>
    (d.commit interaction job ((db.queue.add? job).getD db.queue) db, .committed job)
  | .committed job =>
    match d.request.wakeup with
    | none => (db, .answered (.ok job.id))
    | some failed =>
      match Library.commit (wakeupFailed job failed) db with
      | some (_, db) => (db, .answered (.ok job.id))
      | none => (db, .answered (.error 500))
  | .answered answer => (db, .answered answer)

end Delivery

/-- What is committed, and the deliveries. -/
structure Webhooks where
  db : Db
  deliveries : List Delivery

namespace Webhooks

/-- Deliveries that have arrived. -/
def start (db : Db) (requests : List EndRequest) : Webhooks := ⟨db, requests.map (⟨·, .arrived⟩)⟩

/-- The next statement of the `n`th delivery. -/
def step (cfg : Settings) (text : Text) (s : Webhooks) (n : ℕ) : Webhooks :=
  match s.deliveries[n]? with
  | some d =>
    let (db, phase) := d.next cfg text (s.deliveries.eraseIdx n) s.db
    ⟨db, s.deliveries.set n ⟨d.request, phase⟩⟩
  | none => s

/-- The deliveries take their statements in this order. -/
def run (cfg : Settings) (text : Text) (s : Webhooks) (schedule : List ℕ) : Webhooks :=
  schedule.foldl (step cfg text) s

end Webhooks

/-! ### A delivery without others -/

section Alone

variable {cfg : Settings} {text : Text} {db : Db} {request : EndRequest}

/-- A session whose object is as the row leaves the row as the object. -/
lemma flushEnded_self {interaction : Interaction} :
    flushEnded interaction (ended request interaction) interaction = ended request interaction := by
  unfold flushEnded column ended Interaction.markEnded
  grind

namespace Webhooks

/-- What a delivery without others does to the database, from some point on. -/
lemma run_lone {d : Delivery} {k : ℕ} :
    run cfg text ⟨db, [d]⟩ (List.replicate (k + 1) 0) =
      run cfg text ⟨(d.next cfg text [] db).1, [⟨d.request, (d.next cfg text [] db).2⟩]⟩
        (List.replicate k 0) := rfl

/-- A delivery that has answered does nothing any more. -/
lemma run_answered {answer : Answer} {k : ℕ} :
    run cfg text ⟨db, [⟨request, .answered answer⟩]⟩ (List.replicate k 0) =
      ⟨db, [⟨request, .answered answer⟩]⟩ := by
  induction k with
  | zero => rfl
  | succ k ih => exact ih

/-- The database after the wakeup, for a transaction that left this one. -/
def woken (request : EndRequest) (job : InteractionJob) (db : Db) : Db :=
  match request.wakeup with
  | some failed => World.transact db (wakeupFailed job failed)
  | none => db

/-- After the commit only the wakeup is left. -/
lemma run_committed {job : InteractionJob} {k : ℕ} :
    (run cfg text ⟨db, [⟨request, .committed job⟩]⟩ (List.replicate (k + 1) 0)).db =
      woken request job db := by
  rw [run_lone]
  unfold Delivery.next woken World.transact
  cases request.wakeup with
  | none => exact congrArg Webhooks.db run_answered
  | some failed =>
    simp only
    cases Library.commit (wakeupFailed job failed) db with
    | none => exact congrArg Webhooks.db run_answered
    | some result => exact congrArg Webhooks.db run_answered

/-- The UPDATE of a delivery whose object is as the row. -/
lemma commit_alone {phase : Phase} {interaction : Interaction} {job : InteractionJob}
    {queue : Queue} (found : db.interactions.find? request.interactionId = some interaction) :
    (Delivery.mk request phase).commit interaction job queue db =
      ({ db.markEnded request.interactionId request.endedAt request.durationSeconds
          request.callSid with queue := queue } : Db).emit
        job "webhook" "queued" "interaction_end_workflow_queued" := by
  obtain ⟨mem, id⟩ := Table.find?_eq_some.1 found
  have same : db.interactions.modify interaction.id
      (flushEnded interaction (ended request interaction)) (fun _ => rfl) (fun _ => rfl) =
      db.interactions.modify request.interactionId (ended request) (fun _ => rfl)
        (fun _ => rfl) := by
    refine Table.ext (List.map_congr_left fun row hr => ?_)
    rw [id]
    split
    case isTrue e =>
      rw [Table.eq_of_key hr mem (e.trans id.symm), flushEnded_self]
    case isFalse => rfl
  exact congrArg (fun interactions => ({ db with queue := queue, interactions := interactions } :
    Db).emit job "webhook" "queued" "interaction_end_workflow_queued") same

/-- The webhook is its transaction and the wakeup. -/
lemma endInteraction_eq :
    World.endInteraction cfg text db request =
      match Model.endInteraction cfg text request db with
      | .ok job db => woken request job db
      | .error _ _ => db := by
  unfold World.endInteraction commit
  cases Model.endInteraction cfg text request db <;> rfl

/-- A job with the event of its enqueueing. -/
lemma enqueued {x : Tx InteractionJob} :
    (x >>= fun job => do
      Tx.emit job "webhook" "queued" "interaction_end_workflow_queued"
      pure job) db =
    match x db with
    | .ok job db => .ok job (db.emit job "webhook" "queued" "interaction_end_workflow_queued")
    | .error e db => .error e db := by
  rw [Program.bind_run]
  cases x db <;> rfl

/-- The job is created, and its event written. -/
lemma enqueue_run {interaction : Interaction} {payload : Dict}
    (built : endedPayload text (interaction.markEnded request.endedAt request.durationSeconds
      request.callSid) request = .ok payload) :
    Tx.enqueueInteractionEnded cfg text (interaction.markEnded request.endedAt
      request.durationSeconds request.callSid) request db =
      match Tx.createIfAbsent cfg (rootAsked interaction request payload) db with
      | .ok job db => .ok job (db.emit job "webhook" "queued" "interaction_end_workflow_queued")
      | .error e db => .error e db := by
  rw [Tx.enqueueInteractionEnded, built, Program.ofExcept_ok, pure_bind]
  exact enqueued

/-- The transaction of a delivery that has its interaction. -/
lemma endInteraction_found {interaction : Interaction}
    (found : db.interactions.find? request.interactionId = some interaction)
    (session : ¬ interaction.sessionId ≠ request.sessionId) :
    World.endInteraction cfg text db request =
      match endedPayload text (ended request interaction) request with
      | .error _ => db
      | .ok payload =>
        if !request.fits then db
        else
          match Tx.createIfAbsent cfg (rootAsked interaction request payload)
            (db.markEnded request.interactionId request.endedAt request.durationSeconds
              request.callSid) with
          | .error _ _ => db
          | .ok job db =>
            woken request job (db.emit job "webhook" "queued" "interaction_end_workflow_queued") := by
  rw [endInteraction_eq]
  unfold Model.endInteraction
  rw [Program.bind_of_ok Program.get_run]
  simp only [found, if_neg session]
  cases request.fits with
  | false =>
    cases endedPayload text (ended request interaction) request <;> rfl
  | true =>
    simp only [Bool.not_true, Bool.false_eq_true, if_false]
    rw [Program.bind_of_ok Program.modify_run]
    unfold ended
    cases built : endedPayload text (interaction.markEnded request.endedAt request.durationSeconds
      request.callSid) request with
    | error e =>
      rw [Tx.enqueueInteractionEnded, built]
      rfl
    | ok payload =>
      simp only
      rw [enqueue_run built]
      cases Tx.createIfAbsent cfg (rootAsked interaction request payload)
        (db.markEnded request.interactionId request.endedAt request.durationSeconds
          request.callSid) <;> rfl

/-- What the UPDATE, the look-up and the INSERT of a delivery without others come to. -/
lemma run_loaded {interaction : Interaction}
    (found : db.interactions.find? request.interactionId = some interaction)
    (session : ¬ interaction.sessionId ≠ request.sessionId) :
    (run cfg text ⟨db, [⟨request, .loaded interaction⟩]⟩ (List.replicate 5 0)).db =
      World.endInteraction cfg text db request := by
  have id : interaction.id = request.interactionId := (Table.find?_eq_some.1 found).2
  rw [endInteraction_found found session, run_lone]
  unfold Delivery.next
  simp only
  cases built : endedPayload text (ended request interaction) request with
  | error e =>
    simp only [run_answered]
  | ok payload =>
    simp only
    split
    case isTrue => rw [run_answered]
    case isFalse =>
    simp only [List.any_nil, Bool.false_eq_true, if_false]
    have queue : (db.markEnded request.interactionId request.endedAt request.durationSeconds
        request.callSid).queue = db.queue := rfl
    rw [createIfAbsent_run, queue, run_lone]
    simp only [Delivery.next]
    cases db.queue.getByIdempotencyKey?
      (rootAsked interaction request payload).idempotencyKey with
    | some job =>
      simp only
      rw [run_lone]
      simp only [Delivery.next, commit_alone found]
      exact run_committed
    | none =>
      simp only
      rw [run_lone]
      simp only [Delivery.next, List.any_nil, Bool.false_eq_true, if_false]
      split
      case isTrue => rw [run_answered]
      case isFalse =>
      have known : (db.interactions.find? interaction.id).isNone = false := by
        rw [id, found]
        rfl
      have known' : ((db.markEnded request.interactionId request.endedAt request.durationSeconds
          request.callSid).interactions.find?
            (rootAsked interaction request payload).interactionId).isNone = false := by
        have asked : (rootAsked interaction request payload).interactionId = request.interactionId :=
          id
        unfold Db.markEnded Db.updateInteraction
        rw [asked, Table.find?_modify, if_pos rfl, found]
        rfl
      simp only [known, known', Bool.false_eq_true, if_false]
      cases added : db.queue.add? ((rootAsked interaction request payload).row cfg) with
      | none =>
        simp only [run_answered]
      | some queue =>
        simp only
        rw [run_lone]
        simp only [Delivery.next, commit_alone found, added, Option.getD_some]
        exact run_committed

/-- A delivery that no other one overlaps is the transaction of the webhook. -/
theorem run_alone :
    (run cfg text (start db [request]) (List.replicate 6 0)).db =
      World.endInteraction cfg text db request := by
  rw [start, List.map_cons, List.map_nil, run_lone]
  cases found : db.interactions.find? request.interactionId with
  | none =>
    simp only [Delivery.next, found, run_answered]
    unfold World.endInteraction commit Model.endInteraction
    rw [Program.bind_of_ok Program.get_run, found]
    rfl
  | some interaction =>
    by_cases session : interaction.sessionId ≠ request.sessionId
    · simp only [Delivery.next, found, if_pos session, run_answered]
      unfold World.endInteraction commit Model.endInteraction
      rw [Program.bind_of_ok Program.get_run]
      simp only [found, if_pos session]
      rfl
    · simp only [Delivery.next, found, if_neg session]
      exact run_loaded found session

end Webhooks

end Alone

end PostCall.Machine
