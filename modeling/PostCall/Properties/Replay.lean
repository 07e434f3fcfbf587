import PostCall.Machine.Roots

/-!
# Repeated webhooks

A delivery of the webhook writes what it knows of the end of the call to two places: the row of the
interaction, which every delivery overwrites, and the payload of the orchestration job, which is
written once. So the payload holds what the row held after the delivery that made the job, and the
row what the last deliveries gave.
-/

namespace PostCall.Properties
open PostCall.Library PostCall.Python PostCall.Model PostCall.Machine

variable {cfg : Settings} {text : Text} {db db' : Db} {request : EndRequest}
  {requests : List EndRequest}

/-- A delivery that succeeds. -/
def deliver? (cfg : Settings) (text : Text) (db : Db) (request : EndRequest) : Option Db :=
  match commit (endInteraction cfg text request) db with
  | some _ => some (World.endInteraction cfg text db request)
  | none => none

/-- Deliveries one after another, all of which succeed. -/
def deliverAll? (cfg : Settings) (text : Text) : Db → List EndRequest → Option Db
  | db, [] => some db
  | db, request :: requests =>
    (deliver? cfg text db request).bind fun db => deliverAll? cfg text db requests

/-- `mark_ended` with what a request brings. -/
def markWith (interaction : Interaction) (request : EndRequest) : Interaction :=
  interaction.markEnded request.endedAt request.durationSeconds request.callSid

/-- The `call_sid` a request brings, if it is not empty. -/
def givenCallSid (request : EndRequest) : Option String :=
  request.callSid.filter (· ≠ "")

/-- The payload and the row have the same `call_sid`, `duration_seconds` and `ended_at`. -/
structure Agree (text : Text) (payload : Dict) (row : Interaction) : Prop where
  callSid : payload.get? "call_sid" = some (Json.ofOption (row.callSid.map .str))
  durationSeconds :
    payload.get? "duration_seconds" = some (Json.ofOption (row.durationSeconds.map .int))
  endedAt : payload.get? "ended_at" =
    some (Json.ofOption (row.endedAt.map fun t => .str (text.isoformat t)))

/-- The text of the call survives a second mark. -/
lemma orText_mark {interaction : Interaction} :
    orText request.callSid (markWith interaction request).callSid =
      (markWith interaction request).callSid := by
  unfold markWith Interaction.markEnded orText
  cases request.callSid with
  | none => rfl
  | some sid => by_cases empty : sid = "" <;> simp [empty]

/-- The payload of a delivery agrees with the row as the delivery leaves it. -/
lemma agree_of_endedPayload {interaction : Interaction} {payload : Dict}
    (h : endedPayload text (markWith interaction request) request = .ok payload) :
    Agree text payload (markWith interaction request) := by
  simp only [endedPayload, bind, Except.bind, pure, Except.pure, orText_mark] at h
  split at h
  case h_1 => cases h
  split at h
  case h_1 => cases h
  cases h
  exact ⟨rfl, rfl, rfl⟩

/-- What a delivery that succeeds leaves: the row marked ended, and the job, which was there or has
the payload of this delivery. -/
lemma deliver?_eq_some (h : deliver? cfg text db request = some db') :
    ∃ interaction, db.interactions.find? request.interactionId = some interaction ∧
      db'.interactions.find? request.interactionId = some (markWith interaction request) ∧
      (∀ row ∈ db.queue.jobs.rows, row ∈ db'.queue.jobs.rows) ∧
      ∃ job ∈ db'.queue.jobs.rows, job.idempotencyKey = rootKey request.interactionId.str ∧
        (job ∈ db.queue.jobs.rows ∨ (job.jobType = .orchestrateInteraction ∧
          Agree text job.payload (markWith interaction request))) := by
  unfold deliver? at h
  cases e : commit (endInteraction cfg text request) db with
  | none =>
    rw [e] at h
    cases h
  | some p =>
    obtain ⟨job, db₂⟩ := p
    have returned := commit_eq_some.1 e
    obtain ⟨interaction, payload, db₁, found, _, payloadOk, ensured, rfl⟩ :=
      endInteraction_ok returned
    obtain ⟨events, same⟩ := endInteraction_of_ok returned
    rw [e, same] at h
    cases h
    obtain ⟨_, id⟩ := Table.find?_eq_some.1 found
    have marked : db₁.interactions.find? request.interactionId =
        some (markWith interaction request) := by
      have interactions : db₁.interactions = (db.markEnded request.interactionId request.endedAt
          request.durationSeconds request.callSid).interactions := by
        cases ensured <;> rfl
      rw [interactions]
      unfold Db.markEnded Db.updateInteraction
      rw [Table.find?_modify, if_pos rfl, found]
      rfl
    refine ⟨interaction, found, marked, ?_, job, ensured.mem, ?_, ?_⟩
    · intro row mem
      cases ensured with
      | found => exact mem
      | inserted added =>
        exact (Queue.add?_eq_some added).1 ▸ List.mem_append_left _ mem
    · exact ensured.key.trans (congrArg (fun id => rootKey (UUID.str id)) id)
    · cases ensured with
      | found mem => exact .inl mem
      | inserted => exact .inr ⟨rfl, agree_of_endedPayload payloadOk⟩

lemma deliverAll?_eq_some {id : UUID} {row : Interaction}
    (about : ∀ request ∈ requests, request.interactionId = id)
    (found : db.interactions.find? id = some row)
    (h : deliverAll? cfg text db requests = some db') :
    db'.interactions.find? id = some (requests.foldl markWith row) ∧
      ∀ job ∈ db.queue.jobs.rows, job ∈ db'.queue.jobs.rows := by
  induction requests generalizing db row with
  | nil =>
    cases h
    exact ⟨found, fun _ mem => mem⟩
  | cons request requests ih =>
    obtain ⟨db₁, first, rest⟩ := Option.bind_eq_some_iff.1 h
    obtain ⟨interaction, found₀, marked, kept, _⟩ := deliver?_eq_some first
    rw [about request List.mem_cons_self] at found₀ marked
    cases found.symm.trans found₀
    obtain ⟨row', kept'⟩ := ih (fun r mem => about r (List.mem_cons_of_mem _ mem)) marked rest
    exact ⟨row', fun job mem => kept' job (kept job mem)⟩

/-- The call of a row that was marked. -/
lemma mark_callSid {row : Interaction} :
    (markWith row request).callSid = (givenCallSid request).or row.callSid := by
  unfold markWith Interaction.markEnded givenCallSid
  cases request.callSid with
  | none => rfl
  | some sid => by_cases empty : sid = "" <;> simp [empty, Option.filter]

/-- After several deliveries the row has the last `call_sid` that was given. -/
lemma foldl_callSid {row : Interaction} : (requests.foldl markWith row).callSid =
    (requests.filterMap givenCallSid).getLast?.or row.callSid := by
  induction requests generalizing row with
  | nil => rfl
  | cons request requests ih =>
    rw [List.foldl_cons, ih, mark_callSid]
    cases given : givenCallSid request with
    | none => rw [List.filterMap_cons_none given, Option.none_or]
    | some sid =>
      rw [List.filterMap_cons_some given, List.getLast?_cons]
      cases (requests.filterMap givenCallSid).getLast? <;> rfl

/-- After several deliveries the row has the times of the last one. -/
lemma foldl_last (row : Interaction) (first : EndRequest) (requests : List EndRequest) :
    let row' := (first :: requests).foldl markWith row
    let last := (first :: requests).getLast (List.cons_ne_nil _ _)
    row'.endedAt = some last.endedAt ∧ row'.durationSeconds = last.durationSeconds := by
  induction requests generalizing row first with
  | nil => exact ⟨rfl, rfl⟩
  | cons request requests ih =>
    rw [List.getLast_cons (List.cons_ne_nil _ _)]
    exact ih (markWith row first) request

/-- After a sequence of successful deliveries for one interaction, the payload of its orchestration
job has the `call_sid`, `duration_seconds` and `ended_at` that the row had right after the first
delivery, unless the job was there before it; the row has the times of the last delivery, and the
last `call_sid` that was given. -/
theorem stores_of_replay {first : EndRequest}
    (about : ∀ request ∈ requests, request.interactionId = first.interactionId)
    (h : deliverAll? cfg text db (first :: requests) = some db') :
    ∃ db₁ row₁ row', deliver? cfg text db first = some db₁ ∧
      db₁.interactions.find? first.interactionId = some row₁ ∧
      db'.interactions.find? first.interactionId = some row' ∧
      (∃ job ∈ db'.queue.jobs.rows, job.idempotencyKey = rootKey first.interactionId.str ∧
        (job ∈ db.queue.jobs.rows ∨
          (job.jobType = .orchestrateInteraction ∧ Agree text job.payload row₁))) ∧
      row'.endedAt = some ((first :: requests).getLast (List.cons_ne_nil _ _)).endedAt ∧
      row'.durationSeconds =
        ((first :: requests).getLast (List.cons_ne_nil _ _)).durationSeconds ∧
      row'.callSid = (requests.filterMap givenCallSid).getLast?.or row₁.callSid := by
  obtain ⟨db₁, delivered, rest⟩ := Option.bind_eq_some_iff.1 h
  obtain ⟨interaction, _, marked, kept, job, mem, key, origin⟩ := deliver?_eq_some delivered
  obtain ⟨found, kept'⟩ := deliverAll?_eq_some about marked rest
  obtain ⟨endedAt, durationSeconds⟩ := foldl_last interaction first requests
  exact ⟨db₁, _, _, delivered, marked, found, ⟨job, kept' job mem, key, origin⟩, endedAt,
    durationSeconds, foldl_callSid⟩

/-- Two deliveries for the plain interaction, of which the second brings a duration. -/
def twoDeliveries : List EndRequest :=
  [EndRequest.plain 10, { EndRequest.plain 11 with durationSeconds := some 20 }]

/-- The plain interaction and nothing else. -/
def recorded : Db := (World.ofInteraction .plain).db

theorem stores_of_replay_plain :
    ∃ db' row', deliverAll? settings .plain recorded twoDeliveries = some db' ∧
      db'.interactions.find? 1 = some row' ∧ row'.durationSeconds = some 20 := by
  obtain ⟨db', h⟩ : ∃ db', deliverAll? settings .plain recorded twoDeliveries = some db' :=
    Option.isSome_iff_exists.1 (by decide +kernel)
  obtain ⟨_, _, row', _, _, found, _, _, durationSeconds, _⟩ :=
    stores_of_replay (fun request mem => by rw [List.mem_singleton.1 mem]; rfl) h
  exact ⟨db', row', h, found, durationSeconds⟩

/-- The database after the two deliveries. -/
def replayed : Db := (deliverAll? settings .plain recorded twoDeliveries).getD recorded

/-- Whether the payload has this duration. -/
def hasDuration (payload : Dict) (durationSeconds : ℤ) : Bool :=
  match payload.get? "duration_seconds" with
  | some (.int n) => n = durationSeconds
  | _ => false

/-- The second delivery writes a duration into the row, and none into the payload. -/
theorem not_agree :
    ¬ ∀ (cfg : Settings) (text : Text) (db db' : Db) (requests : List EndRequest) (id : UUID),
      requests ≠ [] → (∀ request ∈ requests, request.interactionId = id) →
      (∀ job ∈ db.queue.jobs.rows, job.idempotencyKey ≠ rootKey id.str) →
      deliverAll? cfg text db requests = some db' →
      ∀ job ∈ db'.queue.jobs.rows, job.idempotencyKey = rootKey id.str →
        ∀ row, db'.interactions.find? id = some row → Agree text job.payload row := by
  intro agree
  have delivered : deliverAll? settings .plain recorded twoDeliveries = some replayed := by
    unfold replayed
    cases e : deliverAll? settings .plain recorded twoDeliveries with
    | none => exact absurd (congrArg Option.isSome e) (by decide +kernel)
    | some db => rfl
  obtain ⟨job, mem, key, without⟩ : ∃ job ∈ replayed.queue.jobs.rows,
      job.idempotencyKey = rootKey (UUID.str 1) ∧ hasDuration job.payload 20 = false := by
    decide +kernel
  obtain ⟨row, rowMem, ofId, duration⟩ : ∃ row ∈ replayed.interactions.rows,
      row.id = 1 ∧ row.durationSeconds = some 20 := by decide +kernel
  have agree := agree settings .plain recorded replayed twoDeliveries 1 (by decide +kernel)
    (by decide +kernel) (by decide +kernel) delivered job mem key row
    (Table.find?_eq_some.2 ⟨rowMem, ofId⟩)
  rw [hasDuration, agree.durationSeconds, duration] at without
  exact absurd without (by decide)

end PostCall.Properties
