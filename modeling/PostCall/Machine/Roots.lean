import PostCall.Machine.Keys

/-!
# Orchestration jobs

Where the orchestration jobs come from: the two entry points, which ask for one under a key that holds
a text of the interaction id, and nothing else.
-/

namespace PostCall.Machine
open PostCall.Library PostCall.Python PostCall.Model

/-- What `create_if_absent` leaves: the row under the key, which it found or inserted. -/
inductive Ensured (cfg : Settings) (db : Db) (new : NewJob) : InteractionJob → Db → Prop where
  | found {row} :
    row ∈ db.queue.jobs.rows →
    row.idempotencyKey = new.idempotencyKey →
    Ensured cfg db new row db
  | inserted {queue} :
    db.queue.add? (new.row cfg) = some queue →
    Ensured cfg db new (new.row cfg) { db with queue := queue }

variable {cfg : Settings} {text : Text} {db db' : Db} {new : NewJob} {job row : InteractionJob}
  {w : World} {a : Action}

/-- After `create_if_absent` the job is there, found or new. -/
lemma ensured_of_createIfAbsent (h : Tx.createIfAbsent cfg new db = .ok row db') :
    Ensured cfg db new row db' := by
  rcases createIfAbsent_cases cfg db new with
    ⟨row, e, mem, key⟩ | ⟨queue, e, _, added⟩ | ⟨_, e⟩
  · rw [e] at h
    cases h
    exact .found mem key
  · rw [e] at h
    cases h
    exact .inserted added
  · rw [e] at h
    cases h

/-- A key that is inserted was free. -/
lemma fresh_of_add? {queue : Queue} (h : db.queue.add? row = some queue) :
    ∀ b ∈ db.queue.jobs.rows, b.idempotencyKey ≠ row.idempotencyKey := by
  obtain ⟨jobs, inserted, rfl⟩ := Option.map_eq_some_iff.1 h
  exact (Table.insert?_eq_some inserted).2.1

namespace Ensured

lemma mem (h : Ensured cfg db new row db') : row ∈ db'.queue.jobs.rows := by
  cases h with
  | found mem => exact mem
  | inserted added =>
    rw [(Queue.add?_eq_some added).1]
    exact List.mem_append_right _ (List.mem_singleton.2 rfl)

lemma key (h : Ensured cfg db new row db') : row.idempotencyKey = new.idempotencyKey := by
  cases h with
  | found _ key => exact key
  | inserted => rfl

/-- The rows after it are the old ones, and the new one if no other had the key. -/
lemma of_mem (h : Ensured cfg db new job db') (mem : row ∈ db'.queue.jobs.rows) :
    row ∈ db.queue.jobs.rows ∨
      (row = new.row cfg ∧ ∀ b ∈ db.queue.jobs.rows, b.idempotencyKey ≠ new.idempotencyKey) := by
  cases h with
  | found => exact .inl mem
  | inserted added =>
    rw [(Queue.add?_eq_some added).1] at mem
    rcases List.mem_append.1 mem with mem | mem
    · exact .inl mem
    · exact .inr ⟨List.mem_singleton.1 mem, fresh_of_add? added⟩

end Ensured

/-- What a delivery of the webhook asks for, for the row as `mark_ended` left it. -/
def rootAsked (interaction : Interaction) (request : EndRequest) (payload : Dict) : NewJob :=
  .root request.birth interaction.id interaction.sessionId interaction.leadId
    interaction.campaignId interaction.customerId interaction.id.str payload

/-- A delivery that succeeded: it found the interaction, marked it ended, and ensured its job. -/
lemma endInteraction_ok {request : EndRequest}
    (h : endInteraction cfg text request db = .ok job db') :
    ∃ interaction payload db₁, db.interactions.find? request.interactionId = some interaction ∧
      interaction.sessionId = request.sessionId ∧
      endedPayload text (interaction.markEnded request.endedAt request.durationSeconds
        request.callSid) request = .ok payload ∧
      Ensured cfg (db.markEnded request.interactionId request.endedAt request.durationSeconds
        request.callSid) (rootAsked interaction request payload) job db₁ ∧
      db' = db₁.emit job "webhook" "queued" "interaction_end_workflow_queued" := by
  unfold endInteraction at h
  rw [Program.bind_of_ok Program.get_run] at h
  cases found : db.interactions.find? request.interactionId with
  | none =>
    simp only [found] at h
    cases h
  | some interaction =>
    simp only [found] at h
    split at h
    case isTrue => cases h
    case isFalse session =>
    split at h
    case isTrue => cases h
    case isFalse =>
    rw [Program.bind_of_ok Program.modify_run] at h
    obtain ⟨payload, s, read, h₁⟩ := Program.bind_ok.1 h
    obtain ⟨payloadOk, rfl⟩ := Program.ofExcept_run_ok.1 read
    obtain ⟨job', db₁, ensured, h₂⟩ := Program.bind_ok.1 h₁
    cases h₂
    exact ⟨interaction, payload, db₁, rfl, not_not.1 session, payloadOk,
      ensured_of_createIfAbsent ensured, rfl⟩

/-- A legacy task that succeeded ensured the job of the id it read. -/
lemma persistLegacyPayload_ok {payload : Dict} {birth : Birth}
    (h : persistLegacyPayload cfg text payload birth db = .ok job db') :
    ∃ interactionId sessionId leadId campaignId customerId,
      uuidField text payload "interaction_id" = .ok interactionId ∧
      Ensured cfg db (.root birth interactionId sessionId leadId campaignId customerId
        (text.str (payload.getD "interaction_id" .null)) payload) job db' := by
  unfold persistLegacyPayload at h
  obtain ⟨interactionId, _, e, h₁⟩ := Program.bind_ok.1 h
  obtain ⟨read, rfl⟩ := Program.ofExcept_run_ok.1 e
  obtain ⟨sessionId, _, e₁, h₂⟩ := Program.bind_ok.1 h₁
  obtain ⟨-, rfl⟩ := Program.ofExcept_run_ok.1 e₁
  obtain ⟨leadId, _, e₂, h₃⟩ := Program.bind_ok.1 h₂
  obtain ⟨-, rfl⟩ := Program.ofExcept_run_ok.1 e₂
  obtain ⟨campaignId, _, e₃, h₄⟩ := Program.bind_ok.1 h₃
  obtain ⟨-, rfl⟩ := Program.ofExcept_run_ok.1 e₃
  obtain ⟨customerId, _, e₄, h₅⟩ := Program.bind_ok.1 h₄
  obtain ⟨-, rfl⟩ := Program.ofExcept_run_ok.1 e₄
  exact ⟨interactionId, sessionId, leadId, campaignId, customerId, read,
    ensured_of_createIfAbsent h₅⟩

/-- The interaction that an action of an entry point is about, and the text of its id. -/
def rootOf? (text : Text) : Action → Option (UUID × String)
  | .endInteraction request => some (request.interactionId, request.interactionId.str)
  | .legacyTask payload _ =>
    match uuidField text payload "interaction_id" with
    | .ok id => some (id, text.str (payload.getD "interaction_id" .null))
    | .error _ => none
  | _ => none

/-- A job that follows an orchestration is none. -/
lemma child_not_root {root : JobIdentity} (h : Child root new) :
    (new.row cfg).jobType ≠ .orchestrateInteraction := by
  cases h <;> exact fun e => by cases e

lemma result_not_root {analysis : JobIdentity} {payload result : Dict}
    (h : ResultOf text analysis payload result new) :
    (new.row cfg).jobType ≠ .orchestrateInteraction := by
  cases h <;> exact fun e => by cases e

/-- Only an entry point inserts an orchestration job. -/
lemma born_not_root {l : Label} (served : Served w a) (h : Allowed cfg text w a db l)
    (none : rootOf? text a = none) (inside : ∀ payload birth, a ≠ .legacyTask payload birth) :
    ∀ row ∈ l.born, row.jobType ≠ .orchestrateInteraction := by
  intro row born
  obtain ⟨new, rfl, inserted⟩ := inserted_of_born served h born
  cases inserted with
  | webhook => cases none
  | legacy => exact absurd rfl (inside _ _)
  | child _ _ child => exact child_not_root child
  | result result => exact result_not_root result

/-- A delivery that was served leaves what its transaction left, but for an event. -/
lemma endInteraction_of_ok {request : EndRequest}
    (h : endInteraction cfg text request db = .ok job db') :
    ∃ events, World.endInteraction cfg text db request = { db' with auditEvents := events } := by
  simp only [World.endInteraction, commit, h]
  cases request.wakeup with
  | none => exact ⟨db'.auditEvents, rfl⟩
  | some failed =>
    simp only [transact_wakeupFailed]
    split
    · exact ⟨_, rfl⟩
    · exact ⟨_, rfl⟩

/-- A row after a delivery of the webhook is from before it, or the job of the interaction. -/
lemma of_mem_endInteraction {request : EndRequest}
    (mem : row ∈ (World.endInteraction cfg text db request).queue.jobs.rows) :
    row ∈ db.queue.jobs.rows ∨
      (row.interactionId = request.interactionId ∧
        row.idempotencyKey = rootKey request.interactionId.str ∧
        ∀ b ∈ db.queue.jobs.rows, b.idempotencyKey ≠ rootKey request.interactionId.str) := by
  cases e : endInteraction cfg text request db with
  | error =>
    simp only [World.endInteraction, commit, e] at mem
    exact .inl mem
  | ok job db' =>
    obtain ⟨events, same⟩ := endInteraction_of_ok e
    rw [same] at mem
    obtain ⟨interaction, payload, db₁, found, _, _, ensured, rfl⟩ := endInteraction_ok e
    obtain ⟨_, id⟩ := Table.find?_eq_some.1 found
    rcases ensured.of_mem mem with mem | ⟨rfl, fresh⟩
    · exact .inl mem
    · exact .inr ⟨id, congrArg (fun id => rootKey (UUID.str id)) id, id ▸ fresh⟩

/-- A row after a legacy task is from before it, or the job of the id the task read. -/
lemma of_mem_legacyTask {payload : Dict} {birth : Birth}
    (mem : row ∈ (World.step cfg text w (.legacyTask payload birth)).db.queue.jobs.rows) :
    row ∈ w.db.queue.jobs.rows ∨
      ∃ id, uuidField text payload "interaction_id" = .ok id ∧ row.interactionId = id ∧
        row.idempotencyKey = rootKey (text.str (payload.getD "interaction_id" .null)) ∧
        ∀ b ∈ w.db.queue.jobs.rows,
          b.idempotencyKey ≠ rootKey (text.str (payload.getD "interaction_id" .null)) := by
  simp only [World.step, World.transact, commit] at mem
  cases e : persistLegacyPayload cfg text payload birth w.db with
  | error =>
    rw [e] at mem
    exact .inl mem
  | ok job db' =>
    rw [e] at mem
    obtain ⟨id, _, _, _, _, read, ensured⟩ := persistLegacyPayload_ok e
    rcases ensured.of_mem mem with mem | ⟨rfl, fresh⟩
    · exact .inl mem
    · exact .inr ⟨id, read, rfl, rfl, fresh⟩

/-- An orchestration job after an action was there before, or an entry point inserted it under the
key of the text it was given, which was free. -/
theorem roots_step (sound : Sound w) (served : Served w a) :
    ∀ row ∈ (World.step cfg text w a).db.queue.jobs.rows, row.jobType = .orchestrateInteraction →
      (∃ row₀ ∈ w.db.queue.jobs.rows, row.toJobIdentity = row₀.toJobIdentity) ∨
      ∃ id idText, rootOf? text a = some (id, idText) ∧ row.interactionId = id ∧
        row.idempotencyKey = rootKey idText ∧
        ∀ b ∈ w.db.queue.jobs.rows, b.idempotencyKey ≠ rootKey idText := by
  intro row mem root
  by_cases entry : (∃ request, a = .endInteraction request) ∨
      ∃ payload birth, a = .legacyTask payload birth
  · rcases entry with ⟨request, rfl⟩ | ⟨payload, birth, rfl⟩
    · rcases of_mem_endInteraction mem with mem | ⟨id, key, fresh⟩
      · exact .inl ⟨row, mem, rfl⟩
      · exact .inr ⟨_, _, rfl, id, key, fresh⟩
    · rcases of_mem_legacyTask mem with mem | ⟨id, read, e, key, fresh⟩
      · exact .inl ⟨row, mem, rfl⟩
      · exact .inr ⟨id, _, by simp only [rootOf?, read], e, key, fresh⟩
  · simp only [not_or, not_exists] at entry
    left
    have none : rootOf? text a = none := by
      cases a with
      | endInteraction request => exact absurd rfl (entry.1 request)
      | legacyTask payload birth => exact absurd rfl (entry.2 payload birth)
      | _ => rfl
    refine (step_path cfg text sound a).invariant
      (I := fun db => ∀ row ∈ db.queue.jobs.rows, row.jobType = .orchestrateInteraction →
        ∃ row₀ ∈ w.db.queue.jobs.rows, row.toJobIdentity = row₀.toJobIdentity)
      (fun row mem _ => ⟨row, mem, rfl⟩) (fun db l db' ih m allowed row mem root => ?_) row mem root
    rcases m.of_mem mem with ⟨row₀, mem₀, same⟩ | born
    · obtain ⟨row₁, mem₁, same₁⟩ := ih row₀ mem₀
        ((congrArg JobIdentity.jobType same).symm.trans root)
      exact ⟨row₁, mem₁, same.trans same₁⟩
    · exact absurd root (born_not_root served allowed none entry.2 row born)

end PostCall.Machine
