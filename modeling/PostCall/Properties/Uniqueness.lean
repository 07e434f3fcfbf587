import PostCall.Machine.Roots

/-!
# One orchestration for an interaction

The idempotency key of an orchestration job holds a text of the interaction id, and each entry point
writes its own: the webhook the canonical one, the legacy task the one its payload brings. Two texts
of one id make two keys, and then two jobs. As long as the entry points agree on the text, there is
one.
-/

namespace PostCall.Properties
open PostCall.Library PostCall.Python PostCall.Model PostCall.Machine

variable {cfg : Settings} {text : Text} {w w₀ : World} {a : Action} {as : List Action}

/-- At most one orchestration job for each interaction. -/
def OneRoot (db : Db) : Prop :=
  ∀ a ∈ db.queue.jobs.rows, ∀ b ∈ db.queue.jobs.rows, a.jobType = .orchestrateInteraction →
    b.jobType = .orchestrateInteraction → a.interactionId = b.interactionId → a.id = b.id

instance (db : Db) : Decidable (OneRoot db) := by unfold OneRoot; infer_instance

/-- Where the interaction has an orchestration job already, the action of an entry point gives its id
by the text in the key of that job. -/
def SameSpelling (text : Text) (w : World) (a : Action) : Prop :=
  ∀ asked ∈ rootOf? text a, ∀ row ∈ w.db.queue.jobs.rows,
    row.jobType = .orchestrateInteraction → row.interactionId = asked.1 →
    row.idempotencyKey = rootKey asked.2

instance (text : Text) (w : World) (a : Action) : Decidable (SameSpelling text w a) := by
  unfold SameSpelling; infer_instance

lemma oneRoot_step (sound : Sound w) (served : Served w a) (spelling : SameSpelling text w a)
    (one : OneRoot w.db) : OneRoot (World.step cfg text w a).db := by
  -- a job that was there has the key that the action would insert, so that it is not inserted
  have old_new : ∀ row₀ ∈ w.db.queue.jobs.rows, row₀.jobType = .orchestrateInteraction →
      ∀ id idText, rootOf? text a = some (id, idText) → row₀.interactionId = id →
      (∀ b ∈ w.db.queue.jobs.rows, b.idempotencyKey ≠ rootKey idText) → False :=
    fun row₀ mem₀ root id idText asked same fresh =>
      fresh row₀ mem₀ (spelling (id, idText) asked row₀ mem₀ root same)
  intro x hx y hy rootx rooty same
  rcases roots_step sound served x hx rootx with
    ⟨x₀, memx, idx⟩ | ⟨id, idText, asked, ofx, keyx, freshx⟩ <;>
  rcases roots_step sound served y hy rooty with
    ⟨y₀, memy, idy⟩ | ⟨id', idText', asked', ofy, keyy, freshy⟩
  · rw [idx] at rootx same
    rw [idy] at rooty same
    rw [idx, idy]
    exact one x₀ memx y₀ memy rootx rooty same
  · rw [idx] at rootx same
    exact (old_new x₀ memx rootx id' idText' asked' (same.trans ofy) freshy).elim
  · rw [idy] at rooty same
    exact (old_new y₀ memy rooty id idText asked (same.symm.trans ofx) freshx).elim
  · obtain ⟨rfl, rfl⟩ := Prod.mk.inj (Option.some.inj (asked.symm.trans asked'))
    exact congrArg (fun row => row.id) (Table.eq_of_index hx hy (keyx.trans keyy.symm))

/-- In every run of the system's own actions in which the entry points agree on the text of an id,
every state reached has at most one orchestration job for each interaction. -/
theorem oneRoot_of_spelling
    (run : Run (World.step cfg text) (fun w a => Served w a ∧ SameSpelling text w a) w₀ as w)
    (init : Initial w₀) : OneRoot w.db := by
  refine (run.invariant (I := fun w => Sound w ∧ OneRoot w.db) ?_ fun w a h ok =>
    ⟨sound_step h.1, oneRoot_step h.1 ok.1 ok.2 h.2⟩).2
  refine ⟨sound_of_idle init.2, fun x hx => ?_⟩
  rw [init.1] at hx
  cases hx

/-- A legacy payload that gives the ids of the plain interaction, the interaction's by this text. -/
def legacyPayload (idText : String) : Dict := [
  ("interaction_id", .str idText),
  ("session_id", .str (UUID.str 1)),
  ("lead_id", .str (UUID.str 1)),
  ("campaign_id", .str (UUID.str 1)),
  ("customer_id", .str (UUID.str 1))]

/-- The webhook, and then the legacy task for the same interaction. -/
def bothEntries (idText : String) : List Action := [
  .endInteraction (EndRequest.plain 10),
  .legacyTask (legacyPayload idText) ⟨11, 0, 0⟩]

theorem oneRoot_of_spelling_plain :
    (after (bothEntries (UUID.str 1))).db.queue.jobs.rows.length = 1 ∧
      OneRoot (after (bothEntries (UUID.str 1))).db := by
  have run : Run (World.step settings .plain) (fun w a => Served w a ∧ SameSpelling .plain w a)
      (.ofInteraction .plain) (bothEntries (UUID.str 1)) (after (bothEntries (UUID.str 1))) :=
    .cons ⟨(fun _ e => by cases e), by decide +kernel⟩
      (.cons ⟨(fun _ e => by cases e), by decide +kernel⟩ .nil)
  exact ⟨by decide +kernel, oneRoot_of_spelling run ⟨rfl, rfl⟩⟩

/-- The webhook, and the legacy task with the id in braces: two jobs. -/
theorem not_oneRoot :
    ¬ ∀ (cfg : Settings) (text : Text) (w₀ w : World) (as : List Action), Initial w₀ →
      Run (World.step cfg text) Served w₀ as w → OneRoot w.db := by
  intro one
  have run : Run (World.step settings .plain) Served (.ofInteraction .plain)
      (bothEntries "{00000000-0000-0000-0000-000000000001}")
      (after (bothEntries "{00000000-0000-0000-0000-000000000001}")) :=
    .cons (fun _ e => by cases e) (.cons (fun _ e => by cases e) .nil)
  have two : ¬ OneRoot (after (bothEntries "{00000000-0000-0000-0000-000000000001}")).db := by
    decide +kernel
  exact two (one settings .plain _ _ _ ⟨rfl, rfl⟩ run)

end PostCall.Properties
