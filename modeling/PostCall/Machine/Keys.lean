import PostCall.Machine.Regular

/-!
# Idempotency keys

The keys are built from texts, some of which are not the system's own: a legacy payload brings the
text of its interaction id, and the language model chooses the call stage. A key still determines the
interaction and the kind of job: the canonical text of an id has a fixed length and no colon, and a
text that was read as an id does not hold the letters that a stage would have to add.
-/

namespace PostCall.Machine
open PostCall.Library PostCall.Python PostCall.Model

/-- What follows the interaction id in the key of a job that another one queues. -/
inductive Tail where
  | recording
  | analysis
  | signal (stage : String)
  | lead (stage : String)

namespace Tail

def text : Tail → String
  | .recording => "recording:v1"
  | .analysis => "llm:v1"
  | .signal stage => "signal:" ++ stage ++ ":v1"
  | .lead stage => "lead:" ++ stage ++ ":v1"

/-- The type of the job. -/
def jobType : Tail → JobType
  | .recording => .recordingFetch
  | .analysis => .llmAnalysis
  | .signal _ => .signalJobs
  | .lead _ => .leadStageUpdate

/-- The end of the key of a short call's signal job. -/
lemma text_shortSignal : (Tail.signal "short_call").text = "signal:short_call:v1" := by decide

/-- The end of the key of a short call's lead stage job. -/
lemma text_shortLead : (Tail.lead "short_call").text = "lead:short_call:v1" := by decide

/-- The text determines the kind and the stage. -/
lemma text_inj {s t : Tail} (e : s.text = t.text) : s = t := by
  have e := congrArg String.toList e
  cases s <;> cases t <;> simp [text, String.toList_append] at e ⊢ <;>
    exact String.toList_inj.1 e

end Tail

/-- The key determines the interaction and the tail. -/
lemma jobKey_inj {i j : UUID} {s t : String} (e : jobKey i s = jobKey j t) : i = j ∧ s = t := by
  have e := congrArg String.toList e
  simp only [jobKey, UUID.str, String.toList_append, String.toList_ofList, List.append_assoc] at e
  obtain ⟨ids, rest⟩ := List.append_inj (List.append_cancel_left e) (by simp)
  exact ⟨UUID.chars_inj ids, String.toList_inj.1 (List.append_cancel_left rest)⟩

/-- The key of an orchestration job. -/
def rootKey (idText : String) : String := "interaction:" ++ idText ++ ":orchestrate:v1"

/-- A text of an interaction id: the canonical one, or one that was read as an id. -/
def IdText (idText : String) : Prop :=
  ∃ id : UUID, idText = id.str ∨ UUID.ofString idText = .ok id

/-- No text of an id makes the key of an orchestration job the key of another one. -/
lemma rootKey_ne_jobKey {idText : String} (h : IdText idText) (i : UUID) (t : Tail) :
    rootKey idText ≠ jobKey i t.text := by
  intro e
  have e := congrArg String.toList e
  simp only [rootKey, jobKey, UUID.str, String.toList_append, String.toList_ofList,
    List.append_assoc] at e
  have e := List.append_cancel_left e
  have other : ":orchestrate:v1".toList ≠ ":".toList ++ t.text.toList := by
    cases t <;> simp [Tail.text, String.toList_append]
  rcases List.append_eq_append_iff.1 e with ⟨rest, id, e⟩ | ⟨rest, id, e⟩
  · -- the text ends within the canonical one, which has no colon
    cases rest with
    | nil => exact other (by simpa using e)
    | cons c rest =>
      have colon : c = ':' := by simpa using (congrArg List.head? e).symm
      exact UUID.colon_notMem_chars (id ▸ List.mem_append_right _ (by simp [colon]))
  · -- the text goes on behind the canonical one
    cases rest with
    | nil => exact other (by simpa using e.symm)
    | cons c rest =>
      obtain ⟨_, canonical | read⟩ := h
      · have length := congrArg List.length id
        simp [canonical, UUID.str] at length
      have e : t.text.toList = rest ++ ":orchestrate:v1".toList := by simpa using (List.cons.inj e).2
      have holds : ∀ d ∈ rest, ¬ UUID.Unreadable d := by
        intro d hd unreadable
        refine UUID.notMem_of_ofString unreadable read ?_
        exact id ▸ List.mem_append_right _ (List.mem_cons_of_mem _ hd)
      have short := congrArg List.length e
      cases t with
      | recording => simp [Tail.text] at short
      | analysis => simp [Tail.text] at short
      | signal stage =>
        cases rest with
        | nil => simp [Tail.text, String.toList_append] at e
        | cons d rest =>
          have head : d = 's' := by
            simp only [Tail.text, String.toList_append] at e
            exact (List.cons.inj e).1.symm
          exact holds d List.mem_cons_self (by rw [head]; decide)
      | lead stage =>
        cases rest with
        | nil => simp [Tail.text, String.toList_append] at e
        | cons d rest =>
          have head : d = 'l' := by
            simp only [Tail.text, String.toList_append] at e
            exact (List.cons.inj e).1.symm
          exact holds d List.mem_cons_self (by rw [head]; decide)

/-- A job has the key of its kind. -/
inductive Keyed (job : JobIdentity) : Prop where
  | root {idText} :
    IdText idText →
    job.jobType = .orchestrateInteraction →
    job.idempotencyKey = rootKey idText →
    Keyed job
  | child (tail : Tail) :
    job.jobType = tail.jobType →
    job.idempotencyKey = jobKey job.interactionId tail.text →
    Keyed job

/-- A job under a key of an interaction is a job of that interaction, of the kind in the key. -/
lemma Keyed.of_key {job : JobIdentity} (h : Keyed job) {i : UUID} {t : Tail}
    (e : job.idempotencyKey = jobKey i t.text) : job.interactionId = i ∧ job.jobType = t.jobType := by
  cases h with
  | root id _ key => exact absurd (key.symm.trans e) (rootKey_ne_jobKey id i t)
  | child tail type key =>
    obtain ⟨same, tails⟩ := jobKey_inj (key.symm.trans e)
    rw [type, Tail.text_inj tails]
    exact ⟨same, rfl⟩

variable {cfg : Settings} {text : Text} {w w₀ : World} {a : Action} {as : List Action}

lemma RootOf.keyed {new : NewJob} (h : RootOf new) : Keyed (new.row cfg).toJobIdentity := by
  cases h with
  | webhook => exact .root ⟨_, .inl rfl⟩ rfl rfl
  | legacy read => exact .root ⟨_, .inr read⟩ rfl rfl

lemma Child.keyed {root : JobIdentity} {new : NewJob} (h : Child root new) :
    Keyed (new.row cfg).toJobIdentity := by
  cases h with
  | recording => exact .child .recording rfl rfl
  | shortSignal =>
    refine .child (.signal "short_call") rfl ?_
    exact congrArg (jobKey root.interactionId) Tail.text_shortSignal.symm
  | shortLead =>
    refine .child (.lead "short_call") rfl ?_
    exact congrArg (jobKey root.interactionId) Tail.text_shortLead.symm
  | analysis => exact .child .analysis rfl rfl

lemma ResultOf.keyed {analysis : JobIdentity} {payload result : Dict} {new : NewJob}
    (h : ResultOf text analysis payload result new) : Keyed (new.row cfg).toJobIdentity := by
  cases h with
  | signal => exact .child (.signal (callStageText text result)) rfl rfl
  | lead => exact .child (.lead (callStageText text result)) rfl rfl

/-- The action is one of the system's own, and not an insertion of an arbitrary job. -/
def Served (_ : World) (a : Action) : Prop := ∀ new, a ≠ .createIfAbsent new

/-- What an action of the system may insert. -/
inductive Inserted (text : Text) (w : World) : Action → NewJob → Prop where
  | webhook {request new} :
    RootOf new →
    Inserted text w (.endInteraction request) new
  | legacy {payload birth new} :
    RootOf new →
    Inserted text w (.legacyTask payload birth) new
  | child {workerId limit recovery query run new} {root : InteractionJob} :
    root ∈ w.db.queue.jobs.rows →
    root.jobType = .orchestrateInteraction →
    Child root.toJobIdentity new →
    Inserted text w (.orchestrate workerId limit recovery query run) new
  | result {n outcome clock analysis payload result new} :
    ResultOf text analysis payload result new →
    Inserted text w (.report n outcome clock) new

/-- A row that a step of the system creates was inserted by its program. -/
lemma inserted_of_born {db : Db} {l : Label} (served : Served w a) (h : Allowed cfg text w a db l)
    {row : InteractionJob} (born : row ∈ l.born) :
    ∃ new, row = new.row cfg ∧ Inserted text w a new := by
  cases h with
  | bare => exact absurd rfl (served _)
  | webhook root => exact ⟨_, List.mem_singleton.1 born, .webhook root⟩
  | legacy root => exact ⟨_, List.mem_singleton.1 born, .legacy root⟩
  | child mem type child => exact ⟨_, List.mem_singleton.1 born, .child mem type child⟩
  | @report _ _ _ _ _ _ _ l _ _ _ _ moves =>
    cases l with
    | succeed =>
      obtain ⟨_, new, _, result, e⟩ := moves.1.2.2 row born
      exact ⟨new, e, .result result⟩
    | create => exact moves.1.elim
    | aside => cases born
    | claim => cases born
    | recover => cases born
    | fail => cases born
    | refuse => cases born
  | aside => cases born
  | recover => cases born
  | claim => cases born
  | orchestrated => cases born
  | unorchestrated => cases born
  | refuse => cases born

lemma keyed_of_allowed {db : Db} {l : Label} (served : Served w a) (h : Allowed cfg text w a db l) :
    ∀ row ∈ l.born, Keyed row.toJobIdentity := by
  intro row born
  obtain ⟨new, rfl, inserted⟩ := inserted_of_born served h born
  cases inserted with
  | webhook root => exact root.keyed
  | legacy root => exact root.keyed
  | child _ _ child => exact child.keyed
  | result result => exact result.keyed

/-- Every job has the key of its kind, after every run of the system. -/
theorem keyed_of_run (run : Run (World.step cfg text) Served w₀ as w) (init : Initial w₀) :
    ∀ row ∈ w.db.queue.jobs.rows, Keyed row.toJobIdentity := by
  refine (run.invariant (I := fun w => Sound w ∧
    ∀ row ∈ w.db.queue.jobs.rows, Keyed row.toJobIdentity) ?_ fun w a h served => ?_).2
  · refine ⟨sound_of_idle init.2, fun row mem => ?_⟩
    rw [init.1] at mem
    cases mem
  · obtain ⟨sound, keyed⟩ := h
    refine ⟨sound_step sound, (step_path cfg text sound a).invariant
      (I := fun db => ∀ row ∈ db.queue.jobs.rows, Keyed row.toJobIdentity) keyed
      fun db l db' keyed m allowed row mem => ?_⟩
    rcases m.of_mem mem with ⟨row₀, mem₀, same⟩ | born
    · exact same ▸ keyed row₀ mem₀
    · exact keyed_of_allowed served allowed row born

end PostCall.Machine
