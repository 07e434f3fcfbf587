import PostCall.Machine.Keys

/-!
# Handoff

A job that has succeeded has its successors in the queue: the orchestrator creates them before it
completes the job, and the LLM worker after, but both in the transaction of the completion. No later
step takes a row away or changes its key.
-/

namespace PostCall.Properties
open PostCall.Library PostCall.Python PostCall.Model PostCall.Machine

variable {cfg : Settings} {text : Text} {w w₀ : World} {a : Action} {as : List Action}
  {db db' : Db} {l : Label}

/-- The interaction has the job of this tail. -/
def Queued (w : World) (interactionId : UUID) (t : Tail) : Prop :=
  ∃ job ∈ w.db.queue.jobs.rows, job.interactionId = interactionId ∧ job.jobType = t.jobType ∧
    job.idempotencyKey = jobKey interactionId t.text

/-- The successors that a finished job must have. -/
inductive Successors (text : Text) (w : World) (job : InteractionJob) : Prop where
  | short {turns} :
    job.jobType = .orchestrateInteraction →
    (hasCallSid job.payload → Queued w job.interactionId .recording) →
    transcript job.payload = .ok turns →
    turns.length < 4 →
    Queued w job.interactionId (.signal "short_call") →
    Queued w job.interactionId (.lead "short_call") →
    Successors text w job
  | long {turns} :
    job.jobType = .orchestrateInteraction →
    (hasCallSid job.payload → Queued w job.interactionId .recording) →
    transcript job.payload = .ok turns →
    ¬ turns.length < 4 →
    Queued w job.interactionId .analysis →
    Successors text w job
  | analysis :
    job.jobType = .llmAnalysis →
    Queued w job.interactionId (.signal (callStageText text job.result)) →
    Queued w job.interactionId (.lead (callStageText text job.result)) →
    Successors text w job
  | none :
    job.jobType ≠ .orchestrateInteraction →
    job.jobType ≠ .llmAnalysis →
    Successors text w job

/-- Every job that has succeeded was handed off. -/
def HandedOff (text : Text) (db : Db) : Prop :=
  ∀ job ∈ db.queue.jobs.rows, job.status = .succeeded →
    HandsOff text db job.toJobIdentity job.result []

/-- A completion hands its job off. -/
def completions (text : Text) (db : Db) : Label → Prop
  | .succeed job result _ _ children => HandsOff text db job.toJobIdentity result children
  | _ => True

/-- What was handed off before a move, or is with the rows it inserts, is so after it. -/
lemma handsOff_move {job : JobIdentity} {result : Dict} {children : List InteractionJob}
    (h : HandsOff text db job result children) (m : Move cfg db l db')
    (born : ∀ row ∈ children, row ∈ l.born) : HandsOff text db' job result [] := by
  obtain ⟨turns, keys⟩ := h
  refine ⟨turns, fun key hk => .inl ?_⟩
  rcases keys key hk with ⟨row, mem, e⟩ | ⟨row, mem, e⟩
  · obtain ⟨row', mem', same⟩ := m.identity mem
    exact ⟨row', mem', (congrArg JobIdentity.idempotencyKey same).trans e⟩
  · exact ⟨row, (m.effect.rows row).2 (.inr (.inl (born row mem))), e⟩

lemma pending_of_born (m : Move cfg db l db') {row : InteractionJob} (born : row ∈ l.born) :
    row.status = .pending := by
  obtain ⟨new, rfl⟩ := m.pristine born
  rfl

/-- A move that completes as it should keeps the jobs handed off. -/
lemma handedOff_move (m : Move cfg db l db') (h : HandedOff text db) (ok : completions text db l) :
    HandedOff text db' := by
  intro row mem succeeded
  rcases (m.effect.rows row).1 mem with ⟨mem₀, _⟩ | born | now
  · exact handsOff_move (h row mem₀ succeeded) m fun _ h => nomatch h
  · rw [pending_of_born m born] at succeeded
    cases succeeded
  · -- the row that the move is about
    cases l with
    | succeed =>
      cases now
      exact handsOff_move ok m fun _ h => h
    | fail =>
      simp only [Label.after?] at now
      split at now <;> (cases now; cases succeeded)
    | aside => cases now
    | create => cases now
    | claim => cases now; cases succeeded
    | recover => cases now; cases succeeded
    | refuse => cases now; cases succeeded

lemma completions_of_allowed (h : Allowed cfg text w a db l) : completions text db l := by
  cases h with
  | orchestrated _ handoff => exact handoff
  | @report _ _ _ _ _ _ _ l _ _ _ _ moves =>
    cases l with
    | succeed =>
      obtain ⟨rfl, handoff, _⟩ := moves.1
      exact handoff
    | _ => trivial
  | _ => trivial

/-- In every state that a run reaches, each finished job was handed off. -/
lemma handedOff_of_run {ok : World → Action → Prop} (run : Run (World.step cfg text) ok w₀ as w)
    (init : Initial w₀) : HandedOff text w.db := by
  refine (run.invariant (I := fun w => Sound w ∧ HandedOff text w.db) ?_ fun w a h _ => ?_).2
  · refine ⟨sound_of_idle init.2, fun row mem => ?_⟩
    rw [init.1] at mem
    cases mem
  · obtain ⟨sound, handed⟩ := h
    refine ⟨sound_step sound, (step_path cfg text sound a).invariant handed fun _ _ _ h m allowed => ?_⟩
    exact handedOff_move m h (completions_of_allowed allowed)

/-- In every state that the system reaches, a job that has succeeded has its successors. -/
theorem successors_of_succeeded (run : Run (World.step cfg text) Served w₀ as w)
    (init : Initial w₀) {job : InteractionJob} (mem : job ∈ w.db.queue.jobs.rows)
    (succeeded : job.status = .succeeded) : Successors text w job := by
  obtain ⟨turns, keys⟩ := handedOff_of_run run init job mem succeeded
  have queued : ∀ t : Tail, jobKey job.interactionId t.text ∈
      successorKeys text job.toJobIdentity job.result → Queued w job.interactionId t := by
    intro t ht
    obtain ⟨row, mem, key⟩ | ⟨_, h, _⟩ := keys _ ht
    -- a row under the key is one of this interaction and this kind
    · obtain ⟨id, type⟩ := (keyed_of_run run init row mem).of_key key
      exact ⟨row, mem, id, type, key⟩
    · cases h
  by_cases orchestration : job.jobType = .orchestrateInteraction
  · obtain ⟨turns, hturns⟩ := turns orchestration
    simp only [successorKeys, orchestration, hturns, List.mem_append] at queued
    have recording : hasCallSid job.payload → Queued w job.interactionId .recording := by
      intro sid
      refine queued .recording (.inl ?_)
      rw [if_pos sid]
      exact List.mem_cons_self
    by_cases few : turns.length < 4
    · rw [if_pos few] at queued
      refine .short orchestration recording hturns few (queued _ (.inr ?_)) (queued _ (.inr ?_))
      · exact List.mem_cons_self
      · exact List.mem_cons_of_mem _ List.mem_cons_self
    · rw [if_neg few] at queued
      exact .long orchestration recording hturns few (queued .analysis (.inr List.mem_cons_self))
  by_cases analysis : job.jobType = .llmAnalysis
  · simp only [successorKeys, analysis] at queued
    refine .analysis analysis (queued _ ?_) (queued _ ?_)
    · exact List.mem_cons_self
    · exact List.mem_cons_of_mem _ List.mem_cons_self
  · exact .none orchestration analysis

/-- A call without a transcript ends, and is orchestrated. -/
def shortCall : List Action := [
  .endInteraction ⟨1, 1, some "call", none, none, 0, ⟨1, 0, 0⟩, none⟩,
  .orchestrate "orchestrator" 1 (.at 0) (.at 0) fun _ => ⟨Birth.plain, fun _ => none, fun _ => 0⟩]

theorem successors_of_succeeded_plain :
    ∃ job ∈ (after shortCall).db.queue.jobs.rows, job.jobType = .orchestrateInteraction ∧
      Successors .plain (after shortCall) job := by
  have run : Run (World.step settings .plain) Served (.ofInteraction .plain) shortCall
      (after shortCall) := .cons (fun _ h => nomatch h) (.cons (fun _ h => nomatch h) .nil)
  have found : ∃ job ∈ (after shortCall).db.queue.jobs.rows,
      job.jobType = .orchestrateInteraction ∧ job.status = .succeeded := by decide +kernel
  obtain ⟨job, mem, type, succeeded⟩ := found
  exact ⟨job, mem, type, successors_of_succeeded run ⟨rfl, rfl⟩ mem succeeded⟩

end PostCall.Properties
