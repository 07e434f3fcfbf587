import PostCall.Machine.Fence

/-!
# What every life keeps

The rule for runs: what the steps of a life keep under a condition holds of every job after every
run whose moves meet the condition. With it, what holds of every job in every run: the status of a
row determines its lock, the attempts count the claims, and the dead letters count the times that
the job was moved there.
-/

namespace PostCall.Machine
open PostCall.Library PostCall.Python PostCall.Model

variable {cfg : Settings} {text : Text} {w w₀ : World} {as : List Action}
  {ok : World → Action → Prop}

/-- The view of a job before its row is inserted. -/
def JobView.unborn : JobView := ⟨none, [], []⟩

lemma view_of_initial (init : Initial w) (id : UUID) : view w.db.queue id = .unborn := by
  rw [init.1]
  rfl

/-- What is asked of the moves of an action, seen from one job. -/
def Steps (cfg : Settings) (text : Text) (w : World) (a : Action) (id : UUID)
    (okLife : JobView → Label → Prop) : Prop :=
  ∀ db l db' k, Move cfg db l db' → Allowed cfg text w a db l → Label.At id l k →
    okLife (view db.queue id) k

/-- Two conditions of the steps of a life. -/
lemma Steps.and {okLife okLife' : JobView → Label → Prop} {a : Action} {id : UUID}
    (h : Steps cfg text w a id okLife) (h' : Steps cfg text w a id okLife') :
    Steps cfg text w a id fun v l => okLife v l ∧ okLife' v l := by
  intro db l db' k m allowed at'
  exact ⟨h db l db' k m allowed at', h' db l db' k m allowed at'⟩

/-- An invariant of the life of a job, kept by each step that the moves of a run allow. -/
theorem view_of_run {I : JobView → Prop} {okLife : JobView → Label → Prop}
    (run : Run (World.step cfg text) ok w₀ as w) (sound : Sound w₀) (id : UUID)
    (start : I (view w₀.db.queue id))
    (steps : ∀ w a, Sound w → ok w a → Steps cfg text w a id okLife)
    (keep : ∀ v l v', I v → Life cfg v l v' → okLife v l → I v') :
    I (view w.db.queue id) := by
  refine (run.invariant (I := fun w => Sound w ∧ I (view w.db.queue id)) ⟨sound, start⟩
    fun w a h hok => ?_).2
  obtain ⟨sound, holds⟩ := h
  exact ⟨sound_step sound, (life_step sound id (steps w a sound hok)).invariant holds keep⟩

/-- What a job goes through whose lock never times out: no recovery, and no failure but of a running
job. -/
def orderly (_ : JobView) : Label → Prop
  | .recover .. => False
  | .fail job _ _ => job.status = .running
  | _ => True

/-- The execution in flight of a job finds its row running. -/
lemma Fenced.running (fence : Fenced w) {f : InFlight} (hf : f ∈ w.inflight) {job : InteractionJob}
    (mem : job ∈ w.db.queue.jobs.rows) (id : job.id = f.jobId) : job.status = .running := by
  obtain ⟨row, holds⟩ := fence.holds f hf
  rw [Table.eq_of_key mem holds.mem (id.trans holds.of.jobId)]
  exact holds.running

/-- Where no lock times out, the life of a job is orderly. -/
lemma Fenced.steps (fence : Fenced w) {a : Action} (calm : NoTimeout cfg w a) {id : UUID} :
    Steps cfg text w a id orderly := by
  intro db l db' k m allowed at'
  cases at' with
  | birth => trivial
  | about about =>
    cases allowed with
    | recover timeout => exact calm _ timeout
    | unorchestrated _ running => exact running
    | @report n f outcome conclusion clock job _ l hf hc mem of moves =>
      cases l with
      | fail =>
        obtain ⟨rfl, _, _⟩ := moves
        exact fence.running (List.mem_of_getElem? hf) mem of.jobId.symm
      | recover => exact moves.1.elim
      | _ => trivial
    | _ => trivial

/-- The states of such a run are fenced. -/
lemma Fenced.strengthen (fence : Fenced w₀) (run : Run (World.step cfg text) ok w₀ as w)
    (un : ∀ w a, ok w a → Unrecovered cfg w a) :
    Run (World.step cfg text) (fun w a => Fenced w ∧ ok w a) w₀ as w :=
  run.strengthen fence fun w a h hok => h.step (un w a hok)

/-- An invariant of the life of a job in a run without timeouts, where that life is orderly. -/
theorem view_of_orderly {I : JobView → Prop} {okLife : JobView → Label → Prop}
    (run : Run (World.step cfg text) ok w₀ as w) (calm : ∀ w a, ok w a → NoTimeout cfg w a)
    (init : Initial w₀) (id : UUID) (start : I .unborn)
    (steps : ∀ w a, ok w a → Steps cfg text w a id okLife)
    (keep : ∀ v l v', I v → Life cfg v l v' → orderly v l → okLife v l → I v') :
    I (view w.db.queue id) := by
  have fenced := (Fenced.of_idle init.2).strengthen run fun w a h => (calm w a h).unrecovered
  have both : ∀ w a, Sound w → Fenced w ∧ ok w a →
      Steps cfg text w a id fun v l => orderly v l ∧ okLife v l := by
    intro w a _ ⟨fence, h⟩
    exact (fence.steps (calm w a h)).and (steps w a h)
  refine view_of_run fenced (sound_of_idle init.2) id (view_of_initial init id ▸ start) both ?_
  intro v l v' h step ok
  exact keep v l v' h step ok.1 ok.2

/-- The columns of a row that its status determines. -/
structure WellFormed (job : InteractionJob) : Prop where
  lockedBy : job.lockedBy.isSome ↔ job.status = .running
  lockedAt : job.lockedAt.isSome ↔ job.status = .running
  pending : job.status = .pending → job.attempts = 0
  notFailed : job.status ≠ .failed

/-- What holds of every job. -/
structure Regular (v : JobView) : Prop where
  unborn : v.row = none → v = .unborn
  wellFormed : ∀ job, v.row = some job → WellFormed job
  attempts : ∀ job, v.row = some job → job.attempts = v.events.count (.claimed job.id)
  letters : ∀ job, v.row = some job → v.letters.length = v.events.count (.deadLettered job.id)

/-- A row that is not running is without a lock. -/
lemma WellFormed.of_unlocked {job : InteractionJob} (lockedBy : job.lockedBy = none)
    (lockedAt : job.lockedAt = none)
    (status : job.status = .deferred ∨ job.status = .succeeded ∨ job.status = .deadLettered) :
    WellFormed job := by
  rcases status with status | status | status <;>
    exact ⟨by simp [lockedBy, status], by simp [lockedAt, status], by simp [status], by simp [status]⟩

/-- A job that has not been born is regular. -/
lemma Regular.start : Regular .unborn :=
  ⟨fun _ => rfl, fun _ h => (nomatch h), fun _ h => (nomatch h), fun _ h => (nomatch h)⟩

/-- A row whose attempts went up with the claims, with a dead letter for each time it was moved
there. -/
lemma Regular.update {job : InteractionJob} {events : List JobEvent}
    {letters : List DeadLetterJob} (h : Regular ⟨some job, events, letters⟩)
    (job' : InteractionJob) (new : List JobEvent) (added : List DeadLetterJob) (id : job'.id = job.id)
    (well : WellFormed job') (attempts : job'.attempts = new.count (.claimed job.id) + job.attempts)
    (moved : added.length = new.count (.deadLettered job.id)) :
    Regular ⟨some job', new ++ events, letters ++ added⟩ := by
  refine ⟨nofun, ?_, ?_, ?_⟩
  · rintro _ ⟨⟩
    exact well
  · rintro _ ⟨⟩
    simp only [List.count_append, id, attempts, h.attempts _ rfl]
  · rintro _ ⟨⟩
    simp only [List.count_append, List.length_append, id, moved, h.letters _ rfl]
    exact Nat.add_comm _ _

/-- A step of a life keeps it regular. -/
theorem Life.regular {v v' : JobView} {l : Label} (step : Life cfg v l v') (h : Regular v) :
    Regular v' := by
  cases step with
  | create pristine =>
    obtain ⟨new, rfl⟩ := pristine
    cases h.unborn rfl
    refine ⟨nofun, ?_, ?_, ?_⟩
    · rintro _ ⟨⟩
      exact ⟨by simp [NewJob.row], by simp [NewJob.row], fun _ => rfl, by simp [NewJob.row]⟩
    · rintro _ ⟨⟩
      rfl
    · rintro _ ⟨⟩
      rfl
  | @claim _ _ job workerId now =>
    have well : WellFormed (job.claim workerId now) :=
      ⟨by simp [InteractionJob.claim], by simp [InteractionJob.claim], by simp, by simp⟩
    simpa using h.update (job.claim workerId now) [.claimed job.id] [] rfl well
      (by simp [Nat.add_comm]) (by simp)
  | @recover _ _ job workerId now =>
    simpa using h.update (job.recover workerId now) [.recovered job.id] [] rfl
      (.of_unlocked rfl rfl (.inl rfl)) (by simp) (by simp)
  | @succeed _ _ job result tokensUsed now =>
    simpa using h.update (job.markSucceeded result tokensUsed now) [.succeeded job.id] [] rfl
      (.of_unlocked rfl rfl (.inr (.inl rfl))) (by simp) (by simp)
  | @retry _ _ job failure _ runAfter =>
    simpa using h.update (job.defer runAfter failure.errorCode failure.errorMessage)
      [.deferred job.id, .failed job.id] [] rfl (.of_unlocked rfl rfl (.inl rfl)) (by simp) (by simp)
  | @bury _ _ job =>
    exact h.update _ [.deadLettered job.id, .failed job.id] _ rfl
      (.of_unlocked rfl rfl (.inr (.inr rfl))) (by simp) (by simp)
  | @refuse _ _ job clock admission =>
    simpa using h.update (job.defer (clock 1 + seconds admission.deferSeconds) admission.reason
      "LLM admission deferred by rate limiter") [.deferred job.id, .refused job.id job.attempts] []
      rfl (.of_unlocked rfl rfl (.inl rfl)) (by simp) (by simp)

/-- Every job is regular after every run. -/
theorem regular_of_run (run : Run (World.step cfg text) ok w₀ as w) (init : Initial w₀) (id : UUID) :
    Regular (view w.db.queue id) := by
  have steps : ∀ w a, Sound w → ok w a → Steps cfg text w a id anyStep :=
    fun _ _ _ _ _ _ _ _ _ _ _ => trivial
  refine view_of_run run (sound_of_idle init.2) id ?_ steps fun _ _ _ h step _ => step.regular h
  rw [view_of_initial init]
  exact .start

/-- Every job is one of a recorded interaction, after every run. -/
theorem known_of_run (run : Run (World.step cfg text) ok w₀ as w) (init : Initial w₀) :
    ∀ row ∈ w.db.queue.jobs.rows, (errorLog? w.db row.interactionId).isSome := by
  refine (run.invariant (I := fun w => Sound w ∧
    ∀ row ∈ w.db.queue.jobs.rows, (errorLog? w.db row.interactionId).isSome) ?_ fun w a h _ => ?_).2
  · refine ⟨sound_of_idle init.2, fun row mem => ?_⟩
    rw [init.1] at mem
    cases mem
  · obtain ⟨sound, known⟩ := h
    exact ⟨sound_step sound, (step_path cfg text sound a).invariant known fun _ _ _ h m _ => m.known h⟩

/-- A row of the table is what its job looks like. -/
lemma view_row {q : Queue} {job : InteractionJob} (mem : job ∈ q.jobs.rows) :
    (view q job.id).row = some job := Queue.get?_of_mem mem

end PostCall.Machine
