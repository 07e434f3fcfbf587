import PostCall.Machine.Move

/-!
# The life of a job

One job, seen alone: its row, its history and its dead letters. `Life` says what can happen to a
job. It is the state machine that the job table implements, and a move of the database is, for each
job, a step of its life or nothing (`Move.life`), so that what is proved of lives holds of the whole
table.
-/

namespace PostCall.Machine
open PostCall.Library PostCall.Python PostCall.Model

/-- The row of one job, what happened to it, newest first, and its dead letters. -/
structure JobView where
  row : Option InteractionJob
  events : List JobEvent
  letters : List DeadLetterJob

/-- What the queue holds of one job. -/
def view (q : Queue) (id : UUID) : JobView where
  row := q.get? id
  events := q.history.filter (·.job = id)
  letters := q.deadLetterJobs.filter (·.originalJobId = id)

/-- The steps in the life of a job. -/
inductive Life (cfg : Settings) : JobView → Label → JobView → Prop where
  | create {events letters row} :
    Pristine cfg row →
    Life cfg ⟨none, events, letters⟩ (.create row) ⟨some row, events, letters⟩
  | claim {events letters job workerId now} :
    job.status = .pending ∨ job.status = .deferred →
    job.runAfter ≤ now →
    Life cfg ⟨some job, events, letters⟩ (.claim job workerId now)
      ⟨some (job.claim workerId now), .claimed job.id :: events, letters⟩
  | recover {events letters job workerId now} :
    job.status = .running →
    Life cfg ⟨some job, events, letters⟩ (.recover job workerId now)
      ⟨some (job.recover workerId now), .recovered job.id :: events, letters⟩
  | succeed {events letters job result tokensUsed now children} :
    job.status = .running →
    Life cfg ⟨some job, events, letters⟩ (.succeed job result tokensUsed now children)
      ⟨some (job.markSucceeded result tokensUsed now), .succeeded job.id :: events, letters⟩
  | retry {events letters job failure clock runAfter} :
    failure.nextRunAt cfg (clock 0) job = some runAfter →
    Life cfg ⟨some job, events, letters⟩ (.fail job failure clock)
      ⟨some (job.defer runAfter failure.errorCode failure.errorMessage),
        .deferred job.id :: .failed job.id :: events, letters⟩
  | bury {events letters job failure clock} :
    failure.nextRunAt cfg (clock 0) job = none →
    Life cfg ⟨some job, events, letters⟩ (.fail job failure clock)
      ⟨some (job.deadLetter failure.errorCode failure.errorMessage (clock 2)),
        .deadLettered job.id :: .failed job.id :: events,
        letters ++ [.ofJob job failure.stage failure.errorCode failure.errorMessage]⟩
  | refuse {events letters job clock admission} :
    job.status = .running →
    Life cfg ⟨some job, events, letters⟩ (.refuse job clock admission)
      ⟨some (job.defer (clock 1 + seconds admission.deferSeconds) admission.reason
        "LLM admission deferred by rate limiter"),
        .deferred job.id :: .refused job.id job.attempts :: events, letters⟩

/-- After a step of its life a job has a row. -/
lemma Life.row_ne_none {cfg : Settings} {v v' : JobView} {l : Label} (step : Life cfg v l v') :
    v'.row ≠ none := by
  cases step <;> exact Option.some_ne_none _

/-- The step `k` in the life of one job that a move is. -/
inductive Label.At (id : UUID) : Label → Label → Prop where
  | about {l job} :
    l.job? = some job →
    job.id = id →
    At id l l
  | birth {l row} :
    row ∈ l.born →
    row.id = id →
    At id l (.create row)

/-- Every event and every dead letter of a move is about the job of the move. -/
lemma Label.job_of_event {cfg : Settings} {l : Label} {e : JobEvent} (h : e ∈ l.events cfg) :
    ∃ job, l.job? = some job ∧ e.job = job.id := by
  cases l with
  | aside => cases h
  | create => cases h
  | claim job => exact ⟨job, rfl, by rw [List.mem_singleton.1 h]; rfl⟩
  | recover job => exact ⟨job, rfl, by rw [List.mem_singleton.1 h]; rfl⟩
  | succeed job => exact ⟨job, rfl, by rw [List.mem_singleton.1 h]; rfl⟩
  | fail job failure clock =>
    refine ⟨job, rfl, ?_⟩
    simp only [Label.events] at h
    split at h <;>
    · simp only [List.mem_cons, List.not_mem_nil, or_false] at h
      rcases h with rfl | rfl <;> rfl
  | refuse job =>
    refine ⟨job, rfl, ?_⟩
    simp only [Label.events, List.mem_cons, List.not_mem_nil, or_false] at h
    rcases h with rfl | rfl <;> rfl

/-- A dead letter of a move is that of its job. -/
lemma Label.job_of_letter {cfg : Settings} {l : Label} {d : DeadLetterJob}
    (h : d ∈ l.letters cfg) : ∃ job, l.job? = some job ∧ d.originalJobId = job.id := by
  cases l with
  | fail job failure clock =>
    refine ⟨job, rfl, ?_⟩
    simp only [Label.letters] at h
    split at h
    · cases h
    · rw [List.mem_singleton.1 h]
      rfl
  | _ => cases h

/-- Queues with the same rows of an id find the same. -/
lemma get?_congr {q q' : Queue} {id : UUID}
    (h : ∀ row, row.id = id → (row ∈ q'.jobs.rows ↔ row ∈ q.jobs.rows)) : q'.get? id = q.get? id := by
  ext row
  rw [Queue.get?_eq_some, Queue.get?_eq_some]
  constructor
  · rintro ⟨mem, e⟩
    exact ⟨(h row e).1 mem, e⟩
  · rintro ⟨mem, e⟩
    exact ⟨(h row e).2 mem, e⟩

namespace Effect

variable {cfg : Settings} {db db' : Db} {l : Label}

/-- A job that the move is not about looks as before. -/
lemma view_of_ne (h : Effect cfg db l db') {id : UUID}
    (other : ∀ job, l.job? = some job → job.id ≠ id) (unborn : ∀ row ∈ l.born, row.id ≠ id) :
    view db'.queue id = view db.queue id := by
  have row : db'.queue.get? id = db.queue.get? id := by
    refine get?_congr fun row e => ?_
    rw [h.rows]
    constructor
    · rintro (⟨mem, _⟩ | mem | mem)
      · exact mem
      · exact absurd e (unborn row mem)
      · obtain ⟨job, hj⟩ := Move.job_of_after mem
        have same : row.id = job.id := congrArg JobIdentity.id (Move.identity_after mem hj)
        exact absurd (same.symm.trans e) (other job hj)
    · intro mem
      exact .inl ⟨mem, fun job hj => e ▸ (other job hj).symm⟩
  have events : (l.events cfg).filter (·.job = id) = [] := by
    refine List.filter_eq_nil_iff.2 fun e he => ?_
    obtain ⟨job, hj, e⟩ := Label.job_of_event he
    simpa [e] using other job hj
  have letters : (l.letters cfg).filter (·.originalJobId = id) = [] := by
    refine List.filter_eq_nil_iff.2 fun d hd => ?_
    obtain ⟨job, hj, e⟩ := Label.job_of_letter hd
    simpa [e] using other job hj
  simp only [view, row, h.history, h.letters, List.filter_append, events, letters,
    List.nil_append, List.append_nil]

/-- The job of the move has its new row, the new events and the new letters. -/
lemma view_of_job (h : Effect cfg db l db') {job row : InteractionJob} (e : l.job? = some job)
    (after : l.after? cfg = some row) :
    view db'.queue job.id = ⟨some row, l.events cfg ++ (view db.queue job.id).events,
      (view db.queue job.id).letters ++ l.letters cfg⟩ := by
  have same : row.id = job.id := congrArg JobIdentity.id (Move.identity_after after e)
  have found : db'.queue.get? job.id = some row :=
    Queue.get?_eq_some.2 ⟨(h.rows row).2 (.inr (.inr after)), same⟩
  have events : (l.events cfg).filter (·.job = job.id) = l.events cfg := by
    refine List.filter_eq_self.2 fun ev he => ?_
    obtain ⟨job', hj, e'⟩ := Label.job_of_event he
    rw [e] at hj
    cases hj
    simpa using e'
  have letters : (l.letters cfg).filter (·.originalJobId = job.id) = l.letters cfg := by
    refine List.filter_eq_self.2 fun d hd => ?_
    obtain ⟨job', hj, e'⟩ := Label.job_of_letter hd
    rw [e] at hj
    cases hj
    simpa using e'
  simp only [view, found, h.history, h.letters, List.filter_append, events, letters]

/-- A new job has its row, and no history but what was there. -/
lemma view_of_born (h : Effect cfg db l db') {row : InteractionJob} (born : row ∈ l.born)
    (other : ∀ job, l.job? = some job → job.id ≠ row.id) :
    view db'.queue row.id =
      ⟨some row, (view db.queue row.id).events, (view db.queue row.id).letters⟩ := by
  have found : db'.queue.get? row.id = some row :=
    Queue.get?_eq_some.2 ⟨(h.rows row).2 (.inr (.inl born)), rfl⟩
  have events : (l.events cfg).filter (·.job = row.id) = [] := by
    refine List.filter_eq_nil_iff.2 fun e he => ?_
    obtain ⟨job, hj, e⟩ := Label.job_of_event he
    simpa [e] using other job hj
  have letters : (l.letters cfg).filter (·.originalJobId = row.id) = [] := by
    refine List.filter_eq_nil_iff.2 fun d hd => ?_
    obtain ⟨job, hj, e⟩ := Label.job_of_letter hd
    simpa [e] using other job hj
  simp only [view, found, h.history, h.letters, List.filter_append, events, letters,
    List.nil_append, List.append_nil]

end Effect

/-- A move about a job is a step of its life. -/
lemma Move.life_of_job {cfg : Settings} {db db' : Db} {l : Label} (m : Move cfg db l db')
    {job : InteractionJob} (e : l.job? = some job) :
    Life cfg (view db.queue job.id) l (view db'.queue job.id) := by
  obtain ⟨row, after⟩ := Move.after_of_job cfg e
  rw [m.effect.view_of_job e after]
  have before : view db.queue job.id =
      ⟨some job, (view db.queue job.id).events, (view db.queue job.id).letters⟩ := by
    rw [view, Queue.get?_of_mem (m.job_mem e)]
  rw [before]
  cases m with
  | aside => cases e
  | create => cases e
  | claim _ ready due =>
    cases e
    cases after
    simpa [Label.events, Label.letters] using Life.claim ready due
  | recover _ running _ =>
    cases e
    cases after
    simpa [Label.events, Label.letters] using Life.recover running
  | succeed _ running _ _ =>
    cases e
    cases after
    simpa [Label.events, Label.letters] using Life.succeed running
  | @fail job failure clock _ =>
    -- a failure is a retry or a burial, as its next run says
    cases e
    simp only [Label.after?] at after
    cases next : failure.nextRunAt cfg (clock 0) job with
    | some runAfter =>
      rw [next] at after
      cases after
      simpa [Label.events, Label.letters, next] using Life.retry next
    | none =>
      rw [next] at after
      cases after
      simpa [Label.events, Label.letters, next] using Life.bury next
  | refuse _ running =>
    cases e
    cases after
    simpa [Label.events, Label.letters] using Life.refuse running

/-- A job that a move creates is new. -/
lemma Move.pristine {cfg : Settings} {db db' : Db} {l : Label} (m : Move cfg db l db')
    {row : InteractionJob} (h : row ∈ l.born) : Pristine cfg row := by
  cases m with
  | create pristine => rw [List.mem_singleton.1 h]; exact pristine
  | succeed _ _ born => exact (born row h).1
  | aside => cases h
  | claim => cases h
  | recover => cases h
  | fail => cases h
  | refuse => cases h

/-- For each job, a move is a step of its life or nothing. -/
theorem Move.life {cfg : Settings} {db db' : Db} {l : Label} (m : Move cfg db l db') (id : UUID) :
    view db'.queue id = view db.queue id ∨
      ∃ k, Label.At id l k ∧ Life cfg (view db.queue id) k (view db'.queue id) := by
  by_cases about : ∃ job, l.job? = some job ∧ job.id = id
  · obtain ⟨job, e, rfl⟩ := about
    exact .inr ⟨l, .about e rfl, m.life_of_job e⟩
  · have other : ∀ job, l.job? = some job → job.id ≠ id := fun job e h => about ⟨job, e, h⟩
    by_cases birth : ∃ row ∈ l.born, row.id = id
    · obtain ⟨row, born, rfl⟩ := birth
      refine .inr ⟨.create row, .birth born rfl, ?_⟩
      rw [m.effect.view_of_born born other, show view db.queue row.id =
        ⟨none, (view db.queue row.id).events, (view db.queue row.id).letters⟩ by
          rw [view, m.effect.fresh row born]]
      exact .create (m.pristine born)
    · exact .inl (m.effect.view_of_ne other fun row born h => birth ⟨row, born, h⟩)

/-- A path of moves is, for each job, a path of steps of its life. -/
theorem life_of_path {cfg : Settings} {ok : Db → Label → Prop} {db db' : Db} (id : UUID)
    (p : Path (Move cfg) ok db db') {okLife : JobView → Label → Prop}
    (imp : ∀ db l db' k, Move cfg db l db' → ok db l → Label.At id l k →
      okLife (view db.queue id) k) :
    Path (Life cfg) okLife (view db.queue id) (view db'.queue id) := by
  refine p.map (fun db => view db.queue id) fun db l db' m h => ?_
  rcases m.life id with e | ⟨k, at', step⟩
  · exact .inl e
  · exact .inr ⟨k, step, imp db l db' k m h at'⟩

end PostCall.Machine
