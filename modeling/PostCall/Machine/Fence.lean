import PostCall.Machine.Executions

/-!
# The fence

A worker that reports looks at the status of the row and at nothing else. That is enough as long as
no job is recovered while one of its executions is still in flight: then a job has one execution at
a time, the row is running all the while, and no step but the report of that execution touches the
job (`view_of_running`).
-/

namespace PostCall.Machine
open PostCall.Library PostCall.Python PostCall.Model

variable {cfg : Settings} {text : Text} {ok : Db → Label → Prop} {w : World} {a : Action}

/-- The claims of a job, counted in its own history. -/
lemma timesClaimed_view {q : Queue} {id : UUID} :
    q.timesClaimed id = (view q id).events.count (.claimed id) := by
  unfold Queue.timesClaimed view
  rw [List.count_filter (by simp [JobEvent.job])]

/-- A job that has a row, and that no move of a path is about, is left alone. -/
theorem view_of_path {db db' : Db} (p : Path (Move cfg) ok db db') {job : InteractionJob}
    (mem : job ∈ db.queue.jobs.rows)
    (ne : ∀ s l s', Move cfg s l s' → ok s l → job ∈ s.queue.jobs.rows →
      ∀ job', l.job? = some job' → job'.id ≠ job.id) :
    view db'.queue job.id = view db.queue job.id := by
  have found : (view db.queue job.id).row = some job := Queue.get?_of_mem mem
  refine p.invariant (I := fun s => view s.queue job.id = view db.queue job.id) rfl
    fun s l s' same m h => ?_
  have here : s.queue.get? job.id = some job := (congrArg JobView.row same).trans found
  refine (m.effect.view_of_ne (ne s l s' m h (Queue.get?_eq_some.1 here).1) ?_).trans same
  intro row born e
  have fresh := m.effect.fresh row born
  rw [e, here] at fresh
  cases fresh

/-- A report is about the job of the execution that it ends. -/
lemma job_of_reportMoves {work : Work} {conclusion : Except Failure (Tx Unit)} {clock : Clock}
    {job job' : InteractionJob} {db : Db} {l : Label}
    (moves : reportMoves cfg text work conclusion clock job db l) (about : l.job? = some job') :
    job' = job := by
  cases l with
  | succeed => cases about; exact moves.1.1
  | fail => cases about; exact moves.1
  | aside => cases about
  | create => cases about
  | _ => exact moves.1.elim

/-- A running job that is not one of the orchestrator is not touched by an action that does not
recover it, and ends no execution of it. -/
theorem view_of_running (sound : Sound w) {job : InteractionJob} (mem : job ∈ w.db.queue.jobs.rows)
    (running : job.status = .running) (type : job.jobType ≠ .orchestrateInteraction)
    (un : ¬ Recovers cfg w a job) (alive : ∀ g, Ends cfg text w a g → g.jobId ≠ job.id) :
    view (World.step cfg text w a).db.queue job.id = view w.db.queue job.id := by
  refine view_of_path (step_path cfg text sound a) mem ?_
  intro s l s' m allowed here job' about e
  obtain rfl : job' = job := Table.eq_of_key (m.job_mem about) here e
  -- each move about the job finds its row not running, or follows a recovery, or is the report
  cases allowed with
  | aside => cases about
  | bare => cases about
  | webhook => cases about
  | legacy => cases about
  | child => cases about
  | recover timeout =>
    cases about
    exact un timeout
  | claim =>
    cases about
    cases m with
    | claim _ ready => rcases ready with ready | ready <;> simp [running] at ready
  | orchestrated root =>
    cases about
    exact type root
  | unorchestrated root =>
    cases about
    exact type root
  | refuse _ mem' same free =>
    cases about
    obtain rfl := Table.eq_of_key mem' mem (congrArg JobIdentity.id same)
    rcases free with free | stale
    · exact free running
    · exact un ⟨_, rfl, mem', stale⟩
  | @report n g outcome conclusion clock job₀ _ l hg hc mem of moves =>
    refine alive g ⟨n, outcome, clock, conclusion, rfl, hg, hc⟩ ?_
    exact of.jobId.trans (congrArg (·.id) (job_of_reportMoves moves about)).symm

/-- What the execution under the latest claim finds: the row of its job, running, as it was when it
was claimed. -/
structure Holds (db : Db) (f : InFlight) (job : InteractionJob) : Prop where
  mem : job ∈ db.queue.jobs.rows
  of : WorkOf job.toJobIdentity f.work
  running : job.status = .running
  claim : f.claim = db.queue.timesClaimed job.id
  attempts : ∀ n, attempts? f.work = some n → n = job.attempts

/-- A job has one execution at a time, and it is the one of the latest claim. -/
structure Fenced (w : World) : Prop where
  nodup : (w.inflight.map (·.jobId)).Nodup
  holds : ∀ f ∈ w.inflight, ∃ job, Holds w.db f job

/-- The action recovers no job that has an execution in flight. -/
def Unrecovered (cfg : Settings) (w : World) (a : Action) : Prop :=
  ∀ job, Recovers cfg w a job → ∀ f ∈ w.inflight, f.jobId ≠ job.id

/-- The action recovers no job. -/
def NoTimeout (cfg : Settings) (w : World) (a : Action) : Prop := ∀ job, ¬ Recovers cfg w a job

/-- Where no lock times out, no job with an execution is recovered. -/
lemma NoTimeout.unrecovered (h : NoTimeout cfg w a) : Unrecovered cfg w a :=
  fun job timeout => absurd timeout (h job)

/-- Whether an action recovers no job can be read from the rows. -/
instance {cfg : Settings} {w : World} {a : Action} : Decidable (NoTimeout cfg w a) :=
  decidable_of_iff (∀ recovery ∈ recovery? a, ∀ job ∈ w.db.queue.jobs.rows,
      ¬ job.stale (Queue.lockCutoff cfg recovery.now)) <| by
    constructor
    · rintro h job ⟨recovery, e, mem, stale⟩
      exact h recovery e job mem stale
    · intro calm recovery e job mem stale
      exact calm job ⟨recovery, e, mem, stale⟩

namespace Fenced

lemma of_idle (h : w.inflight = []) : Fenced w := by
  refine ⟨by simp [h], fun f hf => ?_⟩
  rw [h] at hf
  cases hf

lemma sound (fence : Fenced w) : Sound w := fun f hf => by
  obtain ⟨job, holds⟩ := fence.holds f hf
  exact ⟨job, holds.mem, holds.of⟩

/-- A job is not touched while one of its executions is in flight. -/
theorem view_step (fence : Fenced w) (un : Unrecovered cfg w a) {f : InFlight}
    (hf : f ∈ w.inflight) (alive : ∀ g, Ends cfg text w a g → g.jobId ≠ f.jobId) :
    view (World.step cfg text w a).db.queue f.jobId = view w.db.queue f.jobId := by
  obtain ⟨job, holds⟩ := fence.holds f hf
  have id : f.jobId = job.id := holds.of.jobId
  rw [id] at alive ⊢
  exact view_of_running fence.sound holds.mem holds.running holds.of.jobType_ne
    (fun timeout => un job timeout f hf id) alive

/-- A deferred job is not touched by an action that recovers no job, and claims none of its type. -/
theorem view_of_deferred (fence : Fenced w) (calm : NoTimeout cfg w a) {job : InteractionJob}
    (mem : job ∈ w.db.queue.jobs.rows) (deferred : job.status = .deferred)
    (type : job.jobType ∉ claims a) :
    view (World.step cfg text w a).db.queue job.id = view w.db.queue job.id := by
  refine view_of_path (step_path cfg text fence.sound a) mem ?_
  intro s l s' m allowed here job' about e
  obtain rfl : job' = job := Table.eq_of_key (m.job_mem about) here e
  cases allowed with
  | aside => cases about
  | bare => cases about
  | webhook => cases about
  | legacy => cases about
  | child => cases about
  | recover timeout =>
    cases about
    exact calm _ timeout
  | claim claimed =>
    cases about
    exact type claimed
  | orchestrated root =>
    cases about
    exact type (List.mem_singleton.2 root)
  | unorchestrated root =>
    cases about
    exact type (List.mem_singleton.2 root)
  | refuse analysis =>
    cases about
    exact type (List.mem_singleton.2 analysis)
  | @report n g outcome conclusion clock job₀ _ l hg hc mem₀ of moves =>
    -- the execution that is reported has a running row
    obtain ⟨row, holds⟩ := fence.holds g (List.mem_of_getElem? hg)
    obtain rfl := job_of_reportMoves moves about
    have id : job'.id = row.id := of.jobId.symm.trans holds.of.jobId
    rw [Table.eq_of_key mem₀ holds.mem id, holds.running] at deferred
    cases deferred

/-- An action that recovers no job in flight keeps the fence. -/
theorem step (fence : Fenced w) (un : Unrecovered cfg w a) : Fenced (World.step cfg text w a) := by
  obtain ⟨kept, begun, ex⟩ := executions_step cfg text w a
  -- a claim takes no job of an execution in flight: that job is running, and was not recovered
  have disjoint : ∀ g ∈ begun, ∀ f ∈ w.inflight, f.jobId ≠ g.jobId := by
    intro g hg f hf e
    obtain ⟨job, mem, of, _, _, _, row, mem₀, same, free⟩ := ex.begins g hg
    obtain ⟨job₀, holds⟩ := fence.holds f hf
    have id : row.id = job₀.id := (congrArg JobIdentity.id same).trans
      (of.jobId.symm.trans (e.symm.trans holds.of.jobId))
    obtain rfl := Table.eq_of_key mem₀ holds.mem id
    rcases free with free | timeout
    · exact free holds.running
    · exact un row timeout f hf holds.of.jobId
  refine ⟨?_, fun f' hf' => ?_⟩
  · rw [ex.split, List.map_append]
    refine (fence.nodup.sublist ex.sublist).append ex.nodup fun id hk hb => ?_
    obtain ⟨f', hf', rfl⟩ := List.mem_map.1 hk
    obtain ⟨g, hg, e⟩ := List.mem_map.1 hb
    obtain ⟨f, hf, go⟩ := ex.continues f' hf'
    exact disjoint g hg f hf (go.jobId.symm.trans e.symm)
  rw [ex.split] at hf'
  rcases List.mem_append.1 hf' with hf' | hf'
  · obtain ⟨f, hf, go⟩ := ex.continues f' hf'
    obtain ⟨job, holds⟩ := fence.holds f hf
    have alive : ∀ g, Ends cfg text w a g → g.jobId ≠ f.jobId := fun g hg e =>
      ex.ended fence.nodup g hg f' hf' (go.jobId.trans e.symm)
    have same := fence.view_step un hf alive
    rw [show f.jobId = job.id from holds.of.jobId] at same
    refine ⟨job, ?_, go.of _ holds.of, holds.running, ?_, fun n hn => ?_⟩
    · have found : (view w.db.queue job.id).row = some job := Queue.get?_of_mem holds.mem
      exact (Queue.get?_eq_some.1 ((congrArg JobView.row same).trans found)).1
    · rw [go.claim, holds.claim, timesClaimed_view, timesClaimed_view, same]
    · exact holds.attempts n (go.attempts ▸ hn)
  · obtain ⟨job, mem, of, running, claim, attempts, _⟩ := ex.begins f' hf'
    exact ⟨job, mem, of, running, claim, attempts⟩

/-- A run in which no job in flight is recovered keeps the fence. -/
theorem run {ok : World → Action → Prop} {w₀ : World} {as : List Action}
    (run : Run (World.step cfg text) ok w₀ as w) (un : ∀ w a, ok w a → Unrecovered cfg w a)
    (fence : Fenced w₀) : Fenced w :=
  run.invariant fence fun w a h hok => h.step (un w a hok)

end Fenced

end PostCall.Machine
