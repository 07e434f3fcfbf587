import PostCall.Properties.Terminal

/-!
# Bounded re-execution

The limit on attempts is looked at when a failure is handled, and nowhere else: a claim counts an
attempt and does not ask whether one is left, and neither does a recovery. So a worker that dies
every time is followed by another one without end. A job stays within its limit in the runs in which
a recovery only finds jobs that have an attempt left.
-/

namespace PostCall.Properties
open PostCall.Library PostCall.Python PostCall.Model PostCall.Machine

variable {cfg : Settings} {text : Text} {w w₀ : World} {a : Action} {as : List Action}

/-- The types of the jobs that do not go through the rate limiter. -/
def plainTypes : List JobType := [.recordingFetch, .signalJobs, .leadStageUpdate]

/-- A recovery finds only jobs that have an attempt left. -/
def Spared (cfg : Settings) (w : World) (a : Action) : Prop :=
  ∀ job, Recovers cfg w a job → job.jobType ∈ plainTypes → job.attempts < job.maxAttempts

/-- What a job goes through that is recovered with attempts left only, and never refused. -/
def sparedMoves (_ : JobView) : Label → Prop
  | .recover job _ _ => job.jobType ∈ plainTypes → job.attempts < job.maxAttempts
  | .refuse job _ _ => job.jobType ∉ plainTypes
  | _ => True

lemma Spared.steps (spared : Spared cfg w a) {id : UUID} : Steps cfg text w a id sparedMoves := by
  intro db l db' k m allowed at'
  cases at' with
  | birth => trivial
  | about about =>
    cases allowed with
    | recover timeout => exact spared _ timeout
    | refuse type => simp [sparedMoves, plainTypes, type]
    | @report n f outcome conclusion clock job _ l hf hc mem of moves =>
      cases l with
      | recover => exact moves.1.elim
      | refuse => exact moves.1.elim
      | _ => trivial
    | _ => trivial

/-- A job that waits has an attempt left, and every job has used at most its limit. -/
def WithinLimit (v : JobView) : Prop :=
  ∀ job, v.row = some job → job.jobType ∈ plainTypes → 1 ≤ job.maxAttempts →
    job.attempts ≤ job.maxAttempts ∧
      (job.status = .pending ∨ job.status = .deferred → job.attempts < job.maxAttempts)

lemma withinLimit_of_life {v v' : JobView} {l : Label} (step : Life cfg v l v') (h : WithinLimit v)
    (ok : sparedMoves v l) : WithinLimit v' := by
  intro row hrow type limit
  cases step with
  | create pristine =>
    obtain ⟨new, rfl⟩ := pristine
    cases hrow
    exact ⟨Nat.zero_le _, fun _ => limit⟩
  | claim ready =>
    cases hrow
    exact ⟨(h _ rfl type limit).2 ready, by simp⟩
  | recover running =>
    cases hrow
    exact ⟨(h _ rfl type limit).1, fun _ => ok type⟩
  | succeed running =>
    cases hrow
    exact ⟨(h _ rfl type limit).1, by simp⟩
  | retry next =>
    cases hrow
    -- the handler looks at the limit
    exact ⟨(h _ rfl type limit).1, fun _ => (Failure.of_nextRunAt next).2.1⟩
  | bury =>
    cases hrow
    exact ⟨(h _ rfl type limit).1, by simp⟩
  | refuse =>
    cases hrow
    exact absurd type ok

/-- In a run whose recoveries find jobs with an attempt left only, every job is within its limit. -/
theorem withinLimit_of_run (run : Run (World.step cfg text) (Spared cfg) w₀ as w)
    (init : Initial w₀) (id : UUID) : WithinLimit (view w.db.queue id) := by
  refine view_of_run run (sound_of_idle init.2) id ?_ (fun _ _ _ spared => spared.steps)
    fun _ _ _ h step ok => withinLimit_of_life step h ok
  rw [view_of_initial init]
  exact fun _ h => nomatch h

/-- In a run whose recoveries find jobs with an attempt left only, a job is claimed at most as often
as its limit says. -/
theorem claims_le_of_spared (run : Run (World.step cfg text) (Spared cfg) w₀ as w)
    (init : Initial w₀) :
    ∀ job ∈ w.db.queue.jobs.rows, job.jobType ∈ plainTypes → 1 ≤ job.maxAttempts →
      w.db.queue.timesClaimed job.id ≤ job.maxAttempts ∧ job.attempts ≤ job.maxAttempts := by
  intro job mem type limit
  have counted := (regular_of_run run init job.id).attempts job (view_row mem)
  have le := (withinLimit_of_run run init job.id job (view_row mem) type limit).1
  rw [timesClaimed_view, ← counted]
  exact ⟨le, le⟩

/-- A worker claims the job and dies, `n` times over, and each time the lock times out. -/
def crashes (n : ℕ) : List Action :=
  .createIfAbsent (.plain 1 .signalJobs) :: (List.range n).flatMap fun k => [
    .claimResults "worker" 1 (.at (seconds (301 * k))),
    .crash 0,
    .recoverStaleRunningJobs "recoverer" (.at (seconds (301 * (k + 1))))]

/-- A worker that dies twice, and five attempts. -/
theorem claims_le_of_spared_plain :
    (after (crashes 2)).db.queue.timesClaimed 1 ≤ 5 := by
  have spared : ∀ w a, (∀ job ∈ w.db.queue.jobs.rows, job.attempts < job.maxAttempts) →
      Spared settings w a := by
    rintro w a h job ⟨_, _, mem, _⟩ _
    exact h job mem
  have run : Run (World.step settings .plain) (Spared settings) (.ofInteraction .plain)
      (crashes 2) (after (crashes 2)) :=
    .cons (spared _ _ (by decide)) (.cons (spared _ _ (by decide)) (.cons (spared _ _ (by decide))
      (.cons (spared _ _ (by decide)) (.cons (spared _ _ (by decide)) (.cons (spared _ _ (by decide))
        (.cons (spared _ _ (by decide)) .nil))))))
  have ⟨job, mem, id, type, limit⟩ : ∃ job ∈ (after (crashes 2)).db.queue.jobs.rows,
      job.id = 1 ∧ job.jobType ∈ plainTypes ∧ job.maxAttempts = 5 :=
    ⟨_, List.mem_singleton.2 rfl, by decide, by decide, by decide⟩
  have le := (claims_le_of_spared run ⟨rfl, rfl⟩ job mem type (limit ▸ by decide)).1
  rwa [id, limit] at le

/-- A job with a limit of five attempts is claimed for the sixth time. -/
theorem not_claims_le : ¬ ∀ as, ∀ job ∈ (after as).db.queue.jobs.rows, job.jobType ∈ plainTypes →
    1 ≤ job.maxAttempts → (after as).db.queue.timesClaimed job.id ≤ job.maxAttempts := by
  intro h
  have := h (crashes 6) _ (List.mem_singleton.2 rfl) (by decide) (by decide)
  revert this
  decide

end PostCall.Properties
