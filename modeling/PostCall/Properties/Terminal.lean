import PostCall.Machine.Regular

/-!
# Terminal states

The success transactions look at the status of the row, the failure transaction does not. So a
failure that is reported of a job that has finished brings it back, or buries it once more; in runs
without such a report, a finished job stays as it is, with one dead letter exactly if it was moved
there.
-/

namespace PostCall.Properties
open PostCall.Library PostCall.Python PostCall.Model PostCall.Machine

variable {cfg : Settings} {text : Text} {w w₀ w' : World} {a : Action} {as later : List Action}

/-- The statuses of a finished job. -/
def terminal (status : JobStatus) : Prop := status = .succeeded ∨ status = .deadLettered

instance : DecidablePred terminal := fun _ => inferInstanceAs (Decidable (_ ∨ _))

/-- A job that has finished in the first state has the same status in the second. -/
def KeepsTerminal (w w' : World) : Prop :=
  ∀ job ∈ w.db.queue.jobs.rows, terminal job.status →
    ∃ job' ∈ w'.db.queue.jobs.rows, job'.id = job.id ∧ job'.status = job.status

/-- A job has one dead letter if it was moved there, and none otherwise. -/
def OneDeadLetter (w : World) : Prop :=
  ∀ job ∈ w.db.queue.jobs.rows,
    (w.db.queue.deadLetterJobs.filter (·.originalJobId = job.id)).length =
      if job.status = .deadLettered then 1 else 0

/-- The action does not report the failure of a job that has finished. -/
def Timely (cfg : Settings) (text : Text) (w : World) (a : Action) : Prop :=
  ∀ n outcome clock f failure, a = .report n outcome clock → w.inflight[n]? = some f →
    f.work.conclusion cfg text clock outcome = some (.error failure) →
    ∀ job ∈ w.db.queue.jobs.rows, job.id = f.jobId → ¬ terminal job.status

/-- Failures are of unfinished jobs. -/
def unfinishedFailures (_ : JobView) : Label → Prop
  | .fail job _ _ => ¬ terminal job.status
  | _ => True

lemma Timely.steps (timely : Timely cfg text w a) {id : UUID} :
    Steps cfg text w a id unfinishedFailures := by
  intro db l db' k m allowed at'
  cases at' with
  | birth => trivial
  | about about =>
    cases allowed with
    | unorchestrated _ running => simp [unfinishedFailures, terminal, running]
    | @report n f outcome conclusion clock job _ l hf hc mem of moves =>
      cases l with
      | fail =>
        obtain ⟨rfl, rfl, _⟩ := moves
        exact timely n outcome clock f _ rfl hf hc _ mem of.jobId.symm
      | _ => trivial
    | _ => trivial

/-- The dead letters of a job, as its status has them. -/
structure Buried (v : JobView) : Prop where
  unborn : v.row = none → v.letters = []
  letters : ∀ job, v.row = some job →
    v.letters.length = if job.status = .deadLettered then 1 else 0

/-- A job that is not dead has no letter. -/
lemma Buried.none {v : JobView} {job : InteractionJob} (h : Buried v) (row : v.row = some job)
    (status : job.status ≠ .deadLettered) : v.letters = [] := by
  simpa [status] using h.letters job row

/-- A job that is not dead needs none. -/
lemma Buried.of_nil {row : InteractionJob} {events : List JobEvent} {letters : List DeadLetterJob}
    (nil : letters = []) (status : row.status ≠ .deadLettered) :
    Buried ⟨some row, events, letters⟩ := by
  refine ⟨(fun h => by cases h), ?_⟩
  rintro _ ⟨⟩
  simp [nil, status]

lemma buried_of_life {v v' : JobView} {l : Label} (step : Life cfg v l v') (h : Buried v)
    (ok : unfinishedFailures v l) : Buried v' := by
  cases step with
  | create pristine =>
    obtain ⟨new, rfl⟩ := pristine
    exact .of_nil (h.unborn rfl) (by simp [NewJob.row])
  | claim ready =>
    refine .of_nil (h.none rfl ?_) (by simp)
    rcases ready with ready | ready <;> simp [ready]
  | recover running => exact .of_nil (h.none rfl (by simp [running])) (by simp)
  | succeed running => exact .of_nil (h.none rfl (by simp [running])) (by simp)
  | retry => exact .of_nil (h.none rfl fun e => ok (.inr e)) (by simp)
  | @bury _ letters =>
    obtain rfl : letters = [] := h.none rfl fun e => ok (.inr e)
    refine ⟨(fun h => by cases h), ?_⟩
    rintro _ ⟨⟩
    simp
  | refuse running => exact .of_nil (h.none rfl (by simp [running])) (by simp)

/-- No step is left for a finished job. -/
lemma not_terminal_of_life {v v' : JobView} {l : Label} (step : Life cfg v l v')
    (ok : unfinishedFailures v l) {job : InteractionJob} (row : v.row = some job) :
    ¬ terminal job.status := by
  cases step with
  | create => cases row
  | claim ready =>
    cases row
    rcases ready with ready | ready <;> simp [terminal, ready]
  | recover running => cases row; simp [terminal, running]
  | succeed running => cases row; simp [terminal, running]
  | retry => cases row; exact ok
  | bury => cases row; exact ok
  | refuse running => cases row; simp [terminal, running]

/-- In a run without failures that are reported of finished jobs, nothing happens to a finished job. -/
theorem view_of_terminal (run : Run (World.step cfg text) (Timely cfg text) w as w')
    (sound : Sound w) {job : InteractionJob} (mem : job ∈ w.db.queue.jobs.rows)
    (finished : terminal job.status) : view w'.db.queue job.id = view w.db.queue job.id := by
  refine view_of_run (I := fun v => v = view w.db.queue job.id) run sound job.id rfl
    (fun _ _ _ timely => timely.steps) fun v _ _ same step ok => ?_
  have found : v.row = some job := (congrArg JobView.row same).trans (view_row mem)
  exact absurd finished (not_terminal_of_life step ok found)

/-- In a run without failures that are reported of finished jobs, a job has one dead letter exactly
if it was moved there, and a finished job keeps its status. -/
theorem terminal_of_timely (run : Run (World.step cfg text) (Timely cfg text) w₀ as w)
    (init : Initial w₀) :
    OneDeadLetter w ∧
      ∀ later w', Run (World.step cfg text) (Timely cfg text) w later w' → KeepsTerminal w w' := by
  have sound₀ : Sound w₀ := sound_of_idle init.2
  constructor
  · intro job mem
    have buried : Buried (view w.db.queue job.id) := by
      refine view_of_run run sound₀ job.id ?_ (fun _ _ _ timely => timely.steps)
        fun _ _ _ h step ok => buried_of_life step h ok
      rw [view_of_initial init]
      exact ⟨fun _ => rfl, fun _ h => (nomatch h)⟩
    exact buried.letters job (view_row mem)
  · intro later w' run' job mem finished
    have same := view_of_terminal run' (sound_of_run run sound₀) mem finished
    have row := (congrArg JobView.row same).trans (view_row mem)
    exact ⟨job, (Queue.get?_eq_some.1 row).1, rfl, rfl⟩

/-- A recording job is claimed. -/
def claimedOnce : List Action := [
  .createIfAbsent (.plain 1 .recordingFetch [("call_sid", .str "c"), ("exotel_account_id", .str "a")]),
  .claimRecordings "first" 1 (.at 0)]

/-- Its lock times out, and it is claimed again. -/
def overtaken : List Action := claimedOnce ++ [
  .recoverStaleRunningJobs "recoverer" (.at (seconds 301)),
  .claimRecordings "second" 1 (.at (seconds 301))]

/-- The telephony provider has the recording. -/
def recordingFound : Outcome :=
  .recording (.response 200 (.ok (.dict [("recording_url", .str "url")])) "")

/-- The telephony provider does not answer. -/
def recordingLost : Outcome := .recording (.raises ⟨"ReadTimeout", ""⟩)

/-- Behind the fence every action is timely. -/
lemma timely_of_fenced (fence : Fenced w) : Timely cfg text w a := by
  intro n outcome clock f failure _ hf _ job mem id
  simp [terminal, fence.running (List.mem_of_getElem? hf) mem id]

/-- While no job has finished, every action is timely. -/
lemma timely_of_unfinished (h : ∀ job ∈ w.db.queue.jobs.rows, ¬ terminal job.status) :
    Timely cfg text w a := fun _ _ _ _ _ _ _ _ job mem _ => h job mem

/-- The first claim reports late that the recording is lost. -/
theorem terminal_of_timely_plain :
    OneDeadLetter (after (overtaken ++ [.report 0 recordingLost fun _ => seconds 302])) := by
  have run : Run (World.step settings .plain) (Timely settings .plain) (.ofInteraction .plain)
      (overtaken ++ [.report 0 recordingLost fun _ => seconds 302])
      (after (overtaken ++ [.report 0 recordingLost fun _ => seconds 302])) :=
    .cons (timely_of_unfinished (by decide)) (.cons (timely_of_unfinished (by decide))
      (.cons (timely_of_unfinished (by decide)) (.cons (timely_of_unfinished (by decide))
        (.cons (timely_of_unfinished (by decide)) .nil))))
  exact (terminal_of_timely run ⟨rfl, rfl⟩).1

/-- The second worker succeeds, and then the first one reports a failure. -/
theorem not_terminal : ¬ ∀ as later, KeepsTerminal (after as) (after (as ++ later)) := by
  intro h
  obtain ⟨job, mem, _, status⟩ := h (overtaken ++ [.report 1 recordingFound fun _ => seconds 302])
    [.report 0 recordingLost fun _ => seconds 303] _ (List.mem_singleton.2 rfl) (.inl rfl)
  have deferred : ∀ job ∈ (after ((overtaken ++ [.report 1 recordingFound fun _ => seconds 302]) ++
      [.report 0 recordingLost fun _ => seconds 303])).db.queue.jobs.rows,
      job.status = .deferred := by decide
  rw [deferred job mem] at status
  cases status

end PostCall.Properties
