import Mathlib.Logic.Function.Basic
import PostCall.Machine.Fence
import PostCall.Machine.Fleet

/-!
# The workers in time

The fleet of LLM workers with a clock, which goes on between the actions as it likes. A transaction
stands where it commits, and has read the clock before. The time that the rows of its batch were locked
with and the time of its last step are history variables of a worker: the last step of a worker that
has just claimed a batch is where it read this time.
-/

namespace PostCall.Machine
open PostCall.Library PostCall.Python PostCall.Model LLMWorkerService

namespace LlmWorker

/-- The unfinished snapshots of a worker. -/
def held (worker : LlmWorker) : List ClaimedLLMJob :=
  worker.calling.toList ++ worker.pending.map (·.snapshot)

/-- A worker holds the job of its call and those to come. -/
lemma mem_held {worker : LlmWorker} {snapshot : ClaimedLLMJob} :
    snapshot ∈ worker.held ↔ worker.calling = some snapshot ∨
      ∃ next ∈ worker.pending, next.snapshot = snapshot := by
  simp only [held, List.mem_append, Option.mem_toList, List.mem_map]

@[simp] lemma held_idle : idle.held = [] := rfl

/-- A worker that has just claimed a batch holds the batch. -/
lemma held_reservations {clock : UUID → Clock} {snapshots : List ClaimedLLMJob} :
    LlmWorker.held ⟨Fleet.reservations clock snapshots, none⟩ = snapshots := by
  simp [held, Fleet.reservations, Function.comp_def]

end LlmWorker

structure Shift where
  fleet : Fleet
  now : Time
  claimedAt : ℕ → Time
  since : ℕ → Time

/-- Time passes, or something happens in the fleet. -/
inductive ShiftAction where
  | wait (t : Time)
  | act (a : FleetAction)

namespace Shift

/-- One action. -/
def step (cfg : Settings) (text : Text) (fromisoformat : String → Except PyError Time) (s : Shift) :
    ShiftAction → Shift
  | .wait t => { s with now := t }
  | .act a => { s with
      fleet := s.fleet.step cfg text fromisoformat a
      claimedAt := match a with
        | .claim n _ _ _ query _ => Function.update s.claimedAt n query.now
        | _ => s.claimedAt
      since := match a with
        | .claim n _ _ _ query _ => Function.update s.since n query.now
        | .start n _ => Function.update s.since n s.now
        | .finish n .. => Function.update s.since n s.now
        | _ => s.since }

/-- Idle workers at the beginning of time. -/
def init (db : Db) (workers : ℕ) : Shift := ⟨.init db workers, 0, fun _ => 0, fun _ => 0⟩

end Shift

/-- What the rest of the system does to the database until this time: one action that is none of the LLM
workers, with the executions of the others in flight. -/
def Elsewhere (cfg : Settings) (text : Text) (now : Time) (db db' : Db) : Prop :=
  ∃ w a, w.db = db ∧ (World.step cfg text w a).db = db' ∧ Sound w ∧
    (∀ f ∈ w.inflight, ∀ snapshot, f.work ≠ .analysis snapshot) ∧
    .llmAnalysis ∉ claims a ∧ ∀ recovery ∈ recovery? a, recovery.now ≤ now

/-! ### What leaves the job of a snapshot alone -/

section Untouched

variable {cfg : Settings} {text : Text} {db db' : Db} {job : InteractionJob}

/-- The row of an unfinished snapshot, claimed at a time. -/
structure Running (db : Db) (snapshot : ClaimedLLMJob) (claimedAt : Time) (job : InteractionJob) :
    Prop where
  mem : job ∈ db.queue.jobs.rows
  of : WorkOf job.toJobIdentity (.analysis snapshot)
  running : job.status = .running
  lockedAt : job.lockedAt = some claimedAt

variable {snapshot : ClaimedLLMJob} {claimedAt : Time}

namespace Running

lemma id (h : Running db snapshot claimedAt job) : snapshot.id = job.id := h.of.jobId

/-- A lock that has not timed out is not stale. -/
lemma not_stale (h : Running db snapshot claimedAt job) {now : Time}
    (onTime : now ≤ claimedAt + seconds cfg.jobLockTimeoutSeconds) :
    ¬ job.stale (Queue.lockCutoff cfg now) := by
  intro stale
  simp only [InteractionJob.stale, h.lockedAt, Option.any_some, Bool.and_eq_true,
    decide_eq_true_eq, Queue.lockCutoff] at stale
  have late := of_decide_eq_true stale.2
  linarith

lemma jobType (h : Running db snapshot claimedAt job) : job.jobType = .llmAnalysis := by
  cases h.of with
  | analysis _ type => exact type

/-- An action of the system that neither recovers the job nor ends an execution of it leaves it. -/
lemma step {w : World} {a : Action} (h : Running w.db snapshot claimedAt job) (sound : Sound w)
    (un : ¬ Recovers cfg w a job) (alive : ∀ g, Ends cfg text w a g → g.jobId ≠ job.id) :
    Running (World.step cfg text w a).db snapshot claimedAt job := by
  have type : job.jobType ≠ .orchestrateInteraction := by
    rw [h.jobType]
    exact nofun
  have same := view_of_running sound h.mem h.running type un alive
  have found : (view w.db.queue job.id).row = some job := Queue.get?_of_mem h.mem
  exact ⟨(Queue.get?_eq_some.1 ((congrArg JobView.row same).trans found)).1, h.of, h.running,
    h.lockedAt⟩

/-- So does what happens elsewhere, while the lock has not timed out. -/
lemma elsewhere {now : Time} (h : Running db snapshot claimedAt job)
    (onTime : now ≤ claimedAt + seconds cfg.jobLockTimeoutSeconds)
    (other : Elsewhere cfg text now db db') : Running db' snapshot claimedAt job := by
  obtain ⟨w, a, rfl, rfl, sound, foreign, _, recovers⟩ := other
  refine h.step sound ?_ ?_
  · rintro ⟨recovery, e, _, stale⟩
    exact h.not_stale ((recovers recovery e).trans onTime) stale
  · rintro g ⟨n, outcome, clock, conclusion, _, hg, _⟩ e
    have mem := List.mem_of_getElem? hg
    obtain ⟨job', mem', of⟩ := sound g mem
    obtain rfl : job' = job := Table.eq_of_key mem' h.mem (of.jobId.symm.trans e)
    have type := h.jobType
    obtain ⟨work, claim⟩ := g
    cases of with
    | analysis => exact foreign _ mem _ rfl
    | recording _ other => cases type.symm.trans other
    | result _ other => rcases other with other | other <;> cases type.symm.trans other
    | processed _ other => rcases other with other | other <;> cases type.symm.trans other

/-- So does a claim. -/
lemma claim {workerId : String} {limit : ℕ} {recovery : RecoveryClock} {query : ClaimQuery}
    {clock : UUID → Clock} {admitted : List ClaimedLLMJob} (h : Running db snapshot claimedAt job)
    (onTime : recovery.now ≤ claimedAt + seconds cfg.jobLockTimeoutSeconds)
    (committed : commit (claimAdmittedJobs cfg workerId limit recovery query clock) db =
      some (admitted, db')) : Running db' snapshot claimedAt job := by
  have kept : Running (World.step cfg .plain ⟨db, []⟩
      (.claimAnalyses workerId limit recovery query clock)).db snapshot claimedAt job :=
    h.step (sound_of_idle rfl) (by
      rintro ⟨_, ⟨⟩, _, stale⟩
      exact h.not_stale onTime stale) (by
      rintro g ⟨_, _, _, _, e, _⟩
      cases e)
  have same : (World.step cfg .plain ⟨db, []⟩
      (.claimAnalyses workerId limit recovery query clock)).db = db' := by
    simp only [World.step, World.claim, committed]
  rwa [same] at kept

/-- So does the end of another execution. -/
lemma finish {other : ClaimedLLMJob} {row : InteractionJob} {outcome : ProviderOutcome}
    {births : ChildSlot → Birth} {clock : Clock} (h : Running db snapshot claimedAt job)
    (mem : row ∈ db.queue.jobs.rows) (of : WorkOf row.toJobIdentity (.analysis other))
    (ne : other.id ≠ snapshot.id)
    (ended : attempt (Tx.conclude cfg clock other.id
      (processSnapshot cfg text births clock other outcome)) db = .ok db') :
    Running db' snapshot claimedAt job := by
  obtain ⟨⟨⟩, ended⟩ := attempt_eq_ok.1 ended
  have sound : Sound ⟨db, [⟨.analysis other, 0⟩]⟩ := fun f hf => by
    rw [List.mem_singleton.1 hf]
    exact ⟨row, mem, of⟩
  have kept : Running (World.step cfg text ⟨db, [⟨.analysis other, 0⟩]⟩
      (.report 0 (.analysis outcome births) clock)).db snapshot claimedAt job :=
    h.step sound (by rintro ⟨_, e, _⟩; cases e) (by
      rintro g ⟨n, _, _, _, _, hg, _⟩ e
      have hg := List.mem_of_getElem? hg
      rw [List.mem_singleton.1 hg] at e
      exact ne (e.trans h.id.symm))
  have same : (World.step cfg text ⟨db, [⟨.analysis other, 0⟩]⟩
      (.report 0 (.analysis outcome births) clock)).db = db' := by
    have committed := commit_eq_some.2 ended
    simp only [World.step, World.report, List.getElem?_cons_zero, Work.conclusion,
      World.transact, InFlight.jobId, Work.jobId, committed]
  rwa [same] at kept

end Running

end Untouched

end PostCall.Machine
