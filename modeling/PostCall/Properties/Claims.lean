import PostCall.Machine.Sessions
import PostCall.Model.World

/-!
# Claims are exclusive and in order

A claim takes the first ready rows by priority and age, whatever rows are locked, and changes no
other row. Over all interleavings of the statements of claims, recoveries and reports, no two open
transactions have claimed the same row, and a job is released between two claims of it.
-/

namespace PostCall.Properties
open PostCall.Library PostCall.Python PostCall.Model PostCall.Machine

/-- In the order HIGH, MEDIUM, LOW, and then of the time of creation, the first job comes first. -/
def Outranks (b a : InteractionJob) : Prop :=
  priorityOrder b.priority < priorityOrder a.priority ∨
    (priorityOrder b.priority = priorityOrder a.priority ∧ b.createdAt < a.createdAt)

lemma not_outranks_of_claimOrder {tie : UUID → ℕ} {a b : InteractionJob} (h : claimOrder tie a b) :
    ¬ Outranks b a := by
  unfold claimOrder at h
  unfold Outranks
  grind

/-- What `claim_ready_jobs` does to a table. -/
structure ClaimsFirst (q : Queue) (workerId : String) (jobTypes : List JobType) (limit : ℕ)
    (query : ClaimQuery) : Prop where
  ready : ∀ row ∈ q.readyJobs jobTypes limit query, row ∈ q.jobs.rows ∧ row.jobType ∈ jobTypes ∧
    (row.status = .pending ∨ row.status = .deferred) ∧ row.runAfter ≤ query.now ∧
    query.locked row.id = false
  count : (q.readyJobs jobTypes limit query).length =
    min limit (q.jobs.rows.filter (·.ready jobTypes query.now query.locked)).length
  distinct : ((q.readyJobs jobTypes limit query).map (·.id)).Nodup
  ordered : (q.readyJobs jobTypes limit query).Pairwise fun a b => ¬ Outranks b a
  first : ∀ a ∈ q.readyJobs jobTypes limit query, ∀ b ∈ q.jobs.rows,
    b.ready jobTypes query.now query.locked → b ∉ q.readyJobs jobTypes limit query →
    ¬ Outranks b a
  rows : (q.claimReadyJobs workerId jobTypes limit query).1.jobs.rows = q.jobs.rows.map fun row =>
    if row.id ∈ (q.readyJobs jobTypes limit query).map (·.id) then row.claim workerId query.now
    else row
  returned : (q.claimReadyJobs workerId jobTypes limit query).2 =
    (q.readyJobs jobTypes limit query).map (·.claim workerId query.now)

/-- A claim takes the first jobs of the order. -/
lemma claimsFirst (q : Queue) (workerId : String) (jobTypes : List JobType) (limit : ℕ)
    (query : ClaimQuery) : ClaimsFirst q workerId jobTypes limit query where
  ready _ mem := Queue.of_mem_readyJobs mem
  count := length_select
  distinct := Queue.nodup_readyJobs
  ordered := pairwise_select.imp not_outranks_of_claimOrder
  first _ ha _ hb ready out := not_outranks_of_claimOrder (rel_of_not_mem_select ha hb ready out)
  rows := Queue.claimReadyJobs_rows
  returned := rfl

/-- Between two claims of a job there is a release of it. -/
def ReleasedBetween (history : List JobEvent) : Prop :=
  ∀ id h₁ h₂ h₃, history = h₁ ++ .claimed id :: (h₂ ++ .claimed id :: h₃) → ∃ e ∈ h₂, IsRelease id e

/-- Between two claims of a job there is a release. -/
lemma releasedBetween {q : Queue} (h : ∀ id, (view q id).Released id) :
    ReleasedBetween q.history := by
  intro id h₁ h₂ h₃ e
  have separated := (h id).separated
  -- the history of the job alone is split in the same way
  simp only [view, e, List.filter_append, List.filter_cons, JobEvent.job, decide_true, if_true]
    at separated
  obtain ⟨c, mem, release⟩ := separated.between rfl rfl (by simp [IsRelease])
  exact ⟨c, (List.mem_filter.1 mem).1, release⟩

lemma mem_written_of_claims {a : Session} {id : UUID} (h : id ∈ a.claims) : id ∈ a.written := by
  obtain ⟨u, mem, rfl⟩ := List.mem_map.1 h
  exact List.mem_map.2 ⟨u, (List.mem_filter.1 mem).1, rfl⟩

/-- For every table, `claim_ready_jobs` claims the first ready rows that no other transaction has
locked, in order, and changes no other row. In every interleaving of the statements of overlapping
transactions, no two of them have claimed the same row, and in what is committed and in what each of
them sees, a job is released between two claims of it. -/
theorem claims_exclusive (cfg : Settings) :
    (∀ q workerId jobTypes limit query, ClaimsFirst q workerId jobTypes limit query) ∧
      ∀ (jobs : JobTable) (connections : ℕ) (requests : List Request),
        let s := requests.foldl (Server.step cfg) (.start jobs connections)
        (∀ (n m : ℕ) (a b : Session), n ≠ m → s.sessions[n]? = some a → s.sessions[m]? = some b →
            ∀ id ∈ a.claims, id ∉ b.claims) ∧
          ReleasedBetween s.queue.history ∧
          ∀ a ∈ s.sessions, ReleasedBetween (a.queue s.queue).history := by
  refine ⟨claimsFirst, fun jobs connections requests => ?_⟩
  have run : Run (Server.step cfg) anyStep (.start jobs connections) requests
      (requests.foldl (Server.step cfg) (.start jobs connections)) := .of_foldl requests
  have sound := run.invariant (Server.sound_start jobs connections)
    fun s request h _ => Server.sound_step request h
  refine ⟨fun n m a b ne ha hb id claimed claimed' => ?_, releasedBetween sound.committed,
    fun a mem => ?_⟩
  · exact sound.exclusive n m a b ne ha hb id (mem_written_of_claims claimed)
      (mem_written_of_claims claimed')
  · obtain ⟨n, found⟩ := List.mem_iff_getElem?.1 mem
    exact releasedBetween (sound.sessions n a found).released

/-- Of two overlapping claims the first gets the row. The worker that found none recovers the row when
its lock is stale, and claims it. -/
def twoClaims : List Request := [
  .insert ((NewJob.plain 1 .llmAnalysis).row settings),
  .claim 0 "first" [.llmAnalysis] 5 0 fun _ => 0,
  .claim 1 "second" [.llmAnalysis] 5 0 fun _ => 0,
  .commit 0,
  .loadStale 1 (seconds 100000),
  .write 1 1 (.recover "second" (seconds 100000)),
  .claim 1 "second" [.llmAnalysis] 5 (seconds 100000) fun _ => 0,
  .commit 1]

example : ((twoClaims.take 3).foldl (Server.step settings) (.start .empty 2)).sessions.map
    (·.claims) = [[1], []] := by decide +kernel

example : (twoClaims.foldl (Server.step settings) (.start .empty 2)).queue.history =
    [.claimed 1, .recovered 1, .claimed 1] := by decide +kernel

end PostCall.Properties
