import PostCall.Machine.Fence
import PostCall.Properties.Inversion

/-!
# One refusal a minute

A refusal defers the job by whole seconds, into the first second after the end of the minute window.
The worker adds the delay to a later reading of its clock, and the claim takes a job only when its
time has come, so a job that was refused is asked for again in a later window.
-/

namespace PostCall.Properties
open PostCall.Library PostCall.Python PostCall.Model PostCall.Machine

variable {cfg : Settings} {text : Text} {w : World} {a : Action} {t t' : UsageTable}

/-! ### The delay -/

/-- The end of the minute window of a time. -/
def windowEnd (now : Time) : Time := minuteWindow now + seconds 60

/-- The whole seconds to the first second after a window, of which this much is over. -/
lemma wholeSeconds_bounds {past : ℤ} (nonneg : 0 ≤ past) (lt : past < 60000000) :
    let delay := max ((61000000 - past) / 1000000) 1
    1 ≤ delay ∧ delay ≤ 61 ∧ 60000000 < past + delay * 1000000 ∧
      past + delay * 1000000 ≤ 61000000 := by
  intro delay
  omega

/-- The delay of a refusal ends within the first second after the window. -/
lemma secondsToNextWindow_bounds (now : Time) :
    1 ≤ secondsToNextWindow now ∧ secondsToNextWindow now ≤ 61 ∧
      windowEnd now < now + seconds (secondsToNextWindow now) ∧
      now + seconds (secondsToNextWindow now) ≤ windowEnd now + seconds 1 := by
  have nonneg : 0 ≤ now % seconds 60 := Int.emod_nonneg _ (by decide)
  have lt : now % seconds 60 < seconds 60 := Int.emod_lt_of_pos _ (by decide)
  have delay : secondsToNextWindow now = max ((61000000 - now % seconds 60) / 1000000) 1 := by
    have left : minuteWindow now + seconds 61 - now = 61000000 - now % seconds 60 := by
      simp only [minuteWindow, seconds]
      ring
    rw [secondsToNextWindow, left]
    rfl
  obtain ⟨one, most, after, soon⟩ := wholeSeconds_bounds nonneg lt
  rw [← delay] at one most after soon
  refine ⟨one, most, ?_, ?_⟩
  all_goals
    simp only [windowEnd, minuteWindow, seconds] at *
    linarith

/-- A time of the window lies before its end. -/
lemma lt_windowEnd_of_window {now later : Time} (h : minuteWindow now = minuteWindow later) :
    later < windowEnd now := by
  have lt : later % seconds 60 < seconds 60 := Int.emod_lt_of_pos _ (by decide)
  rw [windowEnd, h, minuteWindow]
  linarith

/-! ### The refusals of a run -/

/-- The system, and the last time at which a worker has asked for analyses. -/
structure Clocked where
  world : World
  now : Time

/-- The time at which an action asks for analyses. -/
def askedAt? : Action → Option Time
  | .claimAnalyses _ _ _ query _ => some query.now
  | _ => none

/-- One action, with the clock. -/
def Clocked.step (cfg : Settings) (text : Text) (s : Clocked) (a : Action) : Clocked :=
  ⟨World.step cfg text s.world a, (askedAt? a).getD s.now⟩

/-- The jobs that an action takes to the rate limiter. -/
def batch (cfg : Settings) (w : World) : Action → List InteractionJob
  | .claimAnalyses workerId limit recovery query _ =>
    claimedJobs workerId [.llmAnalysis] limit query (recovered cfg workerId recovery w.db)
  | _ => []

/-- The readings of an action do not go back: the query comes after the earlier ones, the rate limiter is
asked after the query, and the deferral is later than that. -/
def NonDecreasing (cfg : Settings) (s : Clocked) (a : Action) : Prop :=
  match a with
  | .claimAnalyses _ _ _ query clock =>
    s.now ≤ query.now ∧ ∀ job ∈ batch cfg s.world a, query.now ≤ clock job.id 0 ∧
      clock job.id 0 ≤ clock job.id 1
  | _ => True

/-- A refusal: the job, and the time at which the rate limiter was asked. -/
structure Refusal where
  jobId : UUID
  askedAt : Time
  deriving DecidableEq

/-- The refusals of an action: none, if its transaction raises. -/
def refusals (cfg : Settings) (s : Clocked) (a : Action) : List Refusal :=
  match a with
  | .claimAnalyses workerId limit recovery query clock =>
    match LLMWorkerService.claimAdmittedJobs cfg workerId limit recovery query clock s.world.db with
    | .ok _ db' => ((batch cfg s.world a).filter fun job => db'.queue.jobs.rows.any fun row =>
        row.id = job.id ∧ row.status = .deferred).map fun job => ⟨job.id, clock job.id 0⟩
    | .error _ _ => []
  | _ => []

section Claim

variable {workerId : String} {limit : ℕ} {recovery : RecoveryClock} {query : ClaimQuery}
  {clock : UUID → Clock} {snapshots : List ClaimedLLMJob} {db db' : Db} {row : InteractionJob}

/-- The system after a claim: its transaction commits, or leaves the database alone. -/
lemma step_of_returned {s : Clocked}
    (h : LLMWorkerService.claimAdmittedJobs cfg workerId limit recovery query clock s.world.db =
      .ok snapshots db') :
    (s.step cfg text (.claimAnalyses workerId limit recovery query clock)).world.db = db' := by
  rw [Clocked.step, World.step, World.claim, commit, h]

lemma step_of_raised {s : Clocked} {e : PyError}
    (h : LLMWorkerService.claimAdmittedJobs cfg workerId limit recovery query clock s.world.db =
      .error e db') :
    (s.step cfg text (.claimAnalyses workerId limit recovery query clock)).world.db =
      s.world.db := by
  rw [Clocked.step, World.step, World.claim, commit, h]

lemma mem_recovered_of_deferred (mem : row ∈ db.queue.jobs.rows) (deferred : row.status = .deferred) :
    row ∈ (recovered cfg workerId recovery db).queue.jobs.rows := by
  refine mem_recovered_of_fresh mem fun stale => ?_
  rw [InteractionJob.running_of_stale stale] at deferred
  cases deferred

/-- A deferred job is taken to the rate limiter when its time has come. -/
lemma runAfter_le_of_batch {job : InteractionJob} (mem : row ∈ db.queue.jobs.rows)
    (deferred : row.status = .deferred)
    (hj : job ∈ claimedJobs workerId [.llmAnalysis] limit query (recovered cfg workerId recovery db))
    (id : job.id = row.id) : row.runAfter ≤ query.now := by
  obtain ⟨row', ready, rfl, _⟩ := of_mem_claimedJobs hj
  obtain ⟨mem', _, _, due, _⟩ := Queue.of_mem_readyJobs ready
  rwa [← Table.eq_of_key mem' (mem_recovered_of_deferred mem deferred) id]

/-- A deferred job that is not taken to the rate limiter is left alone. -/
lemma mem_of_not_batch
    (h : LLMWorkerService.claimAdmittedJobs cfg workerId limit recovery query clock db =
      .ok snapshots db') (mem : row ∈ db.queue.jobs.rows) (deferred : row.status = .deferred)
    (other : ∀ job ∈ claimedJobs workerId [.llmAnalysis] limit query
      (recovered cfg workerId recovery db), job.id ≠ row.id) : row ∈ db'.queue.jobs.rows := by
  rw [claimAdmittedJobs_run] at h
  refine mem_of_admitJobs nodup_claimedJobs running_of_claimedJobs h ?_ other
  rw [claimed, Db.mapQueue_queue, Queue.claimReadyJobs_rows]
  refine List.mem_map.2 ⟨row, mem_recovered_of_deferred mem deferred, if_neg fun ready => ?_⟩
  obtain ⟨row', ready, id⟩ := List.mem_map.1 ready
  exact other _ (List.mem_map_of_mem ready) id

/-- The row of a job that was refused waits until the window is over. -/
lemma refusedRow_of_refused {job : InteractionJob}
    (h : LLMWorkerService.claimAdmittedJobs cfg workerId limit recovery query clock db =
      .ok snapshots db')
    (hj : job ∈ claimedJobs workerId [.llmAnalysis] limit query (recovered cfg workerId recovery db))
    (refused : TurnedAway db' job) : ∃ reason, refusedRow clock job reason ∈ db'.queue.jobs.rows := by
  rw [claimAdmittedJobs_run] at h
  obtain ⟨t, _, verdict⟩ := judged_of_admitJobs nodup_claimedJobs running_of_claimedJobs h job hj
  have not := (verdict.refused_iff (running_of_claimedJobs job hj).1).1 refused
  cases verdict with
  | granted granted => exact absurd granted not
  | refused _ mem => exact ⟨_, mem⟩

end Claim

/-- The window of a refusal is over, or the job waits until it is. -/
inductive Behind (s : Clocked) (r : Refusal) : Prop where
  | passed :
    windowEnd r.askedAt < s.now →
    Behind s r
  | waiting {row} :
    row ∈ s.world.db.queue.jobs.rows →
    row.id = r.jobId →
    row.jobType = .llmAnalysis →
    row.status = .deferred →
    windowEnd r.askedAt < row.runAfter →
    Behind s r

variable {s : Clocked} {r r' : Refusal}

lemma of_mem_refusals (h : r ∈ refusals cfg s a) :
    ∃ workerId limit recovery query clock snapshots db' job,
      a = .claimAnalyses workerId limit recovery query clock ∧
      LLMWorkerService.claimAdmittedJobs cfg workerId limit recovery query clock s.world.db =
        .ok snapshots db' ∧
      job ∈ batch cfg s.world a ∧ TurnedAway db' job ∧ r = ⟨job.id, clock job.id 0⟩ := by
  unfold refusals at h
  split at h
  case h_2 => cases h
  case h_1 workerId limit recovery query clock =>
  split at h
  case h_2 => cases h
  case h_1 snapshots db' returned =>
  obtain ⟨job, mem, rfl⟩ := List.mem_map.1 h
  obtain ⟨mem, refused⟩ := List.mem_filter.1 mem
  refine ⟨workerId, limit, recovery, query, clock, snapshots, db', job, rfl, returned, mem, ?_, rfl⟩
  simpa [TurnedAway] using refused

/-- A refusal is behind the system when it is made. -/
lemma behind_of_mem_refusals (forward : NonDecreasing cfg s a) (h : r ∈ refusals cfg s a) :
    Behind (s.step cfg text a) r := by
  obtain ⟨workerId, limit, recovery, query, clock, snapshots, db', job, rfl, returned, mem, refused,
    rfl⟩ := of_mem_refusals h
  obtain ⟨reason, row⟩ := refusedRow_of_refused returned mem refused
  have type : job.jobType = .llmAnalysis := jobType_of_claimedJobs mem
  have later := (forward.2 job mem).2
  have bounds := secondsToNextWindow_bounds (clock job.id 0)
  have there : refusedRow clock job reason ∈ (s.step cfg text
      (.claimAnalyses workerId limit recovery query clock)).world.db.queue.jobs.rows := by
    rwa [step_of_returned returned]
  exact .waiting there rfl type rfl (lt_of_lt_of_le bounds.2.2.1 (add_le_add_left later _))

/-- A refusal stays behind the system. -/
lemma behind_step (fence : Fenced s.world) (calm : NoTimeout cfg s.world a)
    (forward : NonDecreasing cfg s a) (h : Behind s r) : Behind (s.step cfg text a) r := by
  cases h with
  | passed gone =>
    refine .passed (gone.trans_le ?_)
    cases a with
    | claimAnalyses => exact forward.1
    | _ => exact le_rfl
  | @waiting row mem id type deferred waits =>
    -- an action that takes no analyses leaves the row alone
    by_cases other : row.jobType ∉ claims a
    · have same : view (World.step cfg text s.world a).db.queue row.id =
          view s.world.db.queue row.id := fence.view_of_deferred calm mem deferred other
      have found : (view s.world.db.queue row.id).row = some row := Queue.get?_of_mem mem
      rw [← same] at found
      exact .waiting (Queue.get?_eq_some.1 found).1 id type deferred waits
    obtain ⟨workerId, limit, recovery, query, clock, rfl⟩ : ∃ workerId limit recovery query clock,
        a = .claimAnalyses workerId limit recovery query clock := by
      cases a <;> simp_all [claims]
    by_cases taken : ∃ job ∈ batch cfg s.world (.claimAnalyses workerId limit recovery query clock),
        job.id = row.id
    · obtain ⟨job, hj, same⟩ := taken
      exact .passed (waits.trans_le (runAfter_le_of_batch mem deferred hj same))
    · suffices there : row ∈ (s.step cfg text
          (.claimAnalyses workerId limit recovery query clock)).world.db.queue.jobs.rows from
        .waiting there id type deferred waits
      cases e : LLMWorkerService.claimAdmittedJobs cfg workerId limit recovery query clock
          s.world.db with
      | error =>
        rw [step_of_raised e]
        exact mem
      | ok snapshots db' =>
        rw [step_of_returned e]
        exact mem_of_not_batch e mem deferred fun job hj same => taken ⟨job, hj, same⟩

/-- What is behind the system was refused in an earlier window than what it refuses now. -/
lemma windowEnd_le_of_behind (forward : NonDecreasing cfg s a) (h : Behind s r)
    (again : r' ∈ refusals cfg s a) (same : r.jobId = r'.jobId) :
    windowEnd r.askedAt ≤ r'.askedAt := by
  obtain ⟨workerId, limit, recovery, query, clock, snapshots, db', job, rfl, returned, mem, refused,
    rfl⟩ := of_mem_refusals again
  have asked := (forward.2 job mem).1
  cases h with
  | passed gone => exact (gone.le.trans forward.1).trans asked
  | waiting there id type deferred waits =>
    have due := runAfter_le_of_batch there deferred mem (same.symm.trans id.symm)
    exact (waits.le.trans due).trans asked

/-- Two refusals of one job fall in different windows. -/
def Apart (r r' : Refusal) : Prop :=
  r.jobId = r'.jobId → minuteWindow r.askedAt ≠ minuteWindow r'.askedAt

/-- A batch has each job once. -/
lemma pairwise_refusals : (refusals cfg s a).Pairwise Apart := by
  unfold refusals
  split
  case h_2 => exact .nil
  case h_1 workerId limit recovery query clock =>
  split
  case h_2 => exact .nil
  case h_1 snapshots db' returned =>
  have distinct : (batch cfg s.world
      (.claimAnalyses workerId limit recovery query clock)).Pairwise fun j k => j.id ≠ k.id :=
    List.pairwise_map.1 nodup_claimedJobs
  exact List.pairwise_map.2 ((distinct.sublist List.filter_sublist).imp fun ne same => absurd same ne)

/-- A refusal defers its job by one to sixty-one seconds, into the first second after the minute window.
In every run with a clock that does not go back and without timeouts of locks, two refusals of one
analysis fall in different windows. -/
theorem refused_once_a_window {s₀ s : Clocked} {as : List Action}
    (run : Run (Clocked.step cfg text)
      (fun s a => NoTimeout cfg s.world a ∧ NonDecreasing cfg s a) s₀ as s)
    (init : Initial s₀.world) :
    (∀ t t' customer tokens allowOverflow now budget result,
      UsageTable.reserve cfg t customer tokens allowOverflow now budget = .ok (t', result) →
      ¬ result.allowed → 1 ≤ result.deferSeconds ∧ result.deferSeconds ≤ 61 ∧
        windowEnd now < now + seconds result.deferSeconds ∧
        now + seconds result.deferSeconds ≤ windowEnd now + seconds 1) ∧
    (emitted (Clocked.step cfg text) (refusals cfg) s₀ as).Pairwise Apart := by
  refine ⟨fun t t' customer tokens allowOverflow now budget result h refused => ?_, ?_⟩
  · rw [deferSeconds_of_refused h refused]
    exact secondsToNextWindow_bounds now
  have fenced := run.strengthen (I := fun s => Fenced s.world) (.of_idle init.2)
    fun s a fence h => fence.step h.1.unrecovered
  refine fenced.pairwise_emitted Behind (fun _ _ _ => pairwise_refusals)
    (fun s a r h mem => behind_of_mem_refusals h.2.2 mem)
    (fun s a r behind h => behind_step h.1 h.2.1 h.2.2 behind) ?_
  intro s a r r' behind h mem same window
  have later := windowEnd_le_of_behind h.2.2 behind mem same
  exact absurd (lt_windowEnd_of_window window) (not_lt.2 later)

/-- The analyses of `twoLarge`, asked for in two minutes. -/
def askedTwice : List Action := twoLarge ++ [
  .claimAnalyses "worker" 10 (.at 0) (.at 0) fun _ _ => 0,
  .claimAnalyses "worker" 10 (.at (seconds 61)) (.at (seconds 61)) fun _ _ => seconds 61]

theorem refused_once_a_window_plain : (emitted (Clocked.step settings .plain) (refusals settings)
    ⟨.ofInteraction .plain, 0⟩ askedTwice).Pairwise Apart := by
  have run : Run (Clocked.step settings .plain)
      (fun s a => NoTimeout settings s.world a ∧ NonDecreasing settings s a)
      ⟨.ofInteraction .plain, 0⟩ askedTwice
      (askedTwice.foldl (Clocked.step settings .plain) ⟨.ofInteraction .plain, 0⟩) := by
    refine .cons ⟨by decide, trivial⟩ (.cons ⟨by decide, trivial⟩ (.cons ?_ (.cons ?_ .nil)))
    · exact ⟨by decide, le_rfl, fun _ _ => ⟨le_rfl, le_rfl⟩⟩
    · exact ⟨by decide +kernel, by decide, fun _ _ => ⟨le_rfl, le_rfl⟩⟩
  exact (refused_once_a_window run ⟨rfl, rfl⟩).2

/-- Both jobs are refused in each of the two minutes. -/
example : emitted (Clocked.step settings .plain) (refusals settings) ⟨.ofInteraction .plain, 0⟩
    askedTwice = [⟨1, 0⟩, ⟨2, 0⟩, ⟨1, seconds 61⟩, ⟨2, seconds 61⟩] := by decide +kernel

end PostCall.Properties
