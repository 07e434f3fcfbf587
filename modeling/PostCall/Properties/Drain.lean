import Mathlib.Algebra.Order.BigOperators.Group.List
import PostCall.Model.Tasks
import PostCall.Properties.Terminal

/-!
# Draining the queues

Rounds of the recording and of the result worker, at any times and in any order, each run to its end.
Each claim uses up an attempt, and a job that has none left is finished by the next execution whatever
the provider answers; so a bounded number of rounds of a worker, each at a time when the jobs that wait
for it are due, finishes every job that waits for it.
-/

namespace PostCall.Properties
open PostCall.Library PostCall.Python PostCall.Model PostCall.Machine

variable {cfg : Settings} {text : Text} {db db' db₀ : Db} {job job' row : InteractionJob}

/-! ### One execution -/

/-- The transaction changes the row of this job, and no other. -/
def Rewrites (db db' : Db) (id : UUID) (f : InteractionJob → InteractionJob) : Prop :=
  db'.queue.jobs.rows = db.queue.jobs.rows.map fun row => if row.id = id then f row else row

/-- How an execution leaves a running job: finished, or deferred with attempts left. -/
structure Concluded (job job' : InteractionJob) : Prop where
  identity : job'.toJobIdentity = job.toJobIdentity
  attempts : job'.attempts = job.attempts
  outcome : terminal job'.status ∨ (job'.status = .deferred ∧ job.attempts < job.maxAttempts)

/-- The transaction concludes the execution of a running job. -/
def Settles (x : Tx Unit) (id : UUID) : Prop :=
  ∀ db job, db.queue.get? id = some job → job.status = .running →
    ∃ db' f, x db = .ok () db' ∧ Rewrites db db' id f ∧ Concluded job (f job)

lemma settles_handleFailure {clock : Clock} {failure : Failure} {id : UUID} :
    Settles (Tx.handleFailure cfg clock id failure) id := by
  intro db job found _
  obtain ⟨_, rfl⟩ := Queue.get?_eq_some.1 found
  have ran : Tx.handleFailure cfg clock job.id failure db =
      .ok () (db.handle cfg clock job failure) := by
    unfold Tx.handleFailure
    rw [Program.bind_of_ok Program.get_run, found]
    rfl
  cases next : failure.nextRunAt cfg (clock 0) job with
  | some runAfter =>
    obtain ⟨_, lt, _⟩ := Failure.of_nextRunAt next
    refine ⟨_, (·.defer runAfter failure.errorCode failure.errorMessage), ran, ?_, rfl,
      rfl, .inr ⟨rfl, lt⟩⟩
    rw [Rewrites, Db.handle_queue, next]
    rfl
  | none =>
    refine ⟨_, (·.deadLetter failure.errorCode failure.errorMessage (clock 2)), ran, ?_, rfl,
      rfl, .inl (.inr rfl)⟩
    rw [Rewrites, Db.handle_queue, next]
    rfl

lemma settles_recording {clock : Clock} {snapshot : ClaimedRecordingJob}
    {answer : ExotelAnswer} :
    Settles (Tx.conclude cfg clock snapshot.id
      (RecordingWorkerService.process cfg text clock snapshot answer)) snapshot.id := by
  unfold RecordingWorkerService.process
  cases RecordingWorkerService.poll text snapshot answer with
  | error e => exact settles_handleFailure
  | ok result =>
    intro db job found running
    let stored : Dict := [("s3_key", .str result.s3Key),
      ("recording_url_present", .bool result.recordingUrl.truthy)]
    obtain ⟨_, same⟩ := Queue.get?_eq_some.1 found
    have ran : RecordingWorkerService.complete clock snapshot result db = .ok ()
        (((db.updateRecordingKey snapshot.interactionId result.s3Key).mapQueue
          (·.markSucceeded job.id stored 0 (clock 0))).emit
            (job.markSucceeded stored 0 (clock 0)) "recording_worker" "succeeded"
            "recording_uploaded") := by
      unfold RecordingWorkerService.complete
      rw [Program.bind_of_ok Program.get_run, found]
      simp only [running, if_true]
      rfl
    refine ⟨_, (·.markSucceeded stored 0 (clock 0)), ran, ?_, rfl, rfl, .inl (.inl rfl)⟩
    rw [same]
    rfl

lemma settles_result {clock : Clock} {snapshot : ClaimedResultJob} {raised : Option PyError} :
    Settles (Tx.conclude cfg clock snapshot.id
      (ResultWorkerService.report clock snapshot raised)) snapshot.id := by
  unfold ResultWorkerService.report
  cases raised with
  | some e => exact settles_handleFailure
  | none =>
    intro db job found running
    obtain ⟨_, same⟩ := Queue.get?_eq_some.1 found
    have ran : ResultWorkerService.complete clock snapshot db = .ok ()
        ((db.mapQueue (·.markSucceeded job.id [] 0 (clock 0))).emit
          (job.markSucceeded [] 0 (clock 0)) "result_worker" "succeeded"
          "result_job_completed") := by
      unfold ResultWorkerService.complete
      rw [Program.bind_of_ok Program.get_run, found]
      simp only [running, if_true]
      rfl
    refine ⟨_, (·.markSucceeded [] 0 (clock 0)), ran, ?_, rfl, rfl, .inl (.inl rfl)⟩
    rw [same]
    rfl

/-! ### One round -/

section Round

variable {α : Type} {process : α → TaskRun → TaskRun} {after : TaskRun}

/-- A task goes on where a transaction left the database. -/
lemma finish_andThen {x : Tx α} {next : α → TaskRun} {a : α} (h : x db = .ok a db') :
    (TaskRun.andThen x next).finish db = (next a).finish db' := by
  simp only [TaskRun.andThen, Process.finish, perform, h]

/-- A pass of the loop concludes the execution of its job, and the loop goes on. -/
def Passes (process : α → TaskRun → TaskRun) (snapshot : InteractionJob → α) : Prop :=
  ∀ db job, db.queue.get? job.id = some job → job.status = .running →
    ∃ db' f, Rewrites db db' job.id f ∧ Concluded job (f job) ∧
      ∀ after, (process (snapshot job) after).finish db = after.finish db'

lemma passes_recording {env : RecordingWorkerService.Env} :
    Passes (RecordingWorkerService.processTask cfg text env) RecordingWorkerService.snapshot := by
  intro db job found running
  obtain ⟨db', f, ran, rewrites, concluded⟩ := @settles_recording cfg text (env.clock job.id)
    (RecordingWorkerService.snapshot job) (env.answer job.id) db job found running
  exact ⟨db', f, rewrites, concluded, fun after => finish_andThen ran⟩

lemma passes_result {env : ResultWorkerService.Env} :
    Passes (ResultWorkerService.processTask cfg env) ResultWorkerService.snapshot := by
  intro db job found running
  -- the side effect of the `try` block leaves the queue alone
  let effect := ResultWorkerService.process (ResultWorkerService.snapshot job) (env.fault job.id)
  let tried := perform effect db
  have queue : tried.2.queue = db.queue := by
    simp only [tried, perform]
    cases e : effect db with
    | ok u db₁ => exact (aside_process.of_ok e).queue
    | error raised db₁ => rfl
  obtain ⟨db', f, ran, rewrites, concluded⟩ := @settles_result cfg (env.clock job.id)
    (ResultWorkerService.snapshot job) (ResultWorkerService.raised tried.1) tried.2 job
    (queue ▸ found) running
  refine ⟨db', f, ?_, concluded, fun after => ?_⟩
  · rw [Rewrites, ← queue]
    exact rewrites
  · exact finish_andThen ran

/-- The row of a job in the course of a round: as it was, claimed, or worked on. -/
structure Partway (selected todo : List UUID) (claimed f : InteractionJob → InteractionJob)
    (row : InteractionJob) : Prop where
  identity : (f row).toJobIdentity = row.toJobIdentity
  other : row.id ∉ selected → f row = row
  begun : row.id ∈ todo → f row = claimed row
  worked : row.id ∈ selected → row.id ∉ todo → Concluded (claimed row) (f row)

/-- The rows after the next of the claimed jobs was worked on. -/
lemma Partway.next {claimed f g : InteractionJob → InteractionJob} {selected todo : List UUID}
    {next : InteractionJob} (was : Partway selected (next.id :: todo) claimed f row)
    (unique : row.id = next.id → row = next) (fresh : next.id ∉ todo) (within : next.id ∈ selected)
    (same : (claimed next).toJobIdentity = next.toJobIdentity)
    (concluded : Concluded (claimed next) (g (claimed next))) :
    Partway selected todo claimed (fun row => if row.id = next.id then g (f row) else f row) row := by
  by_cases e : row.id = next.id
  · obtain rfl := unique e
    have now : f row = claimed row := was.begun List.mem_cons_self
    refine ⟨?_, fun out => absurd within out, fun later => absurd later fresh, fun _ _ => ?_⟩
    · rw [if_pos rfl, now]
      exact concluded.identity.trans same
    · rw [if_pos rfl, now]
      exact concluded
  · refine ⟨?_, fun out => ?_, fun later => ?_, fun sel out => ?_⟩
    · rw [if_neg e]
      exact was.identity
    · rw [if_neg e]
      exact was.other out
    · rw [if_neg e]
      exact was.begun (List.mem_cons_of_mem _ later)
    · rw [if_neg e]
      exact was.worked sel fun later => (List.mem_cons.1 later).elim e out

/-- The loop works on the claimed jobs one after another, and on nothing else. -/
lemma partway_forEach {snapshot : InteractionJob → α} (passes : Passes process snapshot)
    {claimed : InteractionJob → InteractionJob} (running : ∀ row, (claimed row).status = .running)
    (same : ∀ row, (claimed row).toJobIdentity = row.toJobIdentity) {selected : List UUID}
    {jobs : List InteractionJob} (mem : ∀ job ∈ jobs, job ∈ db₀.queue.jobs.rows)
    (nodup : (jobs.map (·.id)).Nodup) (within : ∀ job ∈ jobs, job.id ∈ selected)
    {f : InteractionJob → InteractionJob}
    (rows : db.queue.jobs.rows = db₀.queue.jobs.rows.map f)
    (partway : ∀ row ∈ db₀.queue.jobs.rows,
      Partway selected (jobs.map (·.id)) claimed f row) :
    ∃ db' f', (TaskRun.forEach process (jobs.map (snapshot ∘ claimed)) after).finish db =
        after.finish db' ∧
      db'.queue.jobs.rows = db₀.queue.jobs.rows.map f' ∧
      ∀ row ∈ db₀.queue.jobs.rows, Partway selected [] claimed f' row := by
  induction jobs generalizing db f with
  | nil => exact ⟨db, f, rfl, rows, partway⟩
  | cons job jobs ih =>
    obtain ⟨fresh, nodup⟩ := List.nodup_cons.1 nodup
    have here := mem job List.mem_cons_self
    have now : f job = claimed job := (partway job here).begun List.mem_cons_self
    have id : (claimed job).id = job.id := congrArg JobIdentity.id (same job)
    have found : db.queue.get? (claimed job).id = some (claimed job) := by
      refine Queue.get?_of_mem ?_
      rw [rows, ← now]
      exact List.mem_map_of_mem here
    obtain ⟨db₁, g, rewrites, concluded, goes⟩ := passes db (claimed job) found (running job)
    let f₁ := fun row => if row.id = job.id then g (f row) else f row
    have rows₁ : db₁.queue.jobs.rows = db₀.queue.jobs.rows.map f₁ := by
      rw [rewrites, rows, List.map_map]
      refine List.map_congr_left fun row mem' => ?_
      have idf : (f row).id = row.id := congrArg JobIdentity.id (partway row mem').identity
      simp only [Function.comp, idf, id, f₁]
    have partway₁ : ∀ row ∈ db₀.queue.jobs.rows,
        Partway selected (jobs.map (·.id)) claimed f₁ row := fun row mem' =>
      (partway row mem').next (Table.eq_of_key mem' here) fresh (within job List.mem_cons_self)
        (same job) concluded
    have mem₁ : ∀ row ∈ jobs, row ∈ db₀.queue.jobs.rows := fun row mem' =>
      mem row (List.mem_cons_of_mem _ mem')
    have within₁ : ∀ row ∈ jobs, row.id ∈ selected := fun row mem' =>
      within row (List.mem_cons_of_mem _ mem')
    obtain ⟨db', f', done, rows', partway'⟩ := ih mem₁ nodup within₁ rows₁ partway₁
    exact ⟨db', f', (goes _).trans done, rows', partway'⟩

/-- A round of a worker of these types: the rows that its claim selects are worked on, the others
are left alone. -/
def WorksOn (types : List JobType) (limit : ℕ) (query : ClaimQuery) (db db' : Db) : Prop :=
  ∃ workerId f, db'.queue.jobs.rows = db.queue.jobs.rows.map f ∧ ∀ row ∈ db.queue.jobs.rows,
    Partway ((db.queue.readyJobs types limit query).map (·.id)) []
      (·.claim workerId query.now) f row

/-- A round of a worker that passes every job works on those that it claims. -/
lemma worksOn_runOnce {snapshot : InteractionJob → α} {claim : Tx (List α)} {workerId : String}
    {types : List JobType} {limit : ℕ} {query : ClaimQuery}
    (claims : claim = do return (← Tx.claimReadyJobs workerId types limit query).map snapshot)
    (passes : Passes process snapshot) :
    WorksOn types limit query db ((TaskRun.runOnce claim process .done).finish db) := by
  let selected := db.queue.readyJobs types limit query
  let claimed := fun row : InteractionJob => row.claim workerId query.now
  let db₁ : Db := { db with queue := (db.queue.claimReadyJobs workerId types limit query).1 }
  have ran : claim db = .ok ((selected.map claimed).map snapshot) db₁ := by
    rw [claims]
    rfl
  have partway : ∀ row ∈ db.queue.jobs.rows, Partway (selected.map (·.id)) (selected.map (·.id))
      claimed (fun row => if row.id ∈ selected.map (·.id) then claimed row else row) row := by
    intro row _
    refine ⟨?_, fun out => if_neg out, fun todo => if_pos todo, fun sel out => absurd sel out⟩
    split
    · rfl
    · rfl
  have within : ∀ job ∈ selected, job.id ∈ selected.map (·.id) := fun job mem =>
    List.mem_map_of_mem mem
  have mem : ∀ job ∈ selected, job ∈ db.queue.jobs.rows := fun job mem =>
    (Queue.of_mem_readyJobs mem).1
  have nodup : (selected.map (·.id)).Nodup := Queue.nodup_readyJobs
  have rows₁ : db₁.queue.jobs.rows = db.queue.jobs.rows.map fun row =>
      if row.id ∈ selected.map (·.id) then claimed row else row := Queue.claimReadyJobs_rows
  have running : ∀ row, (claimed row).status = .running := fun _ => rfl
  have same : ∀ row, (claimed row).toJobIdentity = row.toJobIdentity := fun _ => rfl
  obtain ⟨db', f, done, rows, worked⟩ :=
    partway_forEach passes running same mem nodup within rows₁ partway
  refine ⟨workerId, f, ?_, worked⟩
  have finished : (TaskRun.runOnce claim process .done).finish db = db' := by
    rw [TaskRun.runOnce, finish_andThen ran, List.map_map]
    exact done
  rw [finished]
  exact rows

end Round

/-! ### Rounds until nothing waits -/

/-- A round of a worker, with what the environment decides about it. -/
inductive Round where
  | recording (limit : ℕ) (env : RecordingWorkerService.Env)
  | result (limit : ℕ) (env : ResultWorkerService.Env)

namespace Round

/-- The types of job that the worker claims. -/
def types : Round → List JobType
  | recording .. => [.recordingFetch]
  | result .. => [.signalJobs, .leadStageUpdate]

def limit : Round → ℕ
  | recording limit _ => limit
  | result limit _ => limit

def query : Round → ClaimQuery
  | recording _ env => env.query
  | result _ env => env.query

/-- The task of the round, run to its end. -/
def run (cfg : Settings) (text : Text) (db : Db) : Round → Db
  | recording limit env => (RecordingWorkerService.runOnce cfg text limit env .done).finish db
  | result limit env => (ResultWorkerService.runOnce cfg limit env .done).finish db

lemma worksOn (r : Round) : WorksOn r.types r.limit r.query db (r.run cfg text db) := by
  cases r with
  | recording limit env => exact worksOn_runOnce rfl passes_recording
  | result limit env => exact worksOn_runOnce rfl passes_result

end Round

/-- A job of these types that a claim may take once it is due. -/
def IsWaiting (types : List JobType) (job : InteractionJob) : Prop :=
  job.jobType ∈ types ∧ (job.status = .pending ∨ job.status = .deferred)

instance {types : List JobType} : DecidablePred (IsWaiting types) := fun _ =>
  inferInstanceAs (Decidable (_ ∧ _))

/-- The claims that a waiting job can still go through. -/
def claimsLeft (types : List JobType) (job : InteractionJob) : ℕ :=
  if IsWaiting types job then max (job.maxAttempts - job.attempts) 1 else 0

/-- The claims that all waiting jobs can still go through. -/
def backlog (types : List JobType) (db : Db) : ℕ :=
  (db.queue.jobs.rows.map (claimsLeft types)).sum

/-- When a round begins, every job that waits for its worker is due and not locked. -/
def AllDue (db : Db) (r : Round) : Prop :=
  0 < r.limit ∧ ∀ job ∈ db.queue.jobs.rows, IsWaiting r.types job →
    job.runAfter ≤ r.query.now ∧ r.query.locked job.id = false

instance {db : Db} {r : Round} : Decidable (AllDue db r) := inferInstanceAs (Decidable (_ ∧ _))

/-! ### What a round does to the backlog -/

/-- A job in the course of the rounds: not yet claimed, finished, or deferred with attempts left. -/
structure Advanced (job job' : InteractionJob) : Prop where
  identity : job'.toJobIdentity = job.toJobIdentity
  outcome : job' = job ∨ (job'.attempts ≤ max job.maxAttempts (job.attempts + 1) ∧
    (terminal job'.status ∨ (job'.status = .deferred ∧ job'.attempts < job.maxAttempts)))

section Row

variable {types types' : List JobType} {limit : ℕ} {query : ClaimQuery}
variable {f : InteractionJob → InteractionJob} {workerId : String}

lemma claimsLeft_of_terminal (h : terminal job.status) : claimsLeft types job = 0 := by
  refine if_neg fun ⟨_, waits⟩ => ?_
  rcases h with h | h <;> simp [h] at waits

/-- A waiting one has those that its attempts allow, and one at least. -/
lemma claimsLeft_of_isWaiting (h : IsWaiting types job) :
    claimsLeft types job = max (job.maxAttempts - job.attempts) 1 := if_pos h

/-- No claims are left of exactly the jobs that do not wait. -/
lemma claimsLeft_eq_zero : claimsLeft types job = 0 ↔ ¬ IsWaiting types job := by
  unfold claimsLeft
  split <;> simp_all

/-- A claim and the execution after it use up an attempt. -/
lemma claimsLeft_lt (waits : IsWaiting types row)
    (concluded : Concluded (row.claim workerId query.now) job) :
    claimsLeft types job < claimsLeft types row := by
  rw [claimsLeft_of_isWaiting waits]
  have same := concluded.identity
  rcases concluded.outcome with finished | ⟨_, left⟩
  · rw [claimsLeft_of_terminal finished]
    omega
  · have max : job.maxAttempts = row.maxAttempts := congrArg JobIdentity.maxAttempts same
    have attempts : job.attempts = row.attempts + 1 := concluded.attempts
    change row.attempts + 1 < row.maxAttempts at left
    unfold claimsLeft
    split <;> omega

/-- It is no new claim for the other workers. -/
lemma claimsLeft_le (waits : IsWaiting types row)
    (concluded : Concluded (row.claim workerId query.now) job) :
    claimsLeft types' job ≤ claimsLeft types' row := by
  by_cases own : row.jobType ∈ types'
  · exact (claimsLeft_lt ⟨own, waits.2⟩ concluded).le
  · have type : job.jobType = row.jobType := congrArg JobIdentity.jobType concluded.identity
    have not : ¬ IsWaiting types' job := fun ⟨own', _⟩ => own (type ▸ own')
    rw [claimsLeft_eq_zero.2 not]
    exact Nat.zero_le _

/-- A row of a round is left alone, or it waited and was worked on. -/
lemma Partway.cases (mem : row ∈ db.queue.jobs.rows)
    (h : Partway ((db.queue.readyJobs types limit query).map (·.id)) [] (·.claim workerId query.now)
      f row) :
    (row ∉ db.queue.readyJobs types limit query ∧ f row = row) ∨
      (row ∈ db.queue.readyJobs types limit query ∧ IsWaiting types row ∧
        Concluded (row.claim workerId query.now) (f row)) := by
  by_cases selected : row.id ∈ (db.queue.readyJobs types limit query).map (·.id)
  · obtain ⟨row', ready, e⟩ := List.mem_map.1 selected
    have found := Queue.of_mem_readyJobs ready
    obtain rfl : row' = row := Table.eq_of_key found.1 mem e
    exact .inr ⟨ready, ⟨found.2.1, found.2.2.1⟩, h.worked selected List.not_mem_nil⟩
  · exact .inl ⟨fun ready => selected (List.mem_map_of_mem ready), h.other selected⟩

/-- A round moves each job on. -/
lemma Advanced.step (advanced : Advanced job row) (waits : IsWaiting types row)
    (concluded : Concluded (row.claim workerId query.now) job') : Advanced job job' := by
  have same : row.maxAttempts = job.maxAttempts :=
    congrArg JobIdentity.maxAttempts advanced.identity
  have attempts : job'.attempts = row.attempts + 1 := concluded.attempts
  have bound : job'.attempts ≤ max job.maxAttempts (job.attempts + 1) := by
    rcases advanced.outcome with rfl | ⟨_, finished | ⟨_, left⟩⟩
    · omega
    · exact absurd (claimsLeft_of_terminal finished) fun zero => claimsLeft_eq_zero.1 zero waits
    · omega
  refine ⟨concluded.identity.trans advanced.identity, .inr ⟨bound, ?_⟩⟩
  rcases concluded.outcome with finished | ⟨status, left⟩
  · exact .inl finished
  · refine .inr ⟨status, ?_⟩
    change row.attempts + 1 < row.maxAttempts at left
    omega

/-- A job that has got on and waits no more has finished. -/
lemma Advanced.terminal (advanced : Advanced job job') (waits : IsWaiting types job)
    (passed : ¬ IsWaiting types job') : terminal job'.status := by
  rcases advanced.outcome with rfl | ⟨_, finished | ⟨status, _⟩⟩
  · exact absurd waits passed
  · exact finished
  · have type : job'.jobType = job.jobType := congrArg JobIdentity.jobType advanced.identity
    exact absurd ⟨type ▸ waits.1, .inr status⟩ passed

end Row

section Rounds

variable {types types' : List JobType} {limit : ℕ} {query : ClaimQuery}

/-- There is no backlog exactly where nothing waits. -/
lemma backlog_eq_zero :
    backlog types db = 0 ↔ ∀ row ∈ db.queue.jobs.rows, ¬ IsWaiting types row := by
  simp only [backlog, List.sum_eq_zero_iff_forall_eq_nat, List.forall_mem_map, claimsLeft_eq_zero]

/-- No round adds to any backlog. -/
lemma WorksOn.backlog_le (h : WorksOn types limit query db db') :
    backlog types' db' ≤ backlog types' db := by
  obtain ⟨workerId, f, rows, partway⟩ := h
  rw [backlog, rows, List.map_map]
  refine List.sum_le_sum fun row mem => ?_
  rcases (partway row mem).cases mem with ⟨_, same⟩ | ⟨_, waits, concluded⟩
  · exact (congrArg (claimsLeft types') same).le
  · exact claimsLeft_le waits concluded

/-- A round whose jobs are due works some of its backlog off. -/
lemma WorksOn.backlog_lt (h : WorksOn types limit query db db') (room : 0 < limit)
    (due : ∀ job ∈ db.queue.jobs.rows, IsWaiting types job →
      job.runAfter ≤ query.now ∧ query.locked job.id = false)
    (left : backlog types db ≠ 0) : backlog types db' < backlog types db := by
  obtain ⟨workerId, f, rows, partway⟩ := h
  have waiting : ∃ row ∈ db.queue.jobs.rows, IsWaiting types row := by
    by_contra none
    exact left (backlog_eq_zero.2 fun row mem waits => none ⟨row, mem, waits⟩)
  obtain ⟨row, mem, waits⟩ := waiting
  have ready : row.ready types query.now query.locked := by
    have ⟨now, unlocked⟩ := due row mem waits
    simp [InteractionJob.ready, waits.1, waits.2, now, unlocked]
  -- so the claim selects at least one row
  have some : (db.queue.readyJobs types limit query) ≠ [] := by
    refine List.ne_nil_of_length_pos ?_
    rw [Queue.readyJobs, length_select]
    exact Nat.lt_min.2 ⟨room, List.length_pos_of_mem (List.mem_filter.2 ⟨mem, ready⟩)⟩
  obtain ⟨first, selected⟩ := List.exists_mem_of_ne_nil _ some
  have there := (Queue.of_mem_readyJobs selected).1
  rw [backlog, backlog, rows, List.map_map]
  refine List.sum_lt_sum _ _ (fun row mem => ?_) ⟨first, there, ?_⟩
  · rcases (partway row mem).cases mem with ⟨_, same⟩ | ⟨_, waits, concluded⟩
    · exact (congrArg (claimsLeft types) same).le
    · exact claimsLeft_le waits concluded
  · rcases (partway first there).cases there with ⟨out, _⟩ | ⟨_, waits, concluded⟩
    · exact absurd selected out
    · exact claimsLeft_lt waits concluded

/-- Each row has got on since the rounds began. -/
def AllAdvanced (db₀ db : Db) : Prop :=
  ∃ f, db.queue.jobs.rows = db₀.queue.jobs.rows.map f ∧
    ∀ row ∈ db₀.queue.jobs.rows, Advanced row (f row)

lemma WorksOn.allAdvanced (h : WorksOn types limit query db db') (since : AllAdvanced db₀ db) :
    AllAdvanced db₀ db' := by
  obtain ⟨workerId, g, rows', partway⟩ := h
  obtain ⟨f, rows, progress⟩ := since
  refine ⟨g ∘ f, by rw [rows', rows, List.map_map], fun row mem => ?_⟩
  have mem' : f row ∈ db.queue.jobs.rows := rows ▸ List.mem_map_of_mem mem
  rcases (partway _ mem').cases mem' with ⟨_, same⟩ | ⟨_, waits, concluded⟩
  · rw [Function.comp, same]
    exact progress row mem
  · exact (progress row mem).step waits concluded

end Rounds

/-- The rounds of this worker at whose start every job that waits for it is due. -/
def dueRounds (cfg : Settings) (text : Text) (types : List JobType) (db : Db) (rounds : List Round) :
    List Round :=
  emitted (fun db r => r.run cfg text db) (fun db r => if r.types = types ∧ AllDue db r then [r] else [])
    db rounds

/-- A round whose jobs are due works some of its backlog off, and no other round adds to it. -/
lemma backlog_round {types : List JobType} (r : Round) :
    backlog types (r.run cfg text db) ≤
      backlog types db - (if r.types = types ∧ AllDue db r then [r] else []).length := by
  have works := @Round.worksOn cfg text db r
  have kept : backlog types (r.run cfg text db) ≤ backlog types db := works.backlog_le
  split
  case isFalse => exact kept
  case isTrue counted =>
    obtain ⟨rfl, room, due⟩ := counted
    rw [List.length_singleton]
    by_cases none : backlog r.types db = 0
    · omega
    · have less := works.backlog_lt room due none
      omega

/-- As many rounds of a worker as its backlog has claims left, each at a time when the jobs that wait
for it are due, finish every job that waited for it: each has succeeded or is a dead letter, and was
claimed no more often than its limit says (or once). The rounds of the other worker and rounds at other
times may come in between. -/
theorem drained {types : List JobType} {rounds : List Round}
    (enough : backlog types db ≤ (dueRounds cfg text types db rounds).length) :
    ∀ job ∈ db.queue.jobs.rows, IsWaiting types job →
      ∃ job' ∈ (rounds.foldl (fun db r => r.run cfg text db) db).queue.jobs.rows,
        job'.toJobIdentity = job.toJobIdentity ∧ terminal job'.status ∧
        job'.attempts ≤ max job.maxAttempts (job.attempts + 1) := by
  have run : Run (fun db r => r.run cfg text db) anyStep db rounds
      (rounds.foldl (fun db r => r.run cfg text db) db) := .of_foldl rounds
  generalize rounds.foldl (fun db r => r.run cfg text db) db = db' at run ⊢
  have left : backlog types db' ≤ backlog types db - (dueRounds cfg text types db rounds).length :=
    run.exhausts fun db r _ => backlog_round r
  have passed := backlog_eq_zero.1 (Nat.le_zero.1 (left.trans (Nat.sub_eq_zero_of_le enough).le))
  obtain ⟨f, rows, progress⟩ : AllAdvanced db db' :=
    run.invariant ⟨id, (List.map_id _).symm, fun _ _ => ⟨rfl, .inl rfl⟩⟩
      fun db r since _ => r.worksOn.allAdvanced since
  intro job mem waits
  have mem' : f job ∈ db'.queue.jobs.rows := rows ▸ List.mem_map_of_mem mem
  have got := progress job mem
  refine ⟨f job, mem', got.identity, got.terminal waits (passed _ mem'), ?_⟩
  rcases got.outcome with same | ⟨bound, _⟩
  · exact absurd (same.symm ▸ waits) (passed _ mem')
  · exact bound

/-- A recording with two attempts, and a report to the signal service with one. -/
def twoWaiting : Db :=
  let rows := [{ NewJob.plain 1 .recordingFetch [("call_sid", .str "call"),
      ("exotel_account_id", .str "account")] with maxAttempts := some 2 },
    { NewJob.plain 2 .signalJobs with maxAttempts := some 1 }]
  { (World.ofInteraction .plain).db with
    queue := (Queue.empty.addAll? (rows.map (·.row settings))).getD .empty }

/-- A round of the recording worker that finds no recording yet. -/
def notYet (now : Time) : Round :=
  .recording 5 ⟨"worker", .at now, fun _ _ => now, fun _ => .response 404 (.ok .null) ""⟩

/-- A round of the result worker whose handler raises an exception. -/
def signalLost (now : Time) : Round :=
  .result 5 ⟨"worker", .at now, fun _ _ => now, fun _ => some ⟨"TimeoutError", ""⟩⟩

/-- The recording is polled, deferred, looked for in vain before it is due, and polled once more when it
is due. -/
def fourRounds : List Round :=
  [notYet 0, signalLost (seconds 1), notYet (seconds 2), notYet (seconds 3600)]

theorem drained_twice : backlog [.recordingFetch] twoWaiting = 2 ∧
    (dueRounds settings .plain [.recordingFetch] twoWaiting fourRounds).length = 2 ∧
    ∃ job' ∈ (fourRounds.foldl (fun db r => r.run settings .plain db) twoWaiting).queue.jobs.rows,
      job'.id = 1 ∧ terminal job'.status ∧ job'.attempts ≤ 2 := by
  have two : backlog [.recordingFetch] twoWaiting = 2 := by decide +kernel
  have enough : (dueRounds settings .plain [.recordingFetch] twoWaiting fourRounds).length = 2 := by
    decide +kernel
  have waits : ∃ job ∈ twoWaiting.queue.jobs.rows, IsWaiting [.recordingFetch] job ∧ job.id = 1 ∧
      job.attempts = 0 ∧ job.maxAttempts = 2 := by decide +kernel
  obtain ⟨job, mem, waits, one, none, limit⟩ := waits
  obtain ⟨job', mem', same, finished, attempts⟩ := drained (two.trans enough.symm).le job mem waits
  refine ⟨two, enough, job', mem', (congrArg JobIdentity.id same).trans one, finished, ?_⟩
  rwa [limit, none] at attempts

end PostCall.Properties
