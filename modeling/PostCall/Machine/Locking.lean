import PostCall.Library.Waiting
import PostCall.Machine.Overlaps

/-!
# Locks of the LLM transactions

The transactions in which an LLM worker claims jobs and reports a success, with all the rows that they
lock, in the order of their statements; the job table is that of `Machine.Sessions`. A statement waits
while another transaction holds its row, which here is a step that changes nothing, and a lock is held
until the transaction ends. All of them are in one minute window, so that a row of the usage table is
the customer's. What a transaction has changed without a flush reaches the database before its next
query: the metadata of the interaction before the first row of the usage is selected. One flush sends
its UPDATEs of a table in the order of the primary key, and the query of `claim_ready_jobs` skips the
rows that others have locked, so it does not wait.
-/

namespace PostCall.Machine
open PostCall.Library PostCall.Python PostCall.Model

/-- What is locked. -/
inductive Row where
  | job (id : UUID)
  | interaction (id : UUID)
  | usage (customerId : UUID)
  deriving DecidableEq

/-- A statement that locks one row. -/
inductive Statement where
  | updateJob (id : UUID) (w : Write)
  | updateInteraction (id : UUID)
  | selectUsage (customerId : UUID)

namespace Statement

def row : Statement → Row
  | .updateJob id _ => .job id
  | .updateInteraction id => .interaction id
  | .selectUsage customerId => .usage customerId

/-- The UPDATEs of `recover_stale_running_jobs`. -/
def recoveries (workerId : String) (moved : UUID → Time) (ids : List UUID) : List Statement :=
  ids.map fun id => .updateJob id (.recover workerId (moved id))

/-- What the loop of `_claim_admitted_jobs` locks: for each job the rows that `admit` selects, and the
job when it is refused. -/
def admissions (refused : UUID → Option (Time × String)) (jobs : List InteractionJob) :
    List Statement :=
  jobs.flatMap fun job =>
    .selectUsage GLOBAL_RATE_LIMIT_ID :: .selectUsage job.customerId ::
      (refused job.id).toList.map fun (runAfter, reason) =>
        .updateJob job.id (.defer runAfter reason "LLM admission deferred by rate limiter")

end Statement

/-- Where a transaction is. -/
inductive Stage where
  | idle
  | recovering (workerId : String)
  | admitting
  | reporting (id : UUID)
  deriving DecidableEq

/-- A transaction: the rows it has locked besides those of the job table, and the statements that it
knows it will send. -/
structure Task where
  stage : Stage
  rows : List Row
  todo : List Statement

/-- No transaction. -/
def Task.none : Task := ⟨.idle, [], []⟩

/-- The statements of a success. -/
def Statement.success (job : InteractionJob) (result : Dict) (tokensUsed : ℤ) (now : Time) :
    List Statement := [
  .updateInteraction job.interactionId,
  .selectUsage GLOBAL_RATE_LIMIT_ID,
  .selectUsage job.customerId,
  .updateJob job.id (.succeed result tokensUsed now)]

/-- Whether a transaction has recovered the job. -/
def Session.recovers (a : Session) (id : UUID) : Bool :=
  a.updates.any fun u => u.id = id && u.write.isRecovery

/-- The job table with its connections, and what each connection is at. -/
structure Locking where
  server : Server
  task : ℕ → Task

/-- What the connections do. `next` is the next statement of a transaction; a refusal of the rate
limiter is the environment's choice. -/
inductive LockAction where
  | beginClaim (n : ℕ) (workerId : String) (clock : RecoveryClock)
  | beginSuccess (n : ℕ) (id : UUID) (result : Dict) (tokensUsed : ℤ) (now : Time)
  | next (n : ℕ)
  | claim (n limit : ℕ) (now : Time) (tie : UUID → ℕ) (refused : UUID → Option (Time × String))
  | commit (n : ℕ)
  | rollback (n : ℕ)

namespace Locking

/-- A job table, and connections without a transaction. -/
def start (jobs : JobTable) (connections : ℕ) : Locking :=
  ⟨.start jobs connections, fun _ => .none⟩

def session (s : Locking) (n : ℕ) : Session := s.server.sessions[n]?.getD .idle

/-- What a connection may begin a transaction on. -/
def isIdle (s : Locking) (n : ℕ) : Bool :=
  n < s.server.sessions.length && (s.task n).stage = .idle

/-- The rows that a transaction has locked. -/
def holds (s : Locking) (n : ℕ) : Row → Bool
  | .job id => (s.session n).written.contains id
  | row => (s.task n).rows.contains row

/-- The row of its next statement. -/
def wants (s : Locking) (n : ℕ) : Option Row := (s.task n).todo.head?.map (·.row)

/-- Whether no other transaction has locked the row. -/
def free (s : Locking) (n : ℕ) (row : Row) : Bool :=
  (List.range s.server.sessions.length).all fun m => m = n || !s.holds m row

/-- The `n`th connection asks this of the job table, and is at that. -/
def send (cfg : Settings) (s : Locking) (n : ℕ) (request : Request) (task : Task) : Locking :=
  ⟨s.server.step cfg request, Function.update s.task n task⟩

/-- Whether a transaction has sent all its statements. -/
def isDone (s : Locking) (n : ℕ) : Bool :=
  (s.task n).todo.isEmpty && match (s.task n).stage with
    | .admitting | .reporting _ => true
    | _ => false

/-- Whether an open transaction has recovered the job. -/
def recovered (s : Locking) (id : UUID) : Bool := s.server.sessions.any (·.recovers id)

/-- Whether the success of the job is being reported. -/
def reported (s : Locking) (id : UUID) : Bool :=
  (List.range s.server.sessions.length).any fun n => (s.task n).stage = .reporting id

/-- One action. A success that does not find its job running ends at once. -/
def step (cfg : Settings) (s : Locking) : LockAction → Locking
  | .beginClaim n workerId clock =>
    if s.isIdle n then
      let stale := (s.server.queue.staleJobs cfg clock.now).map (·.id)
      s.send cfg n (.loadStale n clock.now) ⟨.recovering workerId, [],
        Statement.recoveries workerId clock.moved (stale.insertionSort (·.val ≤ ·.val))⟩
    else s
  | .beginSuccess n id result tokensUsed now =>
    match s.server.queue.get? id with
    | some job =>
      if s.isIdle n && job.status = .running then
        s.send cfg n (.load n id) ⟨.reporting id, [], Statement.success job result tokensUsed now⟩
      else s
    | none => s
  | .next n =>
    match s.task n with
    | ⟨stage, rows, statement :: todo⟩ =>
      if s.free n statement.row then
        match statement with
        | .updateJob id w => s.send cfg n (.write n id w) ⟨stage, rows, todo⟩
        | _ => ⟨s.server, Function.update s.task n ⟨stage, statement.row :: rows, todo⟩⟩
      else s
    | _ => s
  | .claim n limit now tie refused =>
    match s.task n with
    | ⟨.recovering workerId, rows, []⟩ =>
      let jobs := ((s.session n).queue s.server.queue).readyJobs [.llmAnalysis] limit
        ⟨now, s.server.locked n, tie⟩
      s.send cfg n (.claim n workerId [.llmAnalysis] limit now tie)
        ⟨.admitting, rows, Statement.admissions refused jobs⟩
    | _ => s
  | .commit n => if s.isDone n then s.send cfg n (.commit n) .none else s
  | .rollback n => if (s.task n).stage = .idle then s else s.send cfg n (.rollback n) .none

end Locking

/-! ### What a request leaves of the connections -/

/-- A request of the `n`th connection. -/
def Request.On (n : ℕ) : Request → Prop
  | .insert _ => False
  | .load m _ | .loadStale m _ | .write m _ _ | .claim m _ _ _ _ _ | .commit m | .rollback m => m = n

namespace Server

variable {cfg : Settings} {s : Server} {n m : ℕ} {f : Session → Session}

/-- What a session does by itself does not change what is committed. -/
@[simp] lemma onSession_queue : (s.onSession n f).queue = s.queue := by
  unfold onSession
  split <;> rfl

/-- It opens and closes no connection. -/
@[simp] lemma onSession_length : (s.onSession n f).sessions.length = s.sessions.length := by
  unfold onSession
  split
  · exact List.length_set
  · rfl

/-- The session has changed. -/
lemma getElem?_onSession_self {a : Session} (found : s.sessions[n]? = some a) :
    (s.onSession n f).sessions[n]? = some (f a) := by
  have within : n < s.sessions.length := (List.getElem?_eq_some_iff.1 found).1
  simp only [onSession, found, List.getElem?_set_self within]

/-- The others have not. -/
lemma getElem?_onSession_of_ne (ne : m ≠ n) : (s.onSession n f).sessions[m]? = s.sessions[m]? := by
  unfold onSession
  split
  · exact List.getElem?_set_ne ne.symm
  · rfl

/-- No request opens or closes a connection. -/
lemma step_length (request : Request) :
    (s.step cfg request).sessions.length = s.sessions.length := by
  cases request with
  | insert row =>
    simp only [step]
    split <;> rfl
  | commit n =>
    simp only [step]
    split
    · exact List.length_set
    · rfl
  | _ => exact onSession_length

/-- A request is about its own session. -/
lemma getElem?_step_of_ne {request : Request} (on : Request.On n request) (ne : m ≠ n) :
    (s.step cfg request).sessions[m]? = s.sessions[m]? := by
  cases request with
  | insert row => exact on.elim
  | commit n' =>
    obtain rfl : n' = n := on
    simp only [step]
    split
    · exact List.getElem?_set_ne ne.symm
    · rfl
  | _ =>
    obtain rfl := on
    exact getElem?_onSession_of_ne ne

end Server

namespace Locking

variable {cfg : Settings} {s : Locking} {n m : ℕ} {row : Row} {task : Task} {id : UUID}

section Next

variable {stage : Stage} {rows : List Row} {todo : List Statement} {w : Write} {c : UUID}

/-- A task without statements left does nothing. -/
lemma step_next_nil (e : s.task n = ⟨stage, rows, []⟩) : s.step cfg (.next n) = s := by
  simp only [step, e]

/-- A statement waits. -/
lemma step_next_of_not_free {statement : Statement} (e : s.task n = ⟨stage, rows, statement :: todo⟩)
    (blocked : ¬ s.free n statement.row) : s.step cfg (.next n) = s := by
  simp only [step, e]
  exact if_neg blocked

/-- A task writes a row that is free. -/
lemma step_next_updateJob (e : s.task n = ⟨stage, rows, .updateJob id w :: todo⟩)
    (free : s.free n (.job id)) :
    s.step cfg (.next n) = s.send cfg n (.write n id w) ⟨stage, rows, todo⟩ := by
  simp only [step, e]
  exact if_pos free

/-- A task locks the row of an interaction that is free. -/
lemma step_next_updateInteraction (e : s.task n = ⟨stage, rows, .updateInteraction id :: todo⟩)
    (free : s.free n (.interaction id)) : s.step cfg (.next n) =
      ⟨s.server, Function.update s.task n ⟨stage, .interaction id :: rows, todo⟩⟩ := by
  simp only [step, e]
  exact if_pos free

/-- A task locks a row of the ledger that is free. -/
lemma step_next_selectUsage (e : s.task n = ⟨stage, rows, .selectUsage c :: todo⟩)
    (free : s.free n (.usage c)) : s.step cfg (.next n) =
      ⟨s.server, Function.update s.task n ⟨stage, .usage c :: rows, todo⟩⟩ := by
  simp only [step, e]
  exact if_pos free

end Next

/-- The session of a task that has one. -/
lemma getElem?_session (within : n < s.server.sessions.length) :
    s.server.sessions[n]? = some (s.session n) := by
  rw [session, List.getElem?_eq_getElem within, Option.getD_some]

/-- A session that has written is there. -/
lemma getElem?_of_written (mem : id ∈ (s.session n).written) :
    s.server.sessions[n]? = some (s.session n) := by
  unfold session at mem ⊢
  cases found : s.server.sessions[n]? with
  | none =>
    rw [found] at mem
    cases mem
  | some => rfl

/-- The task goes on. -/
@[simp] lemma send_task_self {request : Request} : (s.send cfg n request task).task n = task :=
  Function.update_self ..

/-- The others stay where they are. -/
lemma send_task_of_ne {request : Request} (ne : m ≠ n) :
    (s.send cfg n request task).task m = s.task m := Function.update_of_ne ne ..

/-- Only the `n`th connection has done something. -/
structure Alone (n : ℕ) (s s' : Locking) : Prop where
  length : s'.server.sessions.length = s.server.sessions.length
  task : ∀ m ≠ n, s'.task m = s.task m
  session : ∀ m ≠ n, s'.session m = s.session m

/-- A request on its own session is of the task alone. -/
lemma alone_send {request : Request} (on : Request.On n request) :
    Alone n s (s.send cfg n request task) where
  length := Server.step_length request
  task _ := send_task_of_ne
  session m ne := by
    simp only [session, send, Server.getElem?_step_of_ne on ne]

/-- What a request leaves of the session. -/
lemma session_send {request : Request} {f : Session → Session} (within : n < s.server.sessions.length)
    (asks : s.server.step cfg request = s.server.onSession n f) :
    (s.send cfg n request task).session n = f (s.session n) := by
  simp only [session, send, asks, Server.getElem?_onSession_self (getElem?_session within),
    Option.getD_some]

/-- A commit leaves the session idle. -/
lemma session_commit (within : n < s.server.sessions.length) :
    (s.send cfg n (.commit n) task).session n = .idle := by
  have committed : s.server.step cfg (.commit n) =
      ⟨(s.session n).queue s.server.queue, s.server.sessions.set n .idle⟩ := by
    simp only [Server.step, getElem?_session within]
  rw [session, send, committed, List.getElem?_set_self within, Option.getD_some]

/-- A commit publishes what the session has written. -/
lemma queue_commit (within : n < s.server.sessions.length) :
    (s.send cfg n (.commit n) task).server.queue = (s.session n).queue s.server.queue := by
  simp only [send, Server.step, getElem?_session within]

/-- Nobody else holds a row that is free. -/
lemma not_holds_of_free (h : s.free n row) (ne : m ≠ n) (within : m < s.server.sessions.length) :
    s.holds m row = false := by
  have := List.all_eq_true.1 h m (List.mem_range.2 within)
  simpa [ne] using this

/-- A task holds the rows of jobs that it has written. -/
lemma holds_job : s.holds n (.job id) ↔ id ∈ (s.session n).written := by
  simp [holds]

/-- A task holds the interactions that it has locked. -/
lemma holds_interaction : s.holds n (.interaction id) ↔ .interaction id ∈ (s.task n).rows := by
  simp [holds]

/-- A task holds the rows of the ledger that it has locked. -/
lemma holds_usage : s.holds n (.usage id) ↔ .usage id ∈ (s.task n).rows := by
  simp [holds]

/-- A row of a job that is free is not locked. -/
lemma unlocked_of_free (h : s.free n (.job id)) : s.server.locked n id = false := by
  unfold Server.locked
  rw [List.any_eq_false]
  intro a mem
  obtain ⟨m, ne, found⟩ := List.mem_eraseIdx_iff_getElem?.1 mem
  have within : m < s.server.sessions.length := (List.getElem?_eq_some_iff.1 found).1
  have apart := not_holds_of_free h ne within
  rw [holds, session, found, Option.getD_some] at apart
  simpa using apart

/-- The UPDATE of a row that no other has locked. -/
lemma session_write {w : Write} (within : n < s.server.sessions.length) (h : s.free n (.job id)) :
    (s.send cfg n (.write n id w) task).session n =
      if w.isClaim || (w.isRecovery && !(s.session n).stale.contains id) then s.session n
      else (s.session n).write id w := by
  rw [session_send within rfl, unlocked_of_free h, Bool.or_false]

/-- A job that nobody has recovered is recovered by no session. -/
lemma not_recovers_of_not_recovered (h : s.recovered id = false) :
    (s.session n).recovers id = false := by
  unfold session
  cases found : s.server.sessions[n]? with
  | none => rfl
  | some a =>
    have none := List.any_eq_false.1 h a (List.mem_of_getElem? found)
    simpa using none

/-- A transaction that has locked jobs only. -/
lemma job_of_holds (jobs : (s.task n).rows = []) (h : s.holds n row) :
    ∃ id ∈ (s.session n).written, row = .job id := by
  cases row with
  | job id => exact ⟨id, holds_job.1 h, rfl⟩
  | interaction id =>
    have mem := holds_interaction.1 h
    rw [jobs] at mem
    cases mem
  | usage id =>
    have mem := holds_usage.1 h
    rw [jobs] at mem
    cases mem

end Locking

end PostCall.Machine
