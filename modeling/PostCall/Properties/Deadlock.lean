import PostCall.Machine.Locking
import PostCall.Model.World

/-!
# Deadlocks of the LLM transactions

A claim recovers stale jobs before it locks the usage of the platform; a success locks the usage of the
platform before its job. So the two deadlock when a job is recovered while its success is being
reported. Nothing else makes them wait in a cycle: the jobs to recover are locked in the order of their
ids, a customer's row is locked only by who has locked the platform's, and rows to claim are skipped
when others have locked them.
-/

namespace PostCall.Properties
open PostCall.Library PostCall.Python PostCall.Model PostCall.Machine

variable {cfg : Settings} {s : Locking} {n m : ℕ} {a : Session} {id : UUID}

/-- A recovery that has these rows left to write, and has written all others that it has loaded. -/
structure Recovering (a : Session) (ids : List UUID) : Prop where
  sorted : ids.Pairwise fun x y => x.val < y.val
  above : ∀ x ∈ a.written, ∀ id ∈ ids, x.val < id.val
  found : ∀ id ∈ ids, id ∈ a.stale ∧ ∃ o ∈ a.objects, o.id = id
  running : ∀ o ∈ a.objects, o.id ∈ ids → o.status = .running
  others : ∀ o ∈ a.objects, o.id ∈ ids ∨ o.id ∈ a.written

/-- A claim that has locked these rows of the usage and has these statements left: the first row is the
platform's, and the jobs that it updates are its own. -/
structure Admitting (a : Session) (rows : List Row) (todo : List Statement) : Prop where
  own : ∀ statement ∈ todo, (∃ c, statement = .selectUsage c) ∨
    ∃ id w, statement = .updateJob id w ∧ id ∈ a.written
  usage : ∀ row ∈ rows, ∃ c, row = .usage c
  first : .usage GLOBAL_RATE_LIMIT_ID ∈ rows ∨
    rows = [] ∧ ∀ statement ∈ todo.head?, statement = .selectUsage GLOBAL_RATE_LIMIT_ID

/-- What a transaction has locked and is about to do, at each of its stages. -/
inductive Underway (a : Session) : Task → Prop where
  | idle :
    a = .idle →
    Underway a .none
  | recovering {workerId moved ids} :
    Recovering a ids →
    Underway a ⟨.recovering workerId, [], Statement.recoveries workerId moved ids⟩
  | admitting {rows todo} :
    Admitting a rows todo →
    Underway a ⟨.admitting, rows, todo⟩
  | reporting {job result tokensUsed now k} :
    k ≤ 3 →
    job.status = .running →
    a.objects = [job] →
    a.updates = [] →
    Underway a ⟨.reporting job.id,
      (((Statement.success job result tokensUsed now).take k).map (·.row)).reverse,
      (Statement.success job result tokensUsed now).drop k⟩
  | reported {job result tokensUsed now} :
    job.status = .running →
    a.updates = [⟨job, .succeed result tokensUsed now⟩] →
    Underway a ⟨.reporting job.id,
      (((Statement.success job result tokensUsed now).take 3).map (·.row)).reverse, []⟩

/-- Every transaction is at one of its stages, no two have locked the same row, and a job is locked by a
transaction that reports it, that has recovered it, or that has found it ready. A job whose success is
being reported is not ready, and locked only by transactions that report it. -/
structure Disciplined (s : Locking) : Prop where
  sound : s.server.Sound
  present : ∀ n, (s.task n).stage ≠ .idle → n < s.server.sessions.length
  underway : ∀ n, Underway (s.session n) (s.task n)
  exclusive : ∀ n m, n ≠ m → ∀ row ∈ (s.task n).rows, row ∉ (s.task m).rows
  locked : ∀ n, ∀ id ∈ (s.session n).written, (s.task n).stage = .reporting id ∨
    (s.session n).recovers id ∨ Claimable s.server.queue id
  apart : ∀ n m id, (s.task m).stage = .reporting id → id ∈ (s.session n).written →
    (s.task n).stage = .reporting id
  unclaimable : ∀ n id, (s.task n).stage = .reporting id → ¬ Claimable s.server.queue id

/-- The order in which the rows are waited for. -/
def level : Row → ℕ
  | .job id => id.val
  | .interaction _ => 2 ^ 128
  | .usage _ => 2 ^ 128 + 1

/-- A customer's row is locked only with the platform's. -/
lemma Underway.platform {task : Task} {c : UUID} (h : Underway a task) (mem : .usage c ∈ task.rows) :
    .usage GLOBAL_RATE_LIMIT_ID ∈ task.rows := by
  cases h with
  | idle => cases mem
  | recovering => cases mem
  | admitting admitting =>
    rcases admitting.first with first | ⟨rfl, _⟩
    · exact first
    · cases mem
  | @reporting job result tokensUsed now k le =>
    obtain rfl | rfl | rfl | rfl : k = 0 ∨ k = 1 ∨ k = 2 ∨ k = 3 := by omega
    all_goals simp [Statement.success, Statement.row] at mem ⊢
  | reported => simp [Statement.success, Statement.row]

/-! ### What a transaction does with its objects -/

section

variable {q : Queue} {workerId : String} {clock : RecoveryClock} {ids : List UUID} {now : Time}
  {rows : List Row} {todo : List Statement}

/-- The rows that a recovery has found, in the order in which it will write them. -/
lemma recovering_stale : Recovering { (q.staleJobs cfg clock.now).foldl Session.load .idle with
      stale := (q.staleJobs cfg clock.now).map (·.id) }
    (((q.staleJobs cfg clock.now).map (·.id)).insertionSort (·.val ≤ ·.val)) := by
  have mem_ids : ∀ id, id ∈ ((q.staleJobs cfg clock.now).map (·.id)).insertionSort (·.val ≤ ·.val) ↔
      id ∈ (q.staleJobs cfg clock.now).map (·.id) := fun id => List.mem_insertionSort _
  have found : ∀ o ∈ ((q.staleJobs cfg clock.now).foldl Session.load .idle).objects,
      o ∈ q.staleJobs cfg clock.now := fun o mem =>
    (Session.of_mem_load_foldl mem).resolve_left List.not_mem_nil
  refine ⟨?_, fun x mem => ?_, fun id mem => ?_, fun o mem _ => ?_, fun o mem => .inl ?_⟩
  · have sorted := List.pairwise_insertionSort (fun x y : UUID => x.val ≤ y.val)
      ((q.staleJobs cfg clock.now).map (·.id))
    have nodup : (((q.staleJobs cfg clock.now).map (·.id)).insertionSort (·.val ≤ ·.val)).Nodup :=
      (List.perm_insertionSort _ _).nodup_iff.2 Queue.nodup_staleJobs
    refine (sorted.and nodup).imp fun {x y} ⟨le, ne⟩ => lt_of_le_of_ne le fun e => ne ?_
    cases x
    cases y
    exact congrArg UUID.mk e
  · have written : x ∈ ((q.staleJobs cfg clock.now).foldl Session.load .idle).written := mem
    rw [Session.written, Session.load_foldl_updates] at written
    cases written
  · have mem := (mem_ids id).1 mem
    obtain ⟨row, stale, rfl⟩ := List.mem_map.1 mem
    exact ⟨mem, Session.exists_mem_load_foldl stale⟩
  · exact InteractionJob.running_of_stale (Queue.mem_staleJobs.1 (found o mem)).2
  · exact (mem_ids o.id).2 (List.mem_map_of_mem (found o mem))

/-- The next of these rows is written. -/
lemma Recovering.write (h : Recovering a (id :: ids)) :
    Recovering (a.write id (.recover workerId now)) ids := by
  have sorted := List.pairwise_cons.1 h.sorted
  have ne : ∀ id' ∈ ids, id' ≠ id := fun id' mem e => by
    have := sorted.1 id' mem
    rw [e] at this
    exact lt_irrefl _ this
  have written : id ∈ (a.write id (.recover workerId now)).written := by
    obtain ⟨_, o, mem, rfl⟩ := h.found id List.mem_cons_self
    refine Session.mem_written_of_status mem fun o' mem' e => ?_
    rw [h.running o' mem' (e ▸ List.mem_cons_self)]
    exact JobStatus.noConfusion
  refine ⟨sorted.2, fun x mem id' mem' => ?_, fun id' mem => ?_, fun o mem mem' => ?_, fun o mem => ?_⟩
  · rcases Session.mem_written_write mem with old | rfl
    · exact h.above x old id' (List.mem_cons_of_mem _ mem')
    · exact sorted.1 id' mem'
  · obtain ⟨stale, o, there, rfl⟩ := h.found id' (List.mem_cons_of_mem _ mem)
    rw [Session.write_stale]
    exact ⟨stale, o, Session.mem_objects_write there (ne o.id mem), rfl⟩
  · have old := Session.mem_objects_write_of_ne mem (ne o.id mem')
    exact h.running o old (List.mem_cons_of_mem _ mem')
  · by_cases e : o.id = id
    · rw [e]
      exact .inr written
    · rcases h.others o (Session.mem_objects_write_of_ne mem e) with left | old
      · exact .inl ((List.mem_cons.1 left).resolve_left e)
      · exact .inr (Session.written_write old)

/-- What a claim is about to do when it has locked the rows it claims. -/
lemma Recovering.claim {jobs : List InteractionJob} {refused : UUID → Option (Time × String)}
    (h : Recovering a []) (ready : ∀ job ∈ jobs, job.status ≠ .running) :
    Admitting (jobs.foldl (Session.claim workerId now) a) [] (Statement.admissions refused jobs) := by
  have objects : ∀ o ∈ a.objects, o.id ∈ a.written := fun o mem =>
    (h.others o mem).resolve_left List.not_mem_nil
  refine ⟨fun statement mem => ?_, fun row mem => absurd mem List.not_mem_nil, .inr ⟨rfl, ?_⟩⟩
  · obtain ⟨job, claimed, rest⟩ := List.mem_flatMap.1 mem
    rcases List.mem_cons.1 rest with rfl | rest
    · exact .inl ⟨_, rfl⟩
    rcases List.mem_cons.1 rest with rfl | rest
    · exact .inl ⟨_, rfl⟩
    obtain ⟨refusal, _, rfl⟩ := List.mem_map.1 rest
    exact .inr ⟨job.id, _, rfl, Session.mem_written_of_claimed objects ready claimed⟩
  · intro statement head
    cases jobs with
    | nil => cases head
    | cons job jobs => exact (Option.some.inj head).symm

/-- A row of the usage is locked: the first one is the platform's. -/
lemma Admitting.select {c : UUID} (h : Admitting a rows (.selectUsage c :: todo)) :
    Admitting a (.usage c :: rows) todo := by
  refine ⟨fun statement mem => h.own statement (List.mem_cons_of_mem _ mem), fun row mem => ?_, .inl ?_⟩
  · rcases List.mem_cons.1 mem with rfl | mem
    · exact ⟨c, rfl⟩
    · exact h.usage row mem
  · rcases h.first with first | ⟨_, head⟩
    · exact List.mem_cons_of_mem _ first
    · cases head (.selectUsage c) rfl
      exact List.mem_cons_self

/-- A job that is refused is written. -/
lemma Admitting.update {w : Write} {b : Session} (h : Admitting a rows (.updateJob id w :: todo))
    (more : ∀ x ∈ a.written, x ∈ b.written) : Admitting b rows todo := by
  refine ⟨fun statement mem => ?_, h.usage, ?_⟩
  · rcases h.own statement (List.mem_cons_of_mem _ mem) with usage | ⟨x, w', rfl, old⟩
    · exact .inl usage
    · exact .inr ⟨x, w', rfl, more x old⟩
  · rcases h.first with first | ⟨_, head⟩
    · exact .inl first
    · cases head (.updateJob id w) rfl

end

namespace Disciplined

variable (h : Disciplined s)
include h

/-- Who waits for a usage row has not locked the platform's, since who has locked the row has. -/
lemma not_platform {c : UUID} (ne : n ≠ m) (holds : s.holds m (.usage c)) :
    .usage GLOBAL_RATE_LIMIT_ID ∉ (s.task n).rows := fun mem =>
  h.exclusive n m ne _ mem ((h.underway m).platform (Locking.holds_usage.1 holds))

/-- No two transactions have locked the same job. -/
lemma not_written (ne : n ≠ m) (mem : id ∈ (s.session n).written) : id ∉ (s.session m).written :=
  fun mem' => h.sound.exclusive n m _ _ ne (Locking.getElem?_of_written mem)
    (Locking.getElem?_of_written mem') id mem mem'

/-- Who waits for the job whose success it reports has not locked the platform's row either. -/
lemma not_job (ne : n ≠ m) (holds : s.holds m (.job id))
    (reporting : (s.task n).stage = .reporting id) :
    .usage GLOBAL_RATE_LIMIT_ID ∉ (s.task n).rows := by
  intro mem
  have written := Locking.holds_job.1 holds
  -- the other has reported the same job
  have stage := h.apart m n id reporting written
  have underway := h.underway m
  have apart := h.exclusive n m ne _ mem
  generalize s.task m = task at stage underway apart
  cases underway with
  | idle => cases stage
  | recovering => cases stage
  | admitting => cases stage
  | reporting le running objects updates =>
    rw [Session.written, updates] at written
    cases written
  | reported => simp [Statement.success, Statement.row] at apart

/-- Whoever is waited for and waits itself, wants a row of a higher level. -/
theorem rising : Rising s.wants (fun n row => s.holds n row) level := by
  intro l n m row row' wait wait'
  have held := wait.holds
  have wanted := wait'.wants
  have other := wait'.holds
  have ne := wait'.ne
  have underway := h.underway n
  unfold Locking.wants at wanted
  generalize e : s.task n = task at underway wanted
  cases underway with
  | idle => cases wanted
  | @recovering workerId moved ids recovering =>
    cases ids with
    | nil => cases wanted
    | cons id ids =>
      obtain rfl : row' = .job id := (Option.some.inj wanted).symm
      -- it holds only jobs with smaller ids
      obtain ⟨x, mem, rfl⟩ := Locking.job_of_holds (by rw [e]) held
      exact recovering.above x mem id List.mem_cons_self
  | @admitting rows todo admitting =>
    obtain ⟨statement, head, rfl⟩ := Option.map_eq_some_iff.1 wanted
    rcases admitting.own statement (List.mem_of_mem_head? head) with ⟨c, rfl⟩ | ⟨id, w, rfl, mem⟩
    · rcases admitting.first with first | ⟨rfl, _⟩
      · exact absurd (e ▸ first) (h.not_platform ne other)
      · obtain ⟨x, _, rfl⟩ := Locking.job_of_holds (by rw [e]) held
        exact lt_of_lt_of_le x.val.isLt (Nat.le_succ _)
    · exact absurd (Locking.holds_job.1 other) (h.not_written ne mem)
  | @reporting job result tokensUsed now k le running objects updates =>
    have written : (s.session n).written = [] := by rw [Session.written, updates, List.map_nil]
    obtain rfl | rfl | rfl | rfl : k = 0 ∨ k = 1 ∨ k = 2 ∨ k = 3 := by omega
    · -- it has locked nothing
      obtain ⟨x, mem, _⟩ := Locking.job_of_holds (by rw [e]; rfl) held
      rw [written] at mem
      cases mem
    · obtain rfl : row' = .usage GLOBAL_RATE_LIMIT_ID := (Option.some.inj wanted).symm
      cases row with
      | job x =>
        have mem := Locking.holds_job.1 held
        rw [written] at mem
        cases mem
      | interaction i => exact Nat.lt_succ_self _
      | usage c =>
        have mem := Locking.holds_usage.1 held
        rw [e] at mem
        simp [Statement.success, Statement.row] at mem
    · obtain rfl : row' = .usage job.customerId := (Option.some.inj wanted).symm
      refine absurd ?_ (h.not_platform ne other)
      rw [e]
      simp [Statement.success, Statement.row]
    · obtain rfl : row' = .job job.id := (Option.some.inj wanted).symm
      refine absurd ?_ (h.not_job ne other (by rw [e]))
      rw [e]
      simp [Statement.success, Statement.row]
  | reported => cases wanted

/-- One connection does something. -/
lemma of_alone {s' : Locking} (alone : Locking.Alone n s s') (sound : s'.server.Sound)
    (within : n < s.server.sessions.length) (underway : Underway (s'.session n) (s'.task n))
    (rows : ∀ row ∈ (s'.task n).rows, ∀ m ≠ n, row ∉ (s.task m).rows)
    (unlocked : ∀ m ≠ n, ∀ id ∈ (s.session m).written,
      s'.server.queue.get? id = s.server.queue.get? id)
    (locked : ∀ id ∈ (s'.session n).written, (s'.task n).stage = .reporting id ∨
      (s'.session n).recovers id ∨ Claimable s'.server.queue id)
    (written : ∀ id ∈ (s'.session n).written, ∀ m ≠ n, (s.task m).stage = .reporting id →
      (s'.task n).stage = .reporting id)
    (stage : ∀ id, (s'.task n).stage = .reporting id → ∀ m ≠ n, id ∈ (s.session m).written →
      (s.task m).stage = .reporting id)
    (unclaimable : ∀ m id, (s'.task m).stage = .reporting id → ¬ Claimable s'.server.queue id) :
    Disciplined s' := by
  refine ⟨sound, fun m busy => ?_, fun m => ?_, fun m m' ne row mem mem' => ?_, fun m id mem => ?_,
    fun m m' id reporting mem => ?_, unclaimable⟩
  · rw [alone.length]
    by_cases e : m = n
    · rwa [e]
    · rw [alone.task m e] at busy
      exact h.present m busy
  · by_cases e : m = n
    · rwa [e]
    · rw [alone.task m e, alone.session m e]
      exact h.underway m
  · by_cases e : m = n <;> by_cases e' : m' = n
    · exact ne (e.trans e'.symm)
    · rw [e] at mem
      rw [alone.task m' e'] at mem'
      exact rows row mem m' e' mem'
    · rw [e'] at mem'
      rw [alone.task m e] at mem
      exact rows row mem' m e mem
    · rw [alone.task m e] at mem
      rw [alone.task m' e'] at mem'
      exact h.exclusive m m' ne row mem mem'
  · by_cases e : m = n
    · rw [e] at mem ⊢
      exact locked id mem
    · rw [alone.session m e] at mem ⊢
      rw [alone.task m e, Claimable, unlocked m e id mem]
      exact h.locked m id mem
  · by_cases e : m = n <;> by_cases e' : m' = n
    · rwa [e, ← e']
    · rw [alone.task m' e'] at reporting
      rw [e] at mem ⊢
      exact written id mem m' e' reporting
    · rw [e'] at reporting
      rw [alone.session m e] at mem
      rw [alone.task m e]
      exact stage id reporting m e mem
    · rw [alone.task m' e'] at reporting
      rw [alone.session m e] at mem
      rw [alone.task m e]
      exact h.apart m m' id reporting mem

/-- One connection does something that is not a commit. What it has locked now has been free. -/
lemma of_statement {s' : Locking} (alone : Locking.Alone n s s')
    (queue : s'.server.queue = s.server.queue) (sound : s'.server.Sound)
    (within : n < s.server.sessions.length) (underway : Underway (s'.session n) (s'.task n))
    (rows : ∀ row ∈ (s'.task n).rows, ∀ m ≠ n, row ∉ (s.task m).rows)
    (locked : ∀ id ∈ (s'.session n).written, (s'.task n).stage = .reporting id ∨
      ((s'.session n).recovers id ∧ ∀ m, (s.task m).stage ≠ .reporting id) ∨
      Claimable s.server.queue id)
    (stage : ∀ id, (s'.task n).stage = .reporting id → (s.task n).stage = .reporting id ∨
      (¬ Claimable s.server.queue id ∧
        ∀ m, id ∈ (s.session m).written → (s.task m).stage = .reporting id)) : Disciplined s' := by
  refine h.of_alone alone sound within underway rows (fun _ _ _ _ => by rw [queue])
    (fun id mem => ?_) (fun id mem m ne reporting => ?_) (fun id reporting m _ mem => ?_)
    fun m id reporting => ?_
  · rw [queue]
    exact (locked id mem).imp_right (Or.imp_left And.left)
  · rcases locked id mem with own | ⟨_, apart⟩ | claimable
    · exact own
    · exact absurd reporting (apart m)
    · exact absurd claimable (h.unclaimable m id reporting)
  · rcases stage id reporting with old | ⟨_, apart⟩
    · exact h.apart m n id old mem
    · exact apart m mem
  · rw [queue]
    by_cases e : m = n
    · rw [e] at reporting
      rcases stage id reporting with old | ⟨unclaimable, _⟩
      · exact h.unclaimable n id old
      · exact unclaimable
    · rw [alone.task m e] at reporting
      exact h.unclaimable m id reporting

/-- A statement on the job table, after which the session of the transaction is `b`. -/
lemma of_send {request : Request} {task : Task} {b : Session} (on : request.On n)
    (queue : (s.server.step cfg request).queue = s.server.queue)
    (after : (s.send cfg n request task).session n = b) (within : n < s.server.sessions.length)
    (underway : Underway b task) (rows : ∀ row ∈ task.rows, ∀ m ≠ n, row ∉ (s.task m).rows)
    (locked : ∀ id ∈ b.written, task.stage = .reporting id ∨
      (b.recovers id ∧ ∀ m, (s.task m).stage ≠ .reporting id) ∨ Claimable s.server.queue id)
    (stage : ∀ id, task.stage = .reporting id → (s.task n).stage = .reporting id ∨
      (¬ Claimable s.server.queue id ∧
        ∀ m, id ∈ (s.session m).written → (s.task m).stage = .reporting id)) :
    Disciplined (s.send cfg n request task) := by
  refine h.of_statement (Locking.alone_send on) queue (Server.sound_step request h.sound) within
    ?_ ?_ ?_ ?_
  · rwa [after, Locking.send_task_self]
  · rwa [Locking.send_task_self]
  · rwa [after, Locking.send_task_self]
  · rwa [Locking.send_task_self]

/-- A job that a transaction has recovered is not being reported by another. -/
lemma locked_or (mem : id ∈ (s.session n).written) : (s.task n).stage = .reporting id ∨
    ((s.session n).recovers id ∧ ∀ m, (s.task m).stage ≠ .reporting id) ∨
      Claimable s.server.queue id := by
  rcases h.locked n id mem with own | recovers | claimable
  · exact .inl own
  · by_cases own : (s.task n).stage = .reporting id
    · exact .inl own
    · exact .inr (.inl ⟨recovers, fun m reporting => own (h.apart n m id reporting mem)⟩)
  · exact .inr (.inr claimable)

lemma of_isIdle (idle : s.isIdle n) : n < s.server.sessions.length ∧ s.session n = .idle := by
  simp only [Locking.isIdle, Bool.and_eq_true, decide_eq_true_eq] at idle
  refine ⟨idle.1, ?_⟩
  have underway := h.underway n
  have stage := idle.2
  generalize s.task n = task at underway stage
  cases underway with
  | idle fresh => exact fresh
  | _ => cases stage

lemma beginClaim {workerId : String} {clock : RecoveryClock} :
    Disciplined (s.step cfg (.beginClaim n workerId clock)) := by
  simp only [Locking.step]
  split
  case isFalse => exact h
  case isTrue idle =>
  obtain ⟨within, fresh⟩ := h.of_isIdle idle
  refine h.of_send rfl Server.onSession_queue (Locking.session_send within rfl) within ?_
    (fun row mem => absurd mem List.not_mem_nil) (fun id mem => ?_) fun id stage => by cases stage
  · rw [fresh]
    exact .recovering recovering_stale
  · rw [fresh] at mem
    have written : id ∈ (((Session.idle.queue s.server.queue).staleJobs cfg clock.now).foldl
      Session.load .idle).written := mem
    rw [Session.written, Session.load_foldl_updates] at written
    cases written

/-- A row of a job that is running, as it is committed, is locked only by who reports or recovers it. -/
lemma reporting_of_written {job : InteractionJob} (found : s.server.queue.get? id = some job)
    (running : job.status = .running) (apart : s.recovered id = false)
    (mem : id ∈ (s.session m).written) : (s.task m).stage = .reporting id := by
  rcases h.locked m id mem with reporting | recovers | claimable
  · exact reporting
  · rw [Locking.not_recovers_of_not_recovered apart] at recovers
    cases recovers
  · exact absurd claimable (not_claimable_of_running found running)

lemma beginSuccess {result : Dict} {tokensUsed : ℤ} {now : Time}
    (apart : s.isIdle n → (s.server.queue.get? id).any (·.status = .running) → s.recovered id = false) :
    Disciplined (s.step cfg (.beginSuccess n id result tokensUsed now)) := by
  simp only [Locking.step]
  split
  case h_2 => exact h
  case h_1 job found =>
  split
  case isFalse => exact h
  case isTrue begins =>
  simp only [Bool.and_eq_true, decide_eq_true_eq] at begins
  obtain ⟨idle, running⟩ := begins
  obtain ⟨within, fresh⟩ := h.of_isIdle idle
  have alone := apart idle (by rw [found]; simpa using running)
  obtain ⟨_, rfl⟩ := Queue.get?_eq_some.1 found
  have seen : (Session.idle.queue s.server.queue).get? job.id = some job := found
  refine h.of_send rfl Server.onSession_queue (Locking.session_send within rfl) within ?_
    (fun row mem => absurd mem List.not_mem_nil) (fun id mem => ?_) fun id stage => .inr ?_
  · rw [fresh, seen]
    exact .reporting (Nat.zero_le 3) running rfl rfl
  · rw [fresh, seen] at mem
    cases mem
  · obtain rfl : job.id = id := Stage.reporting.inj stage
    exact ⟨not_claimable_of_running found running,
      fun m mem => h.reporting_of_written found running alone mem⟩

/-- A row of another table is locked. -/
lemma lock {stage : Stage} {rows : List Row} {row : Row} {todo : List Statement}
    (same : stage = (s.task n).stage) (held : rows = (s.task n).rows)
    (other : ∀ id, row ≠ .job id) (free : s.free n row) (within : n < s.server.sessions.length)
    (underway : Underway (s.session n) ⟨stage, row :: rows, todo⟩) :
    Disciplined ⟨s.server, Function.update s.task n ⟨stage, row :: rows, todo⟩⟩ := by
  have alone : Locking.Alone n s ⟨s.server, Function.update s.task n ⟨stage, row :: rows, todo⟩⟩ :=
    ⟨rfl, fun m ne => Function.update_of_ne ne .., fun _ _ => rfl⟩
  refine h.of_statement alone rfl h.sound within ?_ ?_ ?_ ?_ <;> dsimp only <;>
    rw [Function.update_self]
  · exact underway
  · intro row' mem m ne mem'
    rcases List.mem_cons.1 mem with rfl | mem
    · have here : m < s.server.sessions.length := h.present m fun idle => by
        have underway := h.underway m
        generalize s.task m = task at idle mem' underway
        cases underway with
        | idle => cases mem'
        | _ => cases idle
      have apart := Locking.not_holds_of_free free ne here
      cases row' with
      | job id => exact other id rfl
      | _ => simp [Locking.holds, mem'] at apart
    · rw [held] at mem
      exact h.exclusive n m ne.symm row' mem mem'
  · rw [same]
    exact fun id mem => h.locked_or mem
  · rw [same]
    exact fun id stage => .inl stage

/-- The next stale job is recovered. -/
lemma recover {workerId : String} {moved : UUID → Time} {ids : List UUID}
    (recovering : Recovering (s.session n) (id :: ids)) (within : n < s.server.sessions.length)
    (free : s.free n (.job id)) (spared : ∀ m, (s.task m).stage ≠ .reporting id)
    (other : ∀ id, (s.task n).stage ≠ .reporting id) :
    Disciplined (s.send cfg n (.write n id (.recover workerId (moved id)))
      ⟨.recovering workerId, [], Statement.recoveries workerId moved ids⟩) := by
  have stale := (recovering.found id List.mem_cons_self).1
  refine h.of_send rfl Server.onSession_queue ((Locking.session_write within free).trans (if_neg ?_))
    within (.recovering recovering.write) (fun row mem => absurd mem List.not_mem_nil)
    (fun id' mem => .inr ?_) fun id stage => by cases stage
  · simpa [Write.isClaim] using fun _ => stale
  · rcases Session.of_mem_written_write mem with old | ⟨rfl, u, mem, e, e'⟩
    · rcases h.locked_or old with own | ⟨recovers, apart⟩ | claimable
      · exact absurd own (other id')
      · refine .inl ⟨?_, apart⟩
        obtain ⟨u, mem, e⟩ := List.any_eq_true.1 recovers
        exact List.any_eq_true.2 ⟨u, Session.mem_updates_write mem, e⟩
      · exact .inr claimable
    · exact .inl ⟨List.any_eq_true.2 ⟨u, mem, by simp [e, e', Write.isRecovery]⟩, spared⟩

/-- A job that is refused is deferred. -/
lemma defer {rows : List Row} {w : Write} {todo : List Statement}
    (e : s.task n = ⟨.admitting, rows, .updateJob id w :: todo⟩)
    (admitting : Admitting (s.session n) rows (.updateJob id w :: todo))
    (within : n < s.server.sessions.length) (free : s.free n (.job id)) :
    Disciplined (s.send cfg n (.write n id w) ⟨.admitting, rows, todo⟩) := by
  have own : id ∈ (s.session n).written := by
    rcases admitting.own _ List.mem_cons_self with ⟨c, e⟩ | ⟨_, _, e, mem⟩
    · cases e
    · cases e
      exact mem
  obtain ⟨b, after⟩ : ∃ b, (s.send cfg n (.write n id w) ⟨.admitting, rows, todo⟩).session n = b :=
    ⟨_, rfl⟩
  have b_eq := (Locking.session_write within free).symm.trans after
  have more : ∀ u ∈ (s.session n).updates, u ∈ b.updates := fun u mem => by
    rw [← b_eq]
    split
    · exact mem
    · exact Session.mem_updates_write mem
  have same : ∀ id' ∈ b.written, id' ∈ (s.session n).written := fun id' mem => by
    rw [← b_eq] at mem
    split at mem
    · exact mem
    · rcases Session.mem_written_write mem with old | rfl
      · exact old
      · exact own
  refine h.of_send rfl Server.onSession_queue after within
    (.admitting (admitting.update fun id' mem => ?_)) (fun row mem m ne => ?_) (fun id' mem => ?_)
    fun id stage => by cases stage
  · obtain ⟨u, old, rfl⟩ := List.mem_map.1 mem
    exact List.mem_map_of_mem (more u old)
  · exact h.exclusive n m ne.symm row (by rwa [e])
  · rcases h.locked_or (same id' mem) with own | ⟨recovers, apart⟩ | claimable
    · rw [e] at own
      cases own
    · obtain ⟨u, mem, e⟩ := List.any_eq_true.1 recovers
      exact .inr (.inl ⟨List.any_eq_true.2 ⟨u, more u mem, e⟩, apart⟩)
    · exact .inr (.inr claimable)

/-- The success is marked. -/
lemma succeed {job : InteractionJob} {result : Dict} {tokensUsed : ℤ} {now : Time}
    (e : s.task n = ⟨.reporting job.id,
      (((Statement.success job result tokensUsed now).take 3).map (·.row)).reverse,
      [.updateJob job.id (.succeed result tokensUsed now)]⟩)
    (running : job.status = .running) (objects : (s.session n).objects = [job])
    (updates : (s.session n).updates = []) (within : n < s.server.sessions.length)
    (free : s.free n (.job job.id)) :
    Disciplined (s.send cfg n (.write n job.id (.succeed result tokensUsed now))
      ⟨.reporting job.id, (((Statement.success job result tokensUsed now).take 3).map (·.row)).reverse,
        []⟩) := by
  have found : (s.session n).objects.find? (·.id = job.id) = some job := by
    rw [objects]
    simp
  have write := Session.write_of_status (w := .succeed result tokensUsed now) found (by
    rw [running]
    exact JobStatus.noConfusion)
  refine h.of_send rfl Server.onSession_queue (Locking.session_write within free) within ?_
    (fun row mem m ne => ?_) (fun id' mem => .inl ?_) fun id stage => .inl ?_
  · rw [if_neg (by simp [Write.isClaim, Write.isRecovery]), write, updates]
    exact .reported running rfl
  · exact h.exclusive n m ne.symm row (by rwa [e])
  · rw [if_neg (by simp [Write.isClaim, Write.isRecovery]), write, updates] at mem
    exact congrArg Stage.reporting (List.mem_singleton.1 mem).symm
  · rw [e]
    exact stage

/-- A statement locks in the order of the discipline. -/
lemma next (spared : ∀ id w, (s.task n).todo.head? = some (.updateJob id w) → w.isRecovery →
    s.free n (.job id) → ∀ m, (s.task m).stage ≠ .reporting id) :
    Disciplined (s.step cfg (.next n)) := by
  have underway := h.underway n
  have present := h.present n
  generalize e : s.task n = task at underway present spared
  obtain ⟨stage, rows, todo⟩ := task
  cases todo with
  | nil =>
    rw [Locking.step_next_nil e]
    exact h
  | cons statement todo =>
  by_cases free : s.free n statement.row
  case neg =>
    rw [Locking.step_next_of_not_free e free]
    exact h
  generalize all : statement :: todo = statements at underway
  cases underway with
  | idle => cases all
  | @recovering workerId moved ids recovering =>
    cases ids with
    | nil => cases all
    | cons id ids =>
      cases all
      rw [Locking.step_next_updateJob e free]
      exact h.recover recovering (present Stage.noConfusion) free (spared id _ rfl rfl free)
        fun id stage => by cases (congrArg Task.stage e).symm.trans stage
  | admitting admitting =>
    cases all
    have within := present Stage.noConfusion
    rcases admitting.own statement List.mem_cons_self with ⟨c, rfl⟩ | ⟨id, w, rfl, _⟩
    · rw [Locking.step_next_selectUsage e free]
      exact h.lock (by rw [e]) (by rw [e]) (fun id => Row.noConfusion) free within
        (.admitting admitting.select)
    · rw [Locking.step_next_updateJob e free]
      exact h.defer e admitting within free
  | @reporting job result tokensUsed now k le running objects updates =>
    have within := present Stage.noConfusion
    obtain rfl | rfl | rfl | rfl : k = 0 ∨ k = 1 ∨ k = 2 ∨ k = 3 := by omega
    · cases all
      rw [Locking.step_next_updateInteraction e free]
      exact h.lock (by rw [e]) (by rw [e]) (fun id => Row.noConfusion) free within
        (.reporting (k := 1) (by omega) running objects updates)
    · cases all
      rw [Locking.step_next_selectUsage e free]
      exact h.lock (by rw [e]) (by rw [e]) (fun id => Row.noConfusion) free within
        (.reporting (k := 2) (by omega) running objects updates)
    · cases all
      rw [Locking.step_next_selectUsage e free]
      exact h.lock (by rw [e]) (by rw [e]) (fun id => Row.noConfusion) free within
        (.reporting (k := 3) (by omega) running objects updates)
    · cases all
      rw [Locking.step_next_updateJob e free]
      exact h.succeed e running objects updates within free
  | reported => cases all

/-- The rows that a claim selects are locked by nobody else. -/
lemma claim {limit : ℕ} {now : Time} {tie : UUID → ℕ} {refused : UUID → Option (Time × String)} :
    Disciplined (s.step cfg (.claim n limit now tie refused)) := by
  have underway := h.underway n
  have present := h.present n
  simp only [Locking.step]
  split
  case h_2 => exact h
  case h_1 workerId rows e =>
  rw [e] at underway present
  generalize all : ([] : List Statement) = todo at underway
  cases underway with
  | @recovering _ _ ids recovering =>
  obtain rfl : ids = [] := List.map_eq_nil_iff.1 all.symm
  have within := present Stage.noConfusion
  have written : ((s.session n).objects.all fun o => (s.session n).written.contains o.id) = true :=
    List.all_eq_true.2 fun o mem => by
      simpa using (recovering.others o mem).resolve_left List.not_mem_nil
  set jobs := ((s.session n).queue s.server.queue).readyJobs [.llmAnalysis] limit
    ⟨now, s.server.locked n, tie⟩
  have after : (s.send cfg n (.claim n workerId [.llmAnalysis] limit now tie)
      ⟨.admitting, [], Statement.admissions refused jobs⟩).session n =
      jobs.foldl (Session.claim workerId now) (s.session n) := by
    rw [Locking.session_send within rfl]
    exact if_pos written
  refine h.of_send rfl Server.onSession_queue after within
    (.admitting (recovering.claim fun job mem => ?_)) (fun row mem => absurd mem List.not_mem_nil) (fun id mem => .inr ?_) fun id stage => by cases stage
  · rcases (Queue.of_mem_readyJobs mem).2.2.1 with status | status <;> simp [status]
  · by_cases old : id ∈ (s.session n).written
    · rcases h.locked_or old with own | ⟨recovers, apart⟩ | claimable
      · rw [e] at own
        cases own
      · obtain ⟨u, mem, e⟩ := List.any_eq_true.1 recovers
        exact .inl ⟨List.any_eq_true.2 ⟨u, Session.mem_updates_claim_foldl mem, e⟩, apart⟩
      · exact .inr claimable
    · -- the row is ready as it is committed
      obtain ⟨row, selected, rfl⟩ := List.mem_map.1
        ((Session.mem_written_claim_foldl mem).resolve_left old)
      have ready := Queue.of_mem_readyJobs selected
      have there := Queue.get?_of_mem ready.1
      rw [Session.get?_queue_of_not_mem old] at there
      exact .inr ⟨row, there, ready.2.2.1⟩

/-- After a success has been marked, its job is not to be claimed. -/
lemma not_claimable_of_done (reporting : (s.task n).stage = .reporting id) (done : s.isDone n) :
    ¬ Claimable ((s.session n).queue s.server.queue) id := by
  have underway := h.underway n
  rw [Locking.isDone, Bool.and_eq_true] at done
  have empty := done.1
  generalize s.task n = task at underway reporting empty
  cases underway with
  | idle => cases reporting
  | recovering => cases reporting
  | admitting => cases reporting
  | @reporting job result tokensUsed now k le =>
    obtain rfl | rfl | rfl | rfl : k = 0 ∨ k = 1 ∨ k = 2 ∨ k = 3 := by omega
    all_goals cases empty
  | @reported job result tokensUsed now running updates =>
    obtain rfl : job.id = id := Stage.reporting.inj reporting
    rintro ⟨row, found, ready⟩
    have after : (Update.apply s.server.queue ⟨job, .succeed result tokensUsed now⟩).get? job.id =
        some row := by
      rwa [Session.queue, updates] at found
    rw [Update.get?_apply, if_pos (show job.id = Update.id ⟨job, _⟩ from rfl)] at after
    obtain ⟨old, _, rfl⟩ := Option.map_eq_some_iff.1 after
    rw [flush_status, running] at ready
    rcases ready with ready | ready <;> cases ready

lemma commit : Disciplined (s.step cfg (.commit n)) := by
  simp only [Locking.step]
  split
  case isFalse => exact h
  case isTrue done =>
  have within : n < s.server.sessions.length := h.present n fun idle => by
    simp [Locking.isDone, idle] at done
  have sound : (s.server.step cfg (.commit n)).Sound := Server.sound_step (.commit n) h.sound
  refine h.of_alone (Locking.alone_send rfl) sound within ?_ ?_
    (fun m ne id mem => ?_) ?_ ?_ ?_ fun m id reporting => ?_
  · rw [Locking.session_commit within, Locking.send_task_self]
    exact .idle rfl
  · rw [Locking.send_task_self]
    exact fun row mem => absurd mem List.not_mem_nil
  · rw [Locking.queue_commit within]
    exact Session.get?_queue_of_not_mem (h.not_written ne mem)
  · rw [Locking.session_commit within]
    exact fun id mem => absurd mem List.not_mem_nil
  · rw [Locking.session_commit within]
    exact fun id mem => absurd mem List.not_mem_nil
  · rw [Locking.send_task_self]
    exact fun id stage => by cases stage
  · have ne : m ≠ n := by
      rintro rfl
      rw [Locking.send_task_self] at reporting
      cases reporting
    rw [Locking.send_task_of_ne ne] at reporting
    rw [Locking.queue_commit within]
    by_cases mem : id ∈ (s.session n).written
    · exact h.not_claimable_of_done (h.apart n m id reporting mem) done
    · rw [Claimable, Session.get?_queue_of_not_mem mem]
      exact h.unclaimable m id reporting

lemma rollback : Disciplined (s.step cfg (.rollback n)) := by
  simp only [Locking.step]
  split
  case isTrue => exact h
  case isFalse busy =>
  exact h.of_send rfl Server.onSession_queue (Locking.session_send (h.present n busy) rfl)
    (h.present n busy) (.idle rfl) (fun row mem => absurd mem List.not_mem_nil)
    (fun id mem => absurd mem List.not_mem_nil) fun id stage => by cases stage

end Disciplined

/-- The job whose success an action begins to report. -/
def begins (s : Locking) : LockAction → Option UUID
  | .beginSuccess n id _ _ _ =>
    if s.isIdle n && (s.server.queue.get? id).any (·.status = .running) then some id else none
  | _ => none

/-- The job that an action recovers. -/
def recovers (s : Locking) : LockAction → Option UUID
  | .next n =>
    match (s.task n).todo with
    | .updateJob id w :: _ => if w.isRecovery && s.free n (.job id) then some id else none
    | _ => none
  | _ => none

/-- No job is recovered while its success is being reported, or the other way round. -/
def Uncontested (s : Locking) (a : LockAction) : Prop :=
  (∀ id ∈ begins s a, s.recovered id = false) ∧ ∀ id ∈ recovers s a, s.reported id = false

instance : DecidableRel Uncontested := fun _ _ => inferInstanceAs (Decidable (_ ∧ _))

lemma disciplined_start (jobs : JobTable) (connections : ℕ) :
    Disciplined (.start jobs connections) := by
  have fresh : ∀ n, (Locking.start jobs connections).session n = .idle := fun n => by
    simp only [Locking.session, Locking.start, Server.start, List.getElem?_replicate]
    split <;> rfl
  refine ⟨Server.sound_start jobs connections, fun n busy => absurd rfl busy, fun n => ?_,
    fun n m _ row mem => absurd mem List.not_mem_nil, fun n id mem => ?_, fun n m id reporting => ?_,
    fun n id reporting => ?_⟩
  · exact .idle (fresh n)
  · rw [fresh] at mem
    cases mem
  · cases reporting
  · cases reporting

lemma disciplined_step (a : LockAction) (h : Disciplined s) (spared : Uncontested s a) :
    Disciplined (s.step cfg a) := by
  cases a with
  | beginClaim => exact h.beginClaim
  | beginSuccess n id =>
    refine h.beginSuccess fun idle running => spared.1 id ?_
    simp [begins, idle, running]
  | next n =>
    refine h.next fun id w head recovery free m reporting => ?_
    obtain ⟨todo, e⟩ := List.head?_eq_some_iff.1 head
    have apart : s.reported id = false := spared.2 id (by simp [recovers, e, recovery, free])
    have within : m < s.server.sessions.length := h.present m fun idle => by
      cases idle.symm.trans reporting
    have none := List.any_eq_false.1 apart m (List.mem_range.2 within)
    exact none (decide_eq_true reporting)
  | claim => exact h.claim
  | commit => exact h.commit
  | rollback => exact h.rollback

/-- The transactions that wait for each other. -/
def Stuck (s : Locking) : Prop := Deadlock s.wants fun n row => s.holds n row

/-- As long as no job is recovered while its success is being reported, claims and successes never
wait for each other in a cycle: in every interleaving of any number of them, from every job table. -/
theorem not_stuck {jobs : JobTable} {connections : ℕ} {as : List LockAction}
    (run : Run (Locking.step cfg) Uncontested (.start jobs connections) as s) : ¬ Stuck s :=
  (run.invariant (disciplined_start jobs connections) fun _ a h spared =>
    disciplined_step a h spared).rising.not_deadlock

/-- Of two jobs the first has been claimed, at time zero. -/
def oneClaimed : JobTable :=
  let rows := [1, 2].map fun n => (NewJob.plain n .llmAnalysis).row settings
  (((Queue.empty.addAll? rows).getD .empty).claimReadyJobs "first" [.llmAnalysis] 1 (.at 0)).1.jobs

/-- The success of the first job is reported as far as its customer's row, and another worker claims
in the meantime. -/
def reportAndClaim (now : Time) : List LockAction := [
  .beginSuccess 0 1 [] 1500 now,
  .next 0,
  .next 0,
  .next 0,
  .beginClaim 1 "second" ⟨now, fun _ => now⟩,
  .next 1,
  .claim 1 10 now (fun _ => 0) fun _ => none,
  .next 1]

def lockingAfter (as : List LockAction) : Locking :=
  as.foldl (Locking.step settings) (.start oneClaimed 2)

/-- In time, the claim waits for the report and the report for nobody. -/
theorem not_stuck_plain :
    (lockingAfter (reportAndClaim (seconds 60))).wants 1 = some (.usage GLOBAL_RATE_LIMIT_ID) ∧
      (lockingAfter (reportAndClaim (seconds 60))).wants 0 = some (.job 1) ∧
      ¬ Stuck (lockingAfter (reportAndClaim (seconds 60))) :=
  ⟨by decide +kernel, by decide +kernel, not_stuck (Run.of_checked (by decide +kernel))⟩

/-- When the lock of the job has timed out, the claim recovers the job and waits for the platform's row,
which the report has locked before it waits for the job. -/
theorem not_free_of_deadlock : ¬ ∀ (jobs : JobTable) (connections : ℕ) (as : List LockAction)
    (s : Locking), Run (Locking.step settings) anyStep (.start jobs connections) as s → ¬ Stuck s := by
  intro free
  set s := lockingAfter (reportAndClaim (seconds 301)) with s_eq
  have report : Waits s.wants (fun n row => s.holds n row) 0 1 (.job 1) :=
    ⟨by rw [s_eq]; decide +kernel, show s.holds 1 (.job 1) by rw [s_eq]; decide +kernel, by decide⟩
  have claim : Waits s.wants (fun n row => s.holds n row) 1 0 (.usage GLOBAL_RATE_LIMIT_ID) :=
    ⟨by rw [s_eq]; decide +kernel,
      show s.holds 0 (.usage GLOBAL_RATE_LIMIT_ID) by rw [s_eq]; decide +kernel, by decide⟩
  exact free oneClaimed 2 _ s (.of_foldl _) (deadlock_of_two report claim)

end PostCall.Properties
