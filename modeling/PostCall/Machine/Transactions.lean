import PostCall.Machine.Move
import PostCall.Model.World

/-!
# Transactions as paths

Each program of the model, run to its end or to a raise, is a path of moves. The lemmas follow the
programs, from the operations of the job repository up to the transactions of the workers; each says
under which permissions the path is made.
-/

namespace PostCall.Machine
open PostCall.Library PostCall.Python PostCall.Model

section Operations

variable {cfg : Settings} {ok : Db → Label → Prop} {db : Db}

/-- What is aside is one move at most. -/
lemma Aside.path {db' : Db} (h : Aside db db') (allowed : ∀ db, ok db .aside) :
    Path (Move cfg) ok db db' :=
  .single (.aside h) (allowed db)

/-- A change aside, as a program. -/
lemma within_aside {f : Db → Db} (h : ∀ db, Aside db (f db)) (allowed : ∀ db, ok db .aside) :
    Within (Path (Move cfg) ok) (modify f : Tx PUnit) :=
  fun db => (h db).path allowed

/-- An event of no deferral and no burial is aside. -/
lemma within_emit {job : InteractionJob} {stage status message : String} {code : Option String}
    (h : status ≠ "deferred" ∧ status ≠ "dead_lettered") (allowed : ∀ db, ok db .aside) :
    Within (Path (Move cfg) ok) (Tx.emit job stage status message code) :=
  within_aside (fun _ => .emit h) allowed

/-- What the environment raises moves nothing. -/
lemma within_interrupt {fault : Option PyError} :
    Within (Path (Move cfg) ok) (Tx.interrupt fault) := by
  cases fault with
  | none => exact .pure
  | some e => exact .throw

/-- The transaction after a wakeup that failed writes an event, unless it raises. -/
lemma transact_wakeupFailed {job : InteractionJob} {failed : FailedWakeup} :
    World.transact db (wakeupFailed job failed) =
      if failed.refusal = none then
        db.emit job "webhook" "queued" "workflow_wakeup_failed" (some failed.error.className)
      else db := by
  unfold World.transact commit wakeupFailed
  cases failed.refusal <;> rfl

/-- `create_if_absent`, as one look at the tables. -/
lemma createIfAbsent_run {new : NewJob} :
    Tx.createIfAbsent cfg new db =
      match db.queue.getByIdempotencyKey? new.idempotencyKey with
      | some existing => .ok existing db
      | none =>
        if !new.fits then .error (.dataError "invalid input for a column of interaction_jobs") db
        else if (db.interactions.find? new.interactionId).isNone then
          .error (.integrityError "interaction_jobs_interaction_id_fkey") db
        else
          match db.queue.add? (new.row cfg) with
          | some queue => .ok (new.row cfg) { db with queue := queue }
          | none => .error (.integrityError "interaction_jobs_pkey") db := by
  unfold Tx.createIfAbsent
  rw [Program.bind_of_ok Program.get_run]
  cases db.queue.getByIdempotencyKey? new.idempotencyKey with
  | some existing => rfl
  | none =>
    simp only
    split
    · rfl
    split
    · rfl
    cases db.queue.add? (new.row cfg) <;> rfl

/-- What `create_if_absent` does: it finds a row under the key, or inserts one, or raises. -/
lemma createIfAbsent_cases (cfg : Settings) (db : Db) (new : NewJob) :
    (∃ row, Tx.createIfAbsent cfg new db = .ok row db ∧ row ∈ db.queue.jobs.rows ∧
      row.idempotencyKey = new.idempotencyKey) ∨
    (∃ queue, Tx.createIfAbsent cfg new db = .ok (new.row cfg) { db with queue := queue } ∧
      (errorLog? db new.interactionId).isSome ∧ db.queue.add? (new.row cfg) = some queue) ∨
    (∃ e, Tx.createIfAbsent cfg new db = .error e db) := by
  rw [createIfAbsent_run]
  cases found : db.queue.getByIdempotencyKey? new.idempotencyKey with
  | some row =>
    obtain ⟨mem, e⟩ := Table.findIndex?_eq_some.1 found
    exact .inl ⟨row, rfl, mem, e⟩
  | none =>
    right
    cases fits : new.fits with
    | false =>
      right
      exact ⟨_, rfl⟩
    | true =>
      simp only [Bool.not_true, Bool.false_eq_true, if_false]
      cases known : db.interactions.find? new.interactionId with
      | none =>
        right
        exact ⟨_, rfl⟩
      | some i =>
        cases added : db.queue.add? (new.row cfg) with
        | none =>
          right
          exact ⟨_, rfl⟩
        | some queue =>
          left
          exact ⟨queue, rfl, by simp [errorLog?, known], rfl⟩

/-- A job is created, or was there already. -/
lemma within_createIfAbsent {new : NewJob} (allowed : ∀ db, ok db (.create (new.row cfg))) :
    Within (Path (Move cfg) ok) (Tx.createIfAbsent cfg new) := by
  intro db
  rcases createIfAbsent_cases cfg db new with
    ⟨_, e, _, _⟩ | ⟨_, e, known, added⟩ | ⟨_, e⟩
  · rw [e]; exact .refl
  · rw [e]; exact .single (.create ⟨new, rfl⟩ known added) (allowed db)
  · rw [e]; exact .refl

/-- After `create_if_absent` there is a job under the key. -/
lemma createIfAbsent_key {new : NewJob} {row : InteractionJob} {db' : Db}
    (h : Tx.createIfAbsent cfg new db = .ok row db') :
    ∃ row ∈ db'.queue.jobs.rows, row.idempotencyKey = new.idempotencyKey := by
  rcases createIfAbsent_cases cfg db new with
    ⟨row, e, mem, key⟩ | ⟨queue, e, _, added⟩ | ⟨_, e⟩
  · rw [e] at h
    cases h
    exact ⟨row, mem, key⟩
  · rw [e] at h
    cases h
    refine ⟨new.row cfg, ?_, rfl⟩
    rw [(Queue.add?_eq_some added).1]
    exact List.mem_append_right _ (List.mem_singleton.2 rfl)
  · rw [e] at h
    cases h

/-- A loop over jobs of which each pass is a move about its own job. -/
lemma path_foldl {op : Queue → UUID → Queue} (label : InteractionJob → Label)
    {jobs : List InteractionJob} (nodup : (jobs.map (·.id)).Nodup)
    (mem : ∀ job ∈ jobs, job ∈ db.queue.jobs.rows) (about : ∀ job, (label job).job? = some job)
    (move : ∀ db, ∀ job ∈ jobs, job ∈ db.queue.jobs.rows →
      Move cfg db (label job) (db.mapQueue (op · job.id)))
    (allowed : ∀ db, ∀ job ∈ jobs, ok db (label job)) :
    Path (Move cfg) ok db (db.mapQueue fun q => (jobs.map (·.id)).foldl op q) := by
  induction jobs generalizing db with
  | nil => exact .refl
  | cons job jobs ih =>
    simp only [List.map_cons, List.nodup_cons, List.mem_map, not_exists, not_and] at nodup
    have m := move db job List.mem_cons_self (mem job List.mem_cons_self)
    have rest : ∀ row ∈ jobs, row ∈ (db.mapQueue (op · job.id)).queue.jobs.rows :=
      m.mem_of_others (about job) nodup.1 fun row h => mem row (List.mem_cons_of_mem _ h)
    have p := ih nodup.2 rest (fun db row h => move db row (List.mem_cons_of_mem _ h))
      fun db row h => allowed db row (List.mem_cons_of_mem _ h)
    exact (Path.single m (allowed db job List.mem_cons_self)).trans p

/-- A loop of moves about distinct jobs leaves each of them as its own move does. -/
lemma mem_foldl (cfg : Settings) {op : Queue → UUID → Queue} (label : InteractionJob → Label)
    {f : InteractionJob → InteractionJob} {jobs : List InteractionJob}
    (nodup : (jobs.map (·.id)).Nodup) (mem : ∀ job ∈ jobs, job ∈ db.queue.jobs.rows)
    (about : ∀ job, (label job).job? = some job)
    (after : ∀ job, (label job).after? cfg = some (f job))
    (move : ∀ db, ∀ job ∈ jobs, job ∈ db.queue.jobs.rows →
      Move cfg db (label job) (db.mapQueue (op · job.id))) :
    ∀ job ∈ jobs, f job ∈ ((jobs.map (·.id)).foldl op db.queue).jobs.rows := by
  induction jobs generalizing db with
  | nil => exact fun job h => nomatch h
  | cons job jobs ih =>
    simp only [List.map_cons, List.nodup_cons, List.mem_map, not_exists, not_and] at nodup
    have m := move db job List.mem_cons_self (mem job List.mem_cons_self)
    have rest : ∀ row ∈ jobs, row ∈ (db.mapQueue (op · job.id)).queue.jobs.rows :=
      m.mem_of_others (about job) nodup.1 fun row h => mem row (List.mem_cons_of_mem _ h)
    have move' := fun db row (h : row ∈ jobs) => move db row (List.mem_cons_of_mem _ h)
    intro row h
    rcases List.mem_cons.1 h with rfl | h
    · -- the later passes are about other jobs
      have p : Path (Move cfg) (fun _ l => ∃ job ∈ jobs, l = label job)
          (db.mapQueue (op · row.id)) _ :=
        path_foldl label nodup.2 rest about move' fun _ job h => ⟨job, h, rfl⟩
      have mem' : f row ∈ (db.mapQueue (op · row.id)).queue.jobs.rows :=
        (m.effect.rows _).2 (.inr (.inr (after row)))
      have same : (f row).id = row.id :=
        congrArg JobIdentity.id (Move.identity_after (after row) (about row))
      refine Path.mem_of_ne p mem' fun _ l job' hl e => ?_
      obtain ⟨job, h', rfl⟩ := hl
      rw [about job] at e
      obtain rfl := Option.some.inj e
      exact fun e => nodup.1 job h' (e.symm.trans same)
    · exact ih nodup.2 rest move' row h

/-- The database after a recovery. -/
def recovered (cfg : Settings) (workerId : String) (recovery : RecoveryClock) (db : Db) : Db :=
  db.mapQueue (·.recoverStaleRunningJobs cfg workerId recovery)

/-- A recovery always returns. -/
lemma recoverStaleRunningJobs_run {workerId : String} {recovery : RecoveryClock} :
    Tx.recoverStaleRunningJobs cfg workerId recovery db =
      .ok ⟨⟩ (recovered cfg workerId recovery db) := rfl

/-- A recovery is a path of moves, one for each stale row. -/
lemma path_recover {workerId : String} {recovery : RecoveryClock}
    (allowed : ∀ db', ∀ job ∈ db.queue.jobs.rows,
      job.stale (Queue.lockCutoff cfg recovery.now) →
      ok db' (.recover job workerId (recovery.moved job.id))) :
    Path (Move cfg) ok db (recovered cfg workerId recovery db) := by
  refine path_foldl (fun job => .recover job workerId (recovery.moved job.id))
    Queue.nodup_staleJobs (fun job h => (Queue.mem_staleJobs.1 h).1) (fun _ => rfl)
    (fun db' job h mem => ?_) fun db' job h => ?_
  · exact .recover mem (InteractionJob.running_of_stale (Queue.mem_staleJobs.1 h).2) rfl
  · obtain ⟨mem, stale⟩ := Queue.mem_staleJobs.1 h
    exact allowed db' job mem stale

/-- A stale row is given back. -/
lemma mem_recovered_of_stale {workerId : String} {recovery : RecoveryClock} {job : InteractionJob}
    (mem : job ∈ db.queue.jobs.rows) (stale : job.stale (Queue.lockCutoff cfg recovery.now)) :
    job.recover workerId (recovery.moved job.id) ∈
      (recovered cfg workerId recovery db).queue.jobs.rows :=
  mem_foldl (f := fun job => job.recover workerId (recovery.moved job.id)) cfg
    (fun job => .recover job workerId (recovery.moved job.id)) Queue.nodup_staleJobs
    (fun _ h => (Queue.mem_staleJobs.1 h).1) (fun _ => rfl) (fun _ => rfl)
    (fun _ _ h mem =>
      .recover mem (InteractionJob.running_of_stale (Queue.mem_staleJobs.1 h).2) rfl)
    job (Queue.mem_staleJobs.2 ⟨mem, stale⟩)

/-- Another row stays as it is. -/
lemma mem_recovered_of_fresh {workerId : String} {recovery : RecoveryClock} {job : InteractionJob}
    (mem : job ∈ db.queue.jobs.rows) (fresh : ¬ job.stale (Queue.lockCutoff cfg recovery.now)) :
    job ∈ (recovered cfg workerId recovery db).queue.jobs.rows := by
  have p : Path (Move cfg) (fun _ l => ∃ row ∈ db.queue.jobs.rows, ∃ now,
      l = .recover row workerId now ∧ row.stale (Queue.lockCutoff cfg recovery.now)) db
      (recovered cfg workerId recovery db) :=
    path_recover fun _ row mem stale => ⟨row, mem, _, rfl, stale⟩
  refine Path.mem_of_ne p mem fun _ l row hl about e => ?_
  obtain ⟨row', mem', _, rfl, stale⟩ := hl
  cases about
  exact fresh (Table.eq_of_key mem' mem e.symm ▸ stale)

section Claim

variable {workerId : String} {jobTypes : List JobType} {limit : ℕ} {query : ClaimQuery}

/-- The database after a claim. -/
def claimed (workerId : String) (jobTypes : List JobType) (limit : ℕ) (query : ClaimQuery)
    (db : Db) : Db :=
  db.mapQueue fun q => (q.claimReadyJobs workerId jobTypes limit query).1

/-- The rows a claim returns. -/
def claimedJobs (workerId : String) (jobTypes : List JobType) (limit : ℕ) (query : ClaimQuery)
    (db : Db) : List InteractionJob :=
  (db.queue.readyJobs jobTypes limit query).map (·.claim workerId query.now)

/-- A claim always returns. -/
lemma claimReadyJobs_run :
    Tx.claimReadyJobs workerId jobTypes limit query db =
      .ok (claimedJobs workerId jobTypes limit query db)
        (claimed workerId jobTypes limit query db) := rfl

/-- The claim of one row is a move. -/
private lemma claim_move {db' : Db} {job : InteractionJob}
    (h : job ∈ db.queue.readyJobs jobTypes limit query) (mem : job ∈ db'.queue.jobs.rows) :
    Move cfg db' (.claim job workerId query.now)
      (db'.mapQueue (Queue.claim workerId query.now · job.id)) := by
  obtain ⟨_, _, ready, due, _⟩ := Queue.of_mem_readyJobs h
  exact .claim mem ready due

/-- A claim is a path of moves, one for each row. -/
lemma path_claim (allowed : ∀ db', ∀ job ∈ db.queue.readyJobs jobTypes limit query,
      ok db' (.claim job workerId query.now)) :
    Path (Move cfg) ok db (claimed workerId jobTypes limit query db) :=
  path_foldl (fun job => .claim job workerId query.now) Queue.nodup_readyJobs
    (fun _ h => (Queue.of_mem_readyJobs h).1) (fun _ => rfl) (fun _ _ h mem => claim_move h mem)
    allowed

/-- The rows that a claim returns are there after it. -/
lemma mem_claimed {job : InteractionJob}
    (h : job ∈ claimedJobs workerId jobTypes limit query db) :
    job ∈ (claimed workerId jobTypes limit query db).queue.jobs.rows := by
  obtain ⟨row, mem, rfl⟩ := List.mem_map.1 h
  exact mem_foldl (f := (·.claim workerId query.now)) settings
    (fun job => .claim job workerId query.now) Queue.nodup_readyJobs
    (fun _ h => (Queue.of_mem_readyJobs h).1) (fun _ => rfl) (fun _ => rfl)
    (fun _ _ h mem => claim_move h mem) row mem

/-- A claimed job was ready, and is of a type that was asked for. -/
lemma of_mem_claimedJobs {job : InteractionJob}
    (h : job ∈ claimedJobs workerId jobTypes limit query db) :
    ∃ row ∈ db.queue.readyJobs jobTypes limit query, job = row.claim workerId query.now ∧
      row.jobType ∈ jobTypes := by
  obtain ⟨row, mem, rfl⟩ := List.mem_map.1 h
  exact ⟨row, mem, rfl, (Queue.of_mem_readyJobs mem).2.1⟩

/-- The rows that a claim returns are running, and they are the rows of the table. -/
lemma running_of_claimedJobs : ∀ job ∈ claimedJobs workerId jobTypes limit query db,
    job.status = .running ∧ job ∈ (claimed workerId jobTypes limit query db).queue.jobs.rows := by
  intro job h
  obtain ⟨_, _, rfl, _⟩ := of_mem_claimedJobs h
  exact ⟨rfl, mem_claimed h⟩

/-- A claim of one type of jobs returns jobs of that type. -/
lemma jobType_of_claimedJobs {jobType : JobType} {job : InteractionJob}
    (h : job ∈ claimedJobs workerId [jobType] limit query db) : job.jobType = jobType := by
  obtain ⟨_, _, rfl, type⟩ := of_mem_claimedJobs h
  exact List.mem_singleton.1 type

/-- No job is claimed twice by one claim. -/
lemma nodup_claimedJobs : ((claimedJobs workerId jobTypes limit query db).map (·.id)).Nodup := by
  unfold claimedJobs
  rw [List.map_map]
  exact Queue.nodup_readyJobs

end Claim

end Operations

end PostCall.Machine
