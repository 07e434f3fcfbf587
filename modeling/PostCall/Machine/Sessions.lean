import PostCall.Library.Position
import PostCall.Library.Separated
import PostCall.Machine.Life

/-!
# Overlapping sessions

The transactions of `Machine.Transactions` happen one at a time. Here they overlap, statement by
statement, on one job table under READ COMMITTED. A session keeps the objects it has loaded and sends
an UPDATE with the columns in which an object differs from what it last saw (`flush`), so an object
may be behind its row. A row that a session has updated or selected FOR UPDATE is locked until the
session ends: an UPDATE by another waits, which here is a step that changes nothing, and the query of
`claim_ready_jobs` skips the row. `load` is the plain read that a report starts with. Rows are
inserted by transactions of their own.

The history of a session's queue records the updates of the status: a `defer` that finds the status
deferred in its object leaves that column alone.
-/

namespace PostCall.Machine
open PostCall.Library PostCall.Python PostCall.Model

/-- What an operation of the job repository does to an object. -/
inductive Write where
  | claim (workerId : String) (now : Time)
  | recover (workerId : String) (now : Time)
  | succeed (result : Dict) (tokensUsed : ℤ) (now : Time)
  | defer (runAfter : Time) (errorCode errorMessage : String)
  | deadLetter (stage errorCode errorMessage : String) (now : Time)

namespace Write

/-- The object after the operation. -/
def on : Write → InteractionJob → InteractionJob
  | .claim workerId now, job => job.claim workerId now
  | .recover workerId now, job => job.recover workerId now
  | .succeed result tokensUsed now, job => job.markSucceeded result tokensUsed now
  | .defer runAfter errorCode errorMessage, job => job.defer runAfter errorCode errorMessage
  | .deadLetter _ errorCode errorMessage now, job => job.deadLetter errorCode errorMessage now

/-- The event that the operation stands for. -/
def event : Write → UUID → JobEvent
  | .claim _ _, id => .claimed id
  | .recover _ _, id => .recovered id
  | .succeed _ _ _, id => .succeeded id
  | .defer _ _ _, id => .deferred id
  | .deadLetter _ _ _ _, id => .deadLettered id

/-- The dead letters that the operation adds. -/
def letters : Write → InteractionJob → List DeadLetterJob
  | .deadLetter stage errorCode errorMessage _, job => [.ofJob job stage errorCode errorMessage]
  | _, _ => []

def isClaim : Write → Bool
  | .claim _ _ => true
  | _ => false

def isRecovery : Write → Bool
  | .recover _ _ => true
  | _ => false

/-- A write keeps the identity of the job. -/
lemma on_identity (w : Write) (job : InteractionJob) :
    (w.on job).toJobIdentity = job.toJobIdentity := by
  cases w <;> rfl

@[simp] lemma event_job {w : Write} {id : UUID} : (w.event id).job = id := by
  cases w <;> rfl

/-- Its dead letter is that of the job. -/
lemma job_of_letter {w : Write} {job : InteractionJob} {d : DeadLetterJob}
    (h : d ∈ w.letters job) : d.originalJobId = job.id := by
  cases w with
  | deadLetter =>
    rw [List.mem_singleton.1 h]
    rfl
  | _ => cases h

/-- Only a claim makes an object running. -/
lemma isClaim_of_running {w : Write} {job : InteractionJob} (h : (w.on job).status = .running) :
    w.isClaim := by
  cases w with
  | claim => rfl
  | _ => cases h

end Write

/-- A column after a flush: one that the object did not change keeps the value of the row. -/
def column {α : Type} [DecidableEq α] (old new row : α) : α := if new = old then row else new

/-- The UPDATE of a flush, for an object that was `old` and is `new`. -/
def flush (old new row : InteractionJob) : InteractionJob :=
  { row with
    status := column old.status new.status row.status
    result := if Json.eq (.dict new.result) (.dict old.result) then row.result else new.result
    tokensUsed := column old.tokensUsed new.tokensUsed row.tokensUsed
    attempts := column old.attempts new.attempts row.attempts
    runAfter := column old.runAfter new.runAfter row.runAfter
    lockedBy := column old.lockedBy new.lockedBy row.lockedBy
    lockedAt := column old.lockedAt new.lockedAt row.lockedAt
    startedAt := column old.startedAt new.startedAt row.startedAt
    completedAt := column old.completedAt new.completedAt row.completedAt
    lastErrorCode := column old.lastErrorCode new.lastErrorCode row.lastErrorCode
    lastErrorMessage := column old.lastErrorMessage new.lastErrorMessage row.lastErrorMessage }

/-- Whether a flush sends anything. -/
def dirty (old new : InteractionJob) : Bool :=
  new.status ≠ old.status || !Json.eq (.dict new.result) (.dict old.result) || new.tokensUsed ≠ old.tokensUsed ||
    new.attempts ≠ old.attempts || new.runAfter ≠ old.runAfter || new.lockedBy ≠ old.lockedBy ||
    new.lockedAt ≠ old.lockedAt || new.startedAt ≠ old.startedAt ||
    new.completedAt ≠ old.completedAt || new.lastErrorCode ≠ old.lastErrorCode ||
    new.lastErrorMessage ≠ old.lastErrorMessage

/-- An operation on an object, sent to the database. -/
structure Update where
  object : InteractionJob
  write : Write

namespace Update

/-- The row it changes. -/
def id (u : Update) : UUID := u.object.id

/-- What it tells of the job: a claim, or another change of the status. -/
def events (u : Update) : List JobEvent :=
  if u.write.isClaim || (u.write.on u.object).status ≠ u.object.status then [u.write.event u.id]
  else []

/-- The queue after the update. -/
def apply (q : Queue) (u : Update) : Queue where
  jobs := q.jobs.modify u.id (flush u.object (u.write.on u.object)) (fun _ => rfl) (fun _ => rfl)
  deadLetterJobs := q.deadLetterJobs ++ u.write.letters u.object
  history := u.events ++ q.history

end Update

/-- An open transaction: its objects, the rows its recovery has found, and its updates so far. -/
structure Session where
  objects : List InteractionJob
  stale : List UUID
  updates : List Update

namespace Session

/-- A transaction that has not begun. -/
def idle : Session := ⟨[], [], []⟩

/-- The rows that the session has updated, and so locked. -/
def written (a : Session) : List UUID := a.updates.map (·.id)

/-- The rows that the session has claimed. -/
def claims (a : Session) : List UUID :=
  (a.updates.filter fun u => u.write.isClaim).map (·.id)

/-- The queue as the session sees it: its own updates over what is committed. -/
def queue (a : Session) (committed : Queue) : Queue := a.updates.foldl Update.apply committed

/-- A row becomes an object, unless the session has an object of it. -/
def load (a : Session) (row : InteractionJob) : Session :=
  if a.objects.any (·.id = row.id) then a else { a with objects := a.objects ++ [row] }

/-- An operation on an object, and its flush. -/
def write (a : Session) (id : UUID) (w : Write) : Session :=
  match a.objects.find? (·.id = id) with
  | none => a
  | some object =>
    if dirty object (w.on object) then
      { a with
        objects := a.objects.map fun o => if o.id = id then w.on object else o
        updates := a.updates ++ [⟨object, w⟩] }
    else a

/-- One pass of the loop in `claim_ready_jobs`. -/
def claim (workerId : String) (now : Time) (a : Session) (row : InteractionJob) : Session :=
  (a.load row).write row.id (.claim workerId now)

end Session

/-- The database: what is committed, and a transaction for each connection. -/
structure Server where
  queue : Queue
  sessions : List Session

/-- What the workers ask of the database. A number is the one of a connection. -/
inductive Request where
  | insert (row : InteractionJob)
  | load (n : ℕ) (id : UUID)
  | loadStale (n : ℕ) (now : Time)
  | write (n : ℕ) (id : UUID) (w : Write)
  | claim (n : ℕ) (workerId : String) (jobTypes : List JobType) (limit : ℕ) (now : Time)
      (tie : UUID → ℕ)
  | commit (n : ℕ)
  | rollback (n : ℕ)

namespace Server

/-- A table of jobs, and connections that are idle. -/
def start (jobs : JobTable) (connections : ℕ) : Server :=
  ⟨⟨jobs, [], []⟩, List.replicate connections .idle⟩

/-- Whether a row is locked by a session other than the `n`th. -/
def locked (s : Server) (n : ℕ) (id : UUID) : Bool :=
  (s.sessions.eraseIdx n).any (·.written.contains id)

/-- Change the `n`th session. -/
def onSession (s : Server) (n : ℕ) (f : Session → Session) : Server :=
  match s.sessions[n]? with
  | some a => { s with sessions := s.sessions.set n (f a) }
  | none => s

/-- One statement. A recovery writes what it has found, and a session that claims has written all it
has loaded: only reports load an object otherwise, and they do not claim. -/
def step (cfg : Settings) (s : Server) : Request → Server
  | .insert row =>
    match s.queue.add? row with
    | some queue => { s with queue := queue }
    | none => s
  | .load n id => s.onSession n fun a =>
    match (a.queue s.queue).get? id with
    | some row => a.load row
    | none => a
  | .loadStale n now => s.onSession n fun a =>
    let rows := (a.queue s.queue).staleJobs cfg now
    { rows.foldl Session.load a with stale := rows.map (·.id) }
  | .write n id w => s.onSession n fun a =>
    if w.isClaim || (w.isRecovery && !a.stale.contains id) || s.locked n id then a
    else a.write id w
  | .claim n workerId jobTypes limit now tie => s.onSession n fun a =>
    if a.objects.all fun o => a.written.contains o.id then
      ((a.queue s.queue).readyJobs jobTypes limit ⟨now, s.locked n, tie⟩).foldl
        (Session.claim workerId now) a
    else a
  | .commit n =>
    match s.sessions[n]? with
    | some a => ⟨a.queue s.queue, s.sessions.set n .idle⟩
    | none => s
  | .rollback n => s.onSession n fun _ => .idle

end Server

/-! ### What an update leaves -/

/-- A flush writes the status when the object's has changed. -/
@[simp] lemma flush_status {old new row : InteractionJob} :
    (flush old new row).status = if new.status = old.status then row.status else new.status := rfl

namespace Update

variable {q q' : Queue} {u : Update} {us : List Update} {id : UUID}

/-- An update changes the columns that the object has changed. -/
lemma apply_jobs : (u.apply q).jobs = q.jobs.modify u.id (flush u.object (u.write.on u.object))
    (fun _ => rfl) (fun _ => rfl) := rfl

@[simp] lemma apply_history : (u.apply q).history = u.events ++ q.history := rfl

@[simp] lemma apply_deadLetterJobs :
    (u.apply q).deadLetterJobs = q.deadLetterJobs ++ u.write.letters u.object := rfl

lemma get?_apply : (u.apply q).get? id =
    if id = u.id then (q.get? id).map (flush u.object (u.write.on u.object)) else q.get? id := by
  unfold Queue.get?
  rw [apply_jobs]
  exact Table.find?_modify

/-- The events of an update are about its row. -/
lemma job_of_event {e : JobEvent} (h : e ∈ u.events) : e.job = u.id := by
  unfold events at h
  split at h
  · rw [List.mem_singleton.1 h, Write.event_job]
  · cases h

/-- The dead letter of an update is that of its object. -/
lemma job_of_letter {d : DeadLetterJob} (h : d ∈ u.write.letters u.object) :
    d.originalJobId = u.id := Write.job_of_letter h

lemma view_apply_of_ne (ne : u.id ≠ id) : view (u.apply q) id = view q id := by
  have row : (u.apply q).get? id = q.get? id := by rw [get?_apply, if_neg ne.symm]
  have events : u.events.filter (·.job = id) = [] :=
    List.filter_eq_nil_iff.2 fun e h => by simpa [job_of_event h] using ne
  have letters : (u.write.letters u.object).filter (·.originalJobId = id) = [] :=
    List.filter_eq_nil_iff.2 fun d h => by simpa [job_of_letter h] using ne
  simp only [view, row, apply_history, apply_deadLetterJobs, List.filter_append, events, letters,
    List.nil_append, List.append_nil]

/-- The job of the update has the flushed row, the events and the letters of it. -/
lemma view_apply_self : view (u.apply q) u.id =
    ⟨(view q u.id).row.map (flush u.object (u.write.on u.object)), u.events ++ (view q u.id).events,
      (view q u.id).letters ++ u.write.letters u.object⟩ := by
  have row : (u.apply q).get? u.id =
      (q.get? u.id).map (flush u.object (u.write.on u.object)) := by rw [get?_apply, if_pos rfl]
  have events : u.events.filter (·.job = u.id) = u.events :=
    List.filter_eq_self.2 fun e h => by simpa using job_of_event h
  have letters :
      (u.write.letters u.object).filter (·.originalJobId = u.id) = u.write.letters u.object :=
    List.filter_eq_self.2 fun d h => by simpa using job_of_letter h
  simp only [view, row, apply_history, apply_deadLetterJobs, List.filter_append, events, letters]

/-- What an update makes of a job depends on that job only. -/
lemma view_apply_congr (h : view q id = view q' id) : view (u.apply q) id = view (u.apply q') id := by
  by_cases e : u.id = id
  · subst e
    rw [view_apply_self, view_apply_self, h]
  · rw [view_apply_of_ne e, view_apply_of_ne e, h]

/-- Updates do alike on queues in which a job looks alike. -/
lemma view_foldl_congr (h : view q id = view q' id) :
    view (us.foldl apply q) id = view (us.foldl apply q') id := by
  induction us generalizing q q' with
  | nil => exact h
  | cons u us ih => exact ih (view_apply_congr h)

/-- Updates of other jobs leave a job as it looks. -/
lemma view_foldl_of_not_mem (h : id ∉ us.map (·.id)) : view (us.foldl apply q) id = view q id := by
  induction us generalizing q with
  | nil => rfl
  | cons u us ih =>
    simp only [List.map_cons, List.mem_cons, not_or] at h
    rw [List.foldl_cons, ih h.2, view_apply_of_ne fun e => h.1 e.symm]

end Update

/-! ### Claims and releases of one job -/

/-- A release: a deferral, or the recovery of a stale lock. -/
def IsRelease (id : UUID) (e : JobEvent) : Prop := e = .recovered id ∨ e = .deferred id

/-- Between two claims there is a release, and a job that can be claimed, or is not there yet, has
been released since its last claim. -/
structure JobView.Released (id : UUID) (v : JobView) : Prop where
  separated : Separated (· = .claimed id) (IsRelease id) v.events
  cleared : (∀ row, v.row = some row → row.status = .pending ∨ row.status = .deferred) →
    Cleared (· = .claimed id) (IsRelease id) v.events

/-- An update keeps this, if a claim finds a row that is ready and an object that is not running. -/
lemma released_apply {q : Queue} {u : Update} (h : (view q u.id).Released u.id)
    (ready : u.write.isClaim → u.object.status ≠ .running ∧
      ∃ row, q.get? u.id = some row ∧ (row.status = .pending ∨ row.status = .deferred)) :
    (view (u.apply q) u.id).Released u.id := by
  obtain ⟨separated, cleared⟩ := h
  rw [Update.view_apply_self]
  simp only [view] at separated cleared ⊢
  by_cases claims : u.write.isClaim
  · -- the job was released, and is running now
    obtain ⟨idle, row, found, status⟩ := ready claims
    have e : u.events = [.claimed u.id] := by
      cases w : u.write <;> simp [w, Write.isClaim] at claims
      simp [Update.events, w, Write.isClaim, Write.event]
    have running : (u.write.on u.object).status = .running := by
      cases w : u.write <;> simp [w, Write.isClaim] at claims
      rfl
    rw [e]
    refine ⟨⟨fun _ => cleared fun row' found' => ?_, separated⟩, fun h => ?_⟩
    · rw [found] at found'
      cases found'
      exact status
    · have := h _ (by rw [found]; rfl)
      rw [flush_status, running, if_neg idle.symm] at this
      simp at this
  · -- any other event is no claim, and a release or the end of the job
    by_cases same : (u.write.on u.object).status = u.object.status
    · have e : u.events = [] := by simp [Update.events, claims, same]
      rw [e]
      refine ⟨separated, fun h => cleared fun row found => ?_⟩
      have := h (flush u.object (u.write.on u.object) row) (by rw [found]; rfl)
      rwa [flush_status, if_pos same] at this
    · have e : u.events = [u.write.event u.id] := by simp [Update.events, same]
      have other : u.write.event u.id ≠ .claimed u.id := by
        cases w : u.write <;> simp [w, Write.isClaim, Write.event] at claims ⊢
      rw [e]
      refine ⟨separated.cons other, fun h => ?_⟩
      by_cases released : IsRelease u.id (u.write.event u.id)
      · exact .of_release released
      · refine (cleared fun row found => ?_).cons other
        have status := h (flush u.object (u.write.on u.object) row) (by rw [found]; rfl)
        rw [flush_status, if_neg same] at status
        cases w : u.write <;>
          simp [w, Write.isClaim, Write.event, Write.on, IsRelease] at claims released status

namespace Session

variable {q q' : Queue} {a : Session} {row : InteractionJob} {id : UUID} {w : Write}

/-- The rows a session has touched are there, each job as the session sees it is `Released`, and no
object that the session has written is running unless its row is. -/
structure Sound (q : Queue) (a : Session) : Prop where
  written : ∀ id ∈ a.written, (q.get? id).isSome
  objects : ∀ o ∈ a.objects, (q.get? o.id).isSome
  released : ∀ id, (view (a.queue q) id).Released id
  running : ∀ o ∈ a.objects, o.id ∈ a.written → o.status = .running →
    ∀ row, (a.queue q).get? o.id = some row → row.status = .running

/-- A session makes no job and deletes none. -/
lemma get?_queue_isSome : ((a.queue q).get? id).isSome = (q.get? id).isSome := by
  unfold queue
  generalize a.updates = us
  induction us generalizing q with
  | nil => rfl
  | cons u us ih =>
    rw [List.foldl_cons, ih, Update.get?_apply]
    split
    · rw [Option.isSome_map]
    · rfl

lemma sound_idle (h : ∀ id, (view q id).Released id) : idle.Sound q :=
  ⟨fun _ mem => absurd mem List.not_mem_nil, fun _ mem => absurd mem List.not_mem_nil, h,
    fun _ mem => absurd mem List.not_mem_nil⟩

/-- What others commit does not disturb a session, if they leave the rows it has written alone. -/
lemma Sound.of_view (h : a.Sound q)
    (same : ∀ id, view q' id = view q id ∨ (id ∉ a.written ∧ (view q' id).Released id))
    (more : ∀ id, (q.get? id).isSome → (q'.get? id).isSome) : a.Sound q' := by
  refine ⟨fun id mem => more id (h.written id mem), fun o mem => more _ (h.objects o mem),
    fun id => ?_, fun o mem touched running row found => ?_⟩
  · rcases same id with e | ⟨untouched, released⟩
    · rw [queue, Update.view_foldl_congr e]
      exact h.released id
    · rw [queue, Update.view_foldl_of_not_mem untouched]
      exact released
  · rcases same o.id with e | ⟨untouched, _⟩
    · have row_eq : (a.queue q').get? o.id = (a.queue q).get? o.id :=
        congrArg JobView.row (Update.view_foldl_congr e)
      exact h.running o mem touched running row (row_eq.symm.trans found)
    · exact absurd touched untouched

/-! Loading adds objects only. -/

@[simp] lemma load_updates : (a.load row).updates = a.updates := by
  unfold load
  split <;> rfl

@[simp] lemma load_written : (a.load row).written = a.written := by
  rw [written, load_updates, written]

@[simp] lemma load_queue : (a.load row).queue q = a.queue q := by
  rw [queue, load_updates, queue]

/-- An object after the loading is an older one, or the row. -/
lemma of_mem_load {o : InteractionJob} (h : o ∈ (a.load row).objects) : o ∈ a.objects ∨ o = row := by
  unfold load at h
  split at h
  · exact .inl h
  · simpa using h

lemma Sound.load (h : a.Sound q) (found : (a.queue q).get? row.id = some row) :
    (a.load row).Sound q := by
  refine ⟨by simpa using h.written, fun o mem => ?_, by simpa using h.released,
    fun o mem touched running row' found' => ?_⟩
  · rcases of_mem_load mem with mem | rfl
    · exact h.objects o mem
    · rw [← get?_queue_isSome (a := a), found]
      rfl
  · rw [load_written] at touched
    rw [load_queue] at found'
    rcases of_mem_load mem with mem | rfl
    · exact h.running o mem touched running row' found'
    · rw [found] at found'
      cases found'
      exact running

lemma load_foldl_updates {rows : List InteractionJob} :
    (rows.foldl Session.load a).updates = a.updates := by
  induction rows generalizing a with
  | nil => rfl
  | cons row rows ih => rw [List.foldl_cons, ih, load_updates]

lemma Sound.load_foldl {rows : List InteractionJob} (h : a.Sound q)
    (found : ∀ row ∈ rows, (a.queue q).get? row.id = some row) :
    (rows.foldl Session.load a).Sound q := by
  induction rows generalizing a with
  | nil => exact h
  | cons row rows ih =>
    refine ih (h.load (found row List.mem_cons_self)) fun row' mem => ?_
    rw [load_queue]
    exact found row' (List.mem_cons_of_mem _ mem)

/-! Writing changes one object, and its row. -/

/-- What a write does: nothing, or one update with its object. -/
lemma write_cases (a : Session) (id : UUID) (w : Write) :
    a.write id w = a ∨ ∃ object ∈ a.objects, object.id = id ∧
      a.write id w = { a with
        objects := a.objects.map fun o => if o.id = id then w.on object else o
        updates := a.updates ++ [⟨object, w⟩] } := by
  unfold write
  cases found : a.objects.find? (·.id = id) with
  | none => exact .inl rfl
  | some object =>
    simp only
    split
    · exact .inr ⟨object, List.mem_of_find?_eq_some found, by simpa using List.find?_some found, rfl⟩
    · exact .inl rfl

/-- A row that is written after a write was written before, or is its own. -/
lemma mem_written_write {id' : UUID} (h : id' ∈ (a.write id w).written) :
    id' ∈ a.written ∨ id' = id := by
  rcases a.write_cases id w with e | ⟨object, _, rfl, e⟩
  · rw [e] at h
    exact .inl h
  · rw [e] at h
    simpa [written, Update.id] using h

/-- The session sees the other rows as before. -/
lemma get?_write_of_ne {id' : UUID} (ne : id' ≠ id) :
    ((a.write id w).queue q).get? id' = (a.queue q).get? id' := by
  rcases a.write_cases id w with e | ⟨object, _, rfl, e⟩
  · rw [e]
  · rw [e]
    simp only [queue, List.foldl_append, List.foldl_cons, List.foldl_nil]
    exact Update.get?_apply.trans (if_neg ne)

lemma mem_objects_write_of_ne {o : InteractionJob} (h : o ∈ (a.write id w).objects)
    (ne : o.id ≠ id) : o ∈ a.objects := by
  rcases a.write_cases id w with e | ⟨object, _, same, e⟩
  · rwa [e] at h
  · rw [e] at h
    obtain ⟨o', mem, rfl⟩ := List.mem_map.1 h
    by_cases eq : o'.id = id
    · rw [if_pos eq] at ne
      exact absurd ((congrArg JobIdentity.id (w.on_identity object)).trans same) ne
    · rwa [if_neg eq]

/-- A write keeps a session sound, if a claim finds its row ready. -/
lemma Sound.write (h : a.Sound q)
    (ready : w.isClaim → (∀ o ∈ a.objects, o.id = id → o.status ≠ .running) ∧
      ∃ row, (a.queue q).get? id = some row ∧ (row.status = .pending ∨ row.status = .deferred)) :
    (a.write id w).Sound q := by
  rcases a.write_cases id w with e | ⟨object, mem, rfl, e⟩
  · rwa [e]
  have same : (w.on object).id = object.id := congrArg JobIdentity.id (w.on_identity object)
  have there := h.objects object mem
  have claim : w.isClaim → object.status ≠ .running ∧ ∃ row, (a.queue q).get? object.id = some row ∧
      (row.status = .pending ∨ row.status = .deferred) := fun c =>
    ⟨(ready c).1 object mem rfl, (ready c).2⟩
  have queue_eq : (a.write object.id w).queue q = Update.apply (a.queue q) ⟨object, w⟩ := by
    rw [e]
    simp [queue]
  refine ⟨fun id touched => ?_, fun o mem' => ?_, fun id => ?_,
    fun o mem' touched running row found => ?_⟩
  case refine_1 =>
    rcases mem_written_write touched with touched | rfl
    · exact h.written id touched
    · exact there
  case refine_2 =>
    by_cases eq : o.id = object.id
    · rwa [eq]
    · exact h.objects o (mem_objects_write_of_ne mem' eq)
  case refine_3 =>
    rw [queue_eq]
    by_cases eq : id = object.id
    · subst eq
      exact released_apply (u := ⟨object, w⟩) (h.released object.id) claim
    · rw [Update.view_apply_of_ne (u := ⟨object, w⟩) fun e => eq e.symm]
      exact h.released id
  case refine_4 =>
    by_cases eq : o.id = object.id
    · -- the object written is running only after a claim, which writes the status
      rw [e] at mem'
      obtain ⟨o', mem', rfl⟩ := List.mem_map.1 mem'
      have eq' : o'.id = object.id := by
        by_contra ne
        rw [if_neg ne] at eq
        exact ne eq
      rw [if_pos eq'] at running found
      rw [queue_eq, Update.get?_apply, if_pos (show (w.on object).id = Update.id ⟨object, w⟩ from same)]
        at found
      obtain ⟨row', _, rfl⟩ := Option.map_eq_some_iff.1 found
      obtain ⟨idle, _⟩ := claim (Write.isClaim_of_running running)
      rw [flush_status, running, if_neg idle.symm]
    · rw [get?_write_of_ne eq] at found
      have old := mem_objects_write_of_ne mem' eq
      have touched : o.id ∈ a.written := (mem_written_write touched).resolve_right eq
      exact h.running o old touched running row found

end Session

namespace Session

variable {q : Queue} {a : Session}

/-- The loop of a claim keeps a session sound, and locks the rows it claims. -/
lemma Sound.claim_foldl {rows : List InteractionJob} (h : a.Sound q) (workerId : String) (now : Time)
    (nodup : (rows.map (·.id)).Nodup)
    (ready : ∀ row ∈ rows, (a.queue q).get? row.id = some row ∧
      (row.status = .pending ∨ row.status = .deferred))
    (idle : ∀ row ∈ rows, ∀ o ∈ a.objects, o.id = row.id → o.status ≠ .running) :
    (rows.foldl (claim workerId now) a).Sound q ∧
      ∀ id ∈ (rows.foldl (claim workerId now) a).written, id ∈ a.written ∨ id ∈ rows.map (·.id) := by
  induction rows generalizing a with
  | nil => exact ⟨h, fun id mem => .inl mem⟩
  | cons row rows ih =>
    simp only [List.map_cons, List.nodup_cons] at nodup
    obtain ⟨found, status⟩ := ready row List.mem_cons_self
    -- the row is an object now, that is ready as the row is, or was in a state other than running
    have sound : (claim workerId now a row).Sound q := by
      refine (h.load found).write fun _ => ⟨fun o mem e => ?_, row, by simpa using found, status⟩
      rcases of_mem_load mem with mem | rfl
      · exact idle row List.mem_cons_self o mem e
      · rcases status with status | status <;> simp [status]
    have ne : ∀ row' ∈ rows, row'.id ≠ row.id := fun row' mem e =>
      nodup.1 (List.mem_map.2 ⟨row', mem, e⟩)
    obtain ⟨sound', written⟩ := ih sound nodup.2
      (fun row' mem => by
        rw [claim, get?_write_of_ne (ne row' mem), load_queue]
        exact ready row' (List.mem_cons_of_mem _ mem))
      (fun row' mem o mem' e => by
        have old := mem_objects_write_of_ne mem' (e ▸ ne row' mem)
        rcases of_mem_load old with old | rfl
        · exact idle row' (List.mem_cons_of_mem _ mem) o old e
        · exact absurd e.symm (ne row' mem))
    refine ⟨sound', fun id mem => ?_⟩
    rcases written id mem with mem | mem
    · rcases mem_written_write mem with mem | rfl
      · exact .inl (by simpa using mem)
      · exact .inr List.mem_cons_self
    · exact .inr (List.mem_cons_of_mem _ mem)

end Session

namespace Server

variable {cfg : Settings} {s : Server} {n : ℕ}

/-- Every session is sound, and no two have written the same row. -/
structure Sound (s : Server) : Prop where
  committed : ∀ id, (view s.queue id).Released id
  sessions : ∀ (n : ℕ) (a : Session), s.sessions[n]? = some a → a.Sound s.queue
  exclusive : ∀ (n m : ℕ) (a b : Session), n ≠ m → s.sessions[n]? = some a →
    s.sessions[m]? = some b → ∀ id ∈ a.written, id ∉ b.written

/-- Nobody else has written a row that is not locked. -/
lemma not_mem_of_unlocked {id : UUID} {m : ℕ} {b : Session} (h : s.locked n id = false)
    (ne : m ≠ n) (hb : s.sessions[m]? = some b) : id ∉ b.written := by
  intro mem
  have : s.locked n id = true := by
    refine List.any_eq_true.2 ⟨b, List.mem_eraseIdx_iff_getElem?.2 ⟨m, ne, hb⟩, ?_⟩
    simpa using mem
  rw [h] at this
  cases this

lemma sound_start (jobs : JobTable) (connections : ℕ) : (start jobs connections).Sound := by
  have idle : ∀ (n : ℕ) (a : Session), (start jobs connections).sessions[n]? = some a → a = .idle := by
    intro n a h
    simp only [start, List.getElem?_replicate] at h
    split at h
    · exact (Option.some.inj h).symm
    · cases h
  have committed : ∀ id, (view (start jobs connections).queue id).Released id := fun id =>
    ⟨trivial, fun _ => trivial⟩
  refine ⟨committed, fun n a h => ?_, fun n m a b _ h _ id mem => ?_⟩
  · rw [idle n a h]
    exact Session.sound_idle committed
  · rw [idle n a h] at mem
    exact absurd mem List.not_mem_nil

/-- A change of one session, if it leaves it sound and locks only what no other has locked. -/
lemma Sound.onSession {f : Session → Session} (h : s.Sound)
    (keep : ∀ a, s.sessions[n]? = some a → (f a).Sound s.queue ∧
      ∀ id ∈ (f a).written, id ∈ a.written ∨ s.locked n id = false) : (s.onSession n f).Sound := by
  unfold Server.onSession
  split
  case h_2 => exact h
  case h_1 a found =>
    obtain ⟨sound, locks⟩ := keep a found
    have apart : ∀ {m : ℕ} {b : Session}, m ≠ n → s.sessions[m]? = some b →
        ∀ id ∈ (f a).written, id ∉ b.written := by
      intro m b ne hb id mem
      rcases locks id mem with mem | free
      · exact h.exclusive n m a b ne.symm found hb id mem
      · exact not_mem_of_unlocked free ne hb
    refine ⟨h.committed, fun m b hb => ?_, fun m m' b b' ne hb hb' id mem => ?_⟩
    · rcases of_getElem?_set hb with ⟨_, rfl⟩ | ⟨_, hb⟩
      · exact sound
      · exact h.sessions m b hb
    · rcases of_getElem?_set hb with ⟨rfl, rfl⟩ | ⟨ne₁, old⟩ <;>
        rcases of_getElem?_set hb' with ⟨rfl, rfl⟩ | ⟨ne₂, old'⟩
      · exact absurd rfl ne
      · exact apart ne₂ old' id mem
      · exact fun mem' => apart ne₁ old id mem' mem
      · exact h.exclusive m m' b b' ne old old' id mem

/-- What a session sees becomes what is committed. -/
lemma Sound.commit (h : s.Sound) {a : Session} (found : s.sessions[n]? = some a) :
    (⟨a.queue s.queue, s.sessions.set n .idle⟩ : Server).Sound := by
  have committed := (h.sessions n a found).released
  refine ⟨committed, fun m b hb => ?_, fun m m' b b' ne hb hb' id mem => ?_⟩
  · rcases of_getElem?_set hb with ⟨_, rfl⟩ | ⟨ne, hb⟩
    · exact Session.sound_idle committed
    · refine (h.sessions m b hb).of_view (fun id => ?_) fun id there => ?_
      · by_cases mem : id ∈ a.written
        · exact .inr ⟨h.exclusive n m a b ne.symm found hb id mem, committed id⟩
        · exact .inl (Update.view_foldl_of_not_mem mem)
      · rwa [Session.get?_queue_isSome]
  · rcases of_getElem?_set hb with ⟨_, rfl⟩ | ⟨_, hb⟩
    · exact absurd mem List.not_mem_nil
    · rcases of_getElem?_set hb' with ⟨_, rfl⟩ | ⟨_, hb'⟩
      · exact List.not_mem_nil
      · exact h.exclusive m m' b b' ne hb hb' id mem

/-- The insertion of a row is about its job only. -/
lemma view_add? {q queue : Queue} {row : InteractionJob} {id : UUID}
    (added : q.add? row = some queue) (ne : id ≠ row.id) : view queue id = view q id := by
  obtain ⟨rows, letters, history, _⟩ := Queue.add?_eq_some added
  have row_eq : queue.get? id = q.get? id := get?_congr fun row' e => by
    rw [rows, List.mem_append, List.mem_singleton]
    exact or_iff_left fun e' => ne (e.symm.trans (congrArg (fun r => r.id) e'))
  simp only [view, row_eq, letters, history]

lemma Sound.insert (h : s.Sound) {row : InteractionJob} {queue : Queue}
    (added : s.queue.add? row = some queue) : ({ s with queue := queue } : Server).Sound := by
  obtain ⟨rows, _, history, fresh⟩ := Queue.add?_eq_some added
  have other : ∀ id ≠ row.id, view queue id = view s.queue id := fun _ => view_add? added
  -- the job is new, so it has not been claimed since a release
  have born : (view queue row.id).Released row.id := by
    obtain ⟨separated, cleared⟩ := h.committed row.id
    simp only [view, fresh] at separated cleared
    simp only [view, history]
    exact ⟨separated, fun _ => cleared (by simp)⟩
  have committed : ∀ id, (view queue id).Released id := by
    intro id
    by_cases e : id = row.id
    · rw [e]
      exact born
    · rw [other id e]
      exact h.committed id
  refine ⟨committed, fun n a ha => (h.sessions n a ha).of_view (fun id => ?_) fun id there => ?_,
    h.exclusive⟩
  · by_cases e : id = row.id
    · refine .inr ⟨fun mem => ?_, committed id⟩
      have := (h.sessions n a ha).written id mem
      rw [e, fresh] at this
      cases this
    · exact .inl (other id e)
  · obtain ⟨old, found⟩ := Option.isSome_iff_exists.1 there
    obtain ⟨mem, e⟩ := Queue.get?_eq_some.1 found
    have mem : old ∈ queue.jobs.rows := by
      rw [rows]
      exact List.mem_append_left _ mem
    rw [Queue.get?_eq_some.2 ⟨mem, e⟩]
    rfl

theorem sound_step (request : Request) (h : s.Sound) : (s.step cfg request).Sound := by
  cases request with
  | insert row =>
    simp only [step]
    split
    · exact h.insert ‹_›
    · exact h
  | load n id =>
    refine h.onSession fun a found => ?_
    split
    case h_1 row there =>
      have e : row.id = id := (Queue.get?_eq_some.1 there).2
      exact ⟨(h.sessions n a found).load (e ▸ there), fun id mem => .inl (by simpa using mem)⟩
    case h_2 => exact ⟨h.sessions n a found, fun id mem => .inl mem⟩
  | loadStale n now =>
    refine h.onSession fun a found => ?_
    have there : ∀ row ∈ (a.queue s.queue).staleJobs cfg now, (a.queue s.queue).get? row.id = some row :=
      fun row mem => Queue.get?_of_mem (Queue.mem_staleJobs.1 mem).1
    have loaded := (h.sessions n a found).load_foldl there
    exact ⟨⟨loaded.written, loaded.objects, loaded.released, loaded.running⟩, fun id mem => .inl (by
      simpa [Session.written, Session.load_foldl_updates] using mem)⟩
  | write n id w =>
    refine h.onSession fun a found => ?_
    split
    case isTrue => exact ⟨h.sessions n a found, fun id mem => .inl mem⟩
    case isFalse free =>
      simp only [Bool.or_eq_true, Bool.and_eq_true, not_or, Bool.not_eq_true] at free
      refine ⟨(h.sessions n a found).write fun c => ?_, fun id' mem => ?_⟩
      · rw [free.1.1] at c
        cases c
      · rcases Session.mem_written_write mem with mem | rfl
        · exact .inl mem
        · exact .inr free.2
  | claim n workerId jobTypes limit now tie =>
    refine h.onSession fun a found => ?_
    have sound := h.sessions n a found
    split
    case isFalse => exact ⟨sound, fun id mem => .inl mem⟩
    case isTrue written =>
      have selected := fun row (mem : row ∈ (a.queue s.queue).readyJobs jobTypes limit
        ⟨now, s.locked n, tie⟩) => Queue.of_mem_readyJobs mem
      obtain ⟨sound', locks⟩ := sound.claim_foldl workerId now Queue.nodup_readyJobs
        (fun row mem => ⟨Queue.get?_of_mem (selected row mem).1, (selected row mem).2.2.1⟩)
        (fun row mem o mem' e running => by
          -- an object that runs has been written, so its row runs too, and is not ready
          have touched : o.id ∈ a.written := by
            simpa using List.all_eq_true.1 written o mem'
          have status := sound.running o mem' touched running row
            (e ▸ Queue.get?_of_mem (selected row mem).1)
          rcases (selected row mem).2.2.1 with ready | ready <;> simp [status] at ready)
      refine ⟨sound', fun id mem => ?_⟩
      rcases locks id mem with mem | mem
      · exact .inl mem
      · obtain ⟨row, row_mem, rfl⟩ := List.mem_map.1 mem
        exact .inr (selected row row_mem).2.2.2.2
  | commit n =>
    simp only [step]
    split
    · exact h.commit ‹_›
    · exact h
  | rollback n =>
    exact h.onSession fun a _ => ⟨Session.sound_idle h.committed, fun id mem =>
      absurd mem List.not_mem_nil⟩

end Server

/-! ### A claim by objects that are up to date -/

/-- Every object is as its row. -/
def Session.Fresh (q : Queue) (a : Session) : Prop :=
  ∀ o ∈ a.objects, (a.queue q).get? o.id = some o

/-- An object that is up to date writes what it says. -/
lemma column_self {α : Type} [DecidableEq α] {old new : α} : column old new old = new := by
  unfold column
  split
  · exact Eq.symm ‹_›
  · rfl

/-- The UPDATE of a claim, for an object that is as its row, is what the loop does to the row. -/
lemma flush_claim {job : InteractionJob} {workerId : String} {now : Time} :
    flush job (job.claim workerId now) job = job.claim workerId now := by
  have result : (flush job (job.claim workerId now) job).result = job.result := ite_self _
  simp only [flush, column_self] at result ⊢
  rw [result]
  rfl

/-- A claim by such an object is the claim of the queue. -/
lemma Update.apply_claim {q : Queue} {row : InteractionJob} {workerId : String} {now : Time}
    (found : q.get? row.id = some row) :
    Update.apply q ⟨row, .claim workerId now⟩ = q.claim workerId now row.id := by
  have jobs : (Update.apply q ⟨row, .claim workerId now⟩).jobs =
      (q.claim workerId now row.id).jobs := by
    refine Table.ext (List.map_congr_left fun row' mem => ?_)
    by_cases e : row'.id = row.id
    · have same : row' = row := Table.eq_of_key mem (Queue.get?_eq_some.1 found).1 e
      rw [same]
      simp only [Update.id, if_true, Write.on]
      exact flush_claim
    · exact (if_neg e).trans (if_neg e).symm
  have letters : q.deadLetterJobs ++ [] = q.deadLetterJobs := List.append_nil _
  exact congrArg₂ (fun jobs letters => (⟨jobs, letters, .claimed row.id :: q.history⟩ : Queue))
    jobs letters

namespace Session

variable {q : Queue} {a : Session} {row : InteractionJob} {workerId : String} {now : Time}

/-- A row that is loaded is the object that is found. -/
lemma Fresh.find?_load (h : a.Fresh q) (found : (a.queue q).get? row.id = some row) :
    (a.load row).objects.find? (·.id = row.id) = some row := by
  have unique : ∀ o ∈ (a.load row).objects, o.id = row.id → o = row := by
    intro o mem e
    rcases of_mem_load mem with mem | rfl
    · have := h o mem
      rw [e, found] at this
      exact (Option.some.inj this).symm
    · rfl
  have there : ∃ o ∈ (a.load row).objects, o.id = row.id := by
    unfold load
    split
    case isTrue any => simpa using any
    case isFalse => exact ⟨row, by simp, rfl⟩
  obtain ⟨o, mem, e⟩ := there
  obtain ⟨o', object⟩ := Option.isSome_iff_exists.1
    (List.find?_isSome.2 ⟨o, mem, decide_eq_true e⟩ :
      ((a.load row).objects.find? (·.id = row.id)).isSome)
  rw [object, unique o' (List.mem_of_find?_eq_some object) (by simpa using List.find?_some object)]

/-- The loop of a claim in a session whose objects are up to date, and one row of it. -/
lemma claim_of_fresh (h : a.Fresh q) (found : (a.queue q).get? row.id = some row)
    (idle : row.status ≠ .running) :
    (claim workerId now a row).queue q = (a.queue q).claim workerId now row.id ∧
      (claim workerId now a row).Fresh q := by
  have changed : dirty row (row.claim workerId now) = true := by
    simp [dirty, idle.symm]
  have sent : claim workerId now a row = { a.load row with
      objects := (a.load row).objects.map fun o =>
        if o.id = row.id then row.claim workerId now else o
      updates := (a.load row).updates ++ [⟨row, .claim workerId now⟩] } := by
    unfold Session.claim write
    rw [h.find?_load found]
    simp only [Write.on, changed, if_true]
  have queue_eq : (claim workerId now a row).queue q =
      (a.queue q).claim workerId now row.id := by
    rw [← Update.apply_claim found, sent]
    simp [queue]
  refine ⟨queue_eq, fun o mem => ?_⟩
  rw [queue_eq, Queue.claim, Queue.get?_updateJob]
  rw [sent] at mem
  obtain ⟨o', old, rfl⟩ := List.mem_map.1 mem
  by_cases e : o'.id = row.id
  · have same : (row.claim workerId now).id = row.id := rfl
    rw [if_pos e, same, if_pos rfl, found]
    rfl
  · rw [if_neg e, if_neg e]
    rcases of_mem_load old with old | rfl
    · exact h o' old
    · exact absurd rfl e

/-- Claims by objects that are up to date are those of the queue. -/
lemma claim_foldl_of_fresh {rows : List InteractionJob} (h : a.Fresh q)
    (nodup : (rows.map (·.id)).Nodup)
    (ready : ∀ row ∈ rows, (a.queue q).get? row.id = some row ∧ row.status ≠ .running) :
    (rows.foldl (claim workerId now) a).queue q =
      (rows.map (·.id)).foldl (Queue.claim workerId now) (a.queue q) := by
  induction rows generalizing a with
  | nil => rfl
  | cons row rows ih =>
    simp only [List.map_cons, List.nodup_cons] at nodup
    obtain ⟨found, idle⟩ := ready row List.mem_cons_self
    obtain ⟨queue_eq, fresh⟩ := claim_of_fresh h found idle
    rw [List.map_cons, List.foldl_cons, List.foldl_cons, ← queue_eq]
    refine ih fresh nodup.2 fun row' mem => ?_
    have ne : row'.id ≠ row.id := fun e => nodup.1 (List.mem_map.2 ⟨row', mem, e⟩)
    rw [queue_eq, Queue.claim, Queue.get?_updateJob, if_neg ne]
    exact ready row' (List.mem_cons_of_mem _ mem)

/-- A claim in a session whose objects are up to date is `claim_ready_jobs` on what it sees. -/
theorem claim_eq_claimReadyJobs {jobTypes : List JobType} {limit : ℕ} {query : ClaimQuery}
    (h : a.Fresh q) :
    (((a.queue q).readyJobs jobTypes limit query).foldl (claim workerId query.now) a).queue q =
      ((a.queue q).claimReadyJobs workerId jobTypes limit query).1 := by
  refine claim_foldl_of_fresh h Queue.nodup_readyJobs fun row mem => ?_
  obtain ⟨there, _, status, _⟩ := Queue.of_mem_readyJobs mem
  exact ⟨Queue.get?_of_mem there, by rcases status with status | status <;> simp [status]⟩

end Session

end PostCall.Machine
