import PostCall.Machine.Sessions

/-!
# Jobs that others hold

What the other transactions leave of a job between two statements of one. A transaction that has only
claimed a row has found it ready, as it is committed. So a running row changes only by a transaction
that releases or reports it, and while a session has updated a row, nobody changes it.
-/

namespace PostCall.Machine
open PostCall.Library PostCall.Python PostCall.Model

/-- A row that can be claimed. -/
def Claimable (q : Queue) (id : UUID) : Prop :=
  ∃ row, q.get? id = some row ∧ (row.status = .pending ∨ row.status = .deferred)

lemma Claimable.ready {q : Queue} {id : UUID} {row : InteractionJob} (h : Claimable q id)
    (found : q.get? id = some row) : row.status = .pending ∨ row.status = .deferred := by
  obtain ⟨row', found', ready⟩ := h
  rw [found] at found'
  cases found'
  exact ready

/-- A row that is running cannot be claimed. -/
lemma not_claimable_of_running {q : Queue} {id : UUID} {row : InteractionJob}
    (found : q.get? id = some row) (running : row.status = .running) : ¬ Claimable q id := fun h => by
  rcases h.ready found with ready | ready <;> cases running.symm.trans ready

namespace Session

variable {q q' : Queue} {a : Session} {row : InteractionJob} {id : UUID} {w : Write}

/-! ### What a session keeps -/

/-- Loading does not change the stale rows that a session has found. -/
@[simp] lemma load_stale : (a.load row).stale = a.stale := by
  unfold load
  split <;> rfl

@[simp] lemma write_stale : (a.write id w).stale = a.stale := by
  rcases a.write_cases id w with e | ⟨_, _, _, e⟩ <;> rw [e]

lemma mem_updates_write {u : Update} (h : u ∈ a.updates) : u ∈ (a.write id w).updates := by
  rcases a.write_cases id w with e | ⟨_, _, _, e⟩
  · rwa [e]
  · rw [e]
    exact List.mem_append_left _ h

lemma written_write {id' : UUID} (h : id ∈ a.written) : id ∈ (a.write id' w).written := by
  obtain ⟨u, mem, e⟩ := List.mem_map.1 h
  exact List.mem_map.2 ⟨u, mem_updates_write mem, e⟩

/-- A row that the session has locked now, it has locked by this operation. -/
lemma of_mem_written_write {id' : UUID} (h : id' ∈ (a.write id w).written) :
    id' ∈ a.written ∨ (id' = id ∧ ∃ u ∈ (a.write id w).updates, u.id = id ∧ u.write = w) := by
  rcases a.write_cases id w with e | ⟨object, _, rfl, e⟩
  · rw [e] at h
    exact .inl h
  · rw [e] at h ⊢
    rw [written, List.map_append, List.mem_append] at h
    exact h.imp_right fun h => ⟨List.mem_singleton.1 h, ⟨object, w⟩,
      List.mem_append_right _ List.mem_cons_self, rfl, rfl⟩

section

variable {rows : List InteractionJob} {workerId : String} {now : Time}

lemma claim_foldl_stale : (rows.foldl (claim workerId now) a).stale = a.stale := by
  induction rows generalizing a with
  | nil => rfl
  | cons row rows ih =>
    have first : (claim workerId now a row).stale = a.stale := by rw [claim, write_stale, load_stale]
    exact ih.trans first

lemma mem_updates_claim_foldl {u : Update} (h : u ∈ a.updates) :
    u ∈ (rows.foldl (claim workerId now) a).updates := by
  induction rows generalizing a with
  | nil => exact h
  | cons row rows ih =>
    refine ih (mem_updates_write ?_)
    rwa [load_updates]

lemma written_claim_foldl (h : id ∈ a.written) : id ∈ (rows.foldl (claim workerId now) a).written := by
  obtain ⟨u, mem, e⟩ := List.mem_map.1 h
  exact List.mem_map.2 ⟨u, mem_updates_claim_foldl mem, e⟩

/-- What is written after claims was so before, or was claimed. -/
lemma mem_written_claim_foldl (h : id ∈ (rows.foldl (claim workerId now) a).written) :
    id ∈ a.written ∨ id ∈ rows.map (·.id) := by
  induction rows generalizing a with
  | nil => exact .inl h
  | cons row rows ih =>
    rcases ih h with first | later
    · rcases mem_written_write first with old | rfl
      · exact .inl (by rwa [load_written] at old)
      · exact .inr List.mem_cons_self
    · exact .inr (List.mem_cons_of_mem _ later)

end

/-! ### What a session has loaded, and a write that changes the status -/

/-- An operation that changes the status of the object is sent. -/
lemma write_of_status {object : InteractionJob} (found : a.objects.find? (·.id = id) = some object)
    (changes : (w.on object).status ≠ object.status) :
    a.write id w = { a with
      objects := a.objects.map fun o => if o.id = id then w.on object else o
      updates := a.updates ++ [⟨object, w⟩] } := by
  have sent : dirty object (w.on object) = true := by simp [dirty, changes]
  simp only [write, found, sent, if_true]

/-- A row is locked by an operation that changes the status of each object of it. -/
lemma mem_written_of_status {object : InteractionJob} (mem : object ∈ a.objects)
    (changes : ∀ o ∈ a.objects, o.id = object.id → (w.on o).status ≠ o.status) :
    object.id ∈ (a.write object.id w).written := by
  obtain ⟨first, found⟩ : ∃ first, a.objects.find? (·.id = object.id) = some first :=
    Option.isSome_iff_exists.1 (List.find?_isSome.2 ⟨object, mem, by simp⟩)
  have same : first.id = object.id := by simpa using List.find?_some found
  rw [write_of_status found (changes first (List.mem_of_find?_eq_some found) same), written,
    List.map_append, ← same]
  exact List.mem_append_right _ List.mem_cons_self

lemma mem_objects_write {o : InteractionJob} (h : o ∈ a.objects) (ne : o.id ≠ id) :
    o ∈ (a.write id w).objects := by
  rcases a.write_cases id w with e | ⟨object, _, _, e⟩
  · rwa [e]
  · rw [e]
    exact List.mem_map.2 ⟨o, h, if_neg ne⟩

/-- A row is an object after its load. -/
lemma exists_mem_load : ∃ o ∈ (a.load row).objects, o.id = row.id := by
  unfold load
  split
  case isTrue there => simpa using there
  case isFalse => exact ⟨row, List.mem_append_right _ List.mem_cons_self, rfl⟩

lemma mem_load {o : InteractionJob} (h : o ∈ a.objects) : o ∈ (a.load row).objects := by
  unfold load
  split
  · exact h
  · exact List.mem_append_left _ h

section

variable {rows : List InteractionJob} {o : InteractionJob}

lemma mem_load_foldl (h : o ∈ a.objects) : o ∈ (rows.foldl load a).objects := by
  induction rows generalizing a with
  | nil => exact h
  | cons row rows ih => exact ih (mem_load h)

/-- An object after the loading is an older one, or a row. -/
lemma of_mem_load_foldl (h : o ∈ (rows.foldl load a).objects) : o ∈ a.objects ∨ o ∈ rows := by
  induction rows generalizing a with
  | nil => exact .inl h
  | cons row rows ih =>
    rcases ih h with h | h
    · rcases of_mem_load h with h | rfl
      · exact .inl h
      · exact .inr List.mem_cons_self
    · exact .inr (List.mem_cons_of_mem _ h)

/-- A row that is loaded has its object. -/
lemma exists_mem_load_foldl (h : row ∈ rows) : ∃ o ∈ (rows.foldl load a).objects, o.id = row.id := by
  induction rows generalizing a with
  | nil => cases h
  | cons first rows ih =>
    rcases List.mem_cons.1 h with rfl | h
    · obtain ⟨o, mem, e⟩ := @exists_mem_load a row
      rw [List.foldl_cons]
      exact ⟨o, mem_load_foldl mem, e⟩
    · exact ih h

/-- A session that has written all its objects locks every row that it claims. -/
lemma mem_written_of_claimed {workerId : String} {now : Time}
    (objects : ∀ o ∈ a.objects, o.id ∈ a.written) (ready : ∀ row ∈ rows, row.status ≠ .running)
    (h : row ∈ rows) : row.id ∈ (rows.foldl (claim workerId now) a).written := by
  induction rows generalizing a with
  | nil => cases h
  | cons first rows ih =>
    have locked : first.id ∈ (claim workerId now a first).written := by
      by_cases before : first.id ∈ a.written
      · exact written_write (by rwa [load_written])
      · -- no object of this row is there yet
        have absent : ∀ o ∈ a.objects, o.id ≠ first.id := fun o mem e => before (e ▸ objects o mem)
        obtain ⟨o, mem, e⟩ := @exists_mem_load a first
        rw [claim, ← e]
        refine mem_written_of_status mem fun o' mem' e' => ?_
        obtain rfl := (of_mem_load mem').resolve_left fun old => absent o' old (e'.trans e)
        exact (ready o' List.mem_cons_self).symm
    rw [List.foldl_cons]
    rcases List.mem_cons.1 h with rfl | h
    · exact written_claim_foldl locked
    · refine ih (fun o mem => ?_) (fun row mem => ready row (List.mem_cons_of_mem _ mem)) h
      by_cases e : o.id = first.id
      · rwa [e]
      · have old := (of_mem_load (mem_objects_write_of_ne mem e)).resolve_right fun e' =>
          e (congrArg (fun row => row.id) e')
        exact written_write (by rw [load_written]; exact objects o old)

end

/-! ### Rows that a session has only claimed -/

/-- The session has updated the row by claims only. -/
def OnlyClaims (a : Session) (id : UUID) : Prop :=
  id ∈ a.written ∧ ∀ u ∈ a.updates, u.id = id → u.write.isClaim

/-- A row that the session has only claimed can be claimed, as it is committed. -/
def Entitled (q : Queue) (a : Session) : Prop := ∀ id, a.OnlyClaims id → Claimable q id

lemma entitled_idle : idle.Entitled q := fun _ h => absurd h.1 List.not_mem_nil

lemma Entitled.of_updates {b : Session} (h : a.Entitled q) (same : b.updates = a.updates) :
    b.Entitled q := by
  intro id only
  unfold OnlyClaims written at only
  rw [same] at only
  exact h id only

/-- What others commit leaves the rows that the session has updated. -/
lemma Entitled.of_get? (h : a.Entitled q) (same : ∀ id ∈ a.written, q'.get? id = q.get? id) :
    a.Entitled q' := by
  intro id only
  unfold Claimable
  rw [same id only.1]
  exact h id only

/-- A row that the session has not updated is, to the session, as it is committed. -/
lemma get?_queue_of_not_mem (h : id ∉ a.written) : (a.queue q).get? id = q.get? id :=
  congrArg JobView.row (Update.view_foldl_of_not_mem h)

/-- A write keeps a session entitled, if a claim finds its row claimable. -/
lemma Entitled.write (h : a.Entitled q)
    (ready : w.isClaim → id ∉ a.written → Claimable q id) : (a.write id w).Entitled q := by
  rcases a.write_cases id w with e | ⟨object, _, rfl, e⟩
  · rwa [e]
  rintro id' ⟨touched, claims⟩
  rw [e] at claims
  have old : ∀ u ∈ a.updates, u.id = id' → u.write.isClaim := fun u mem =>
    claims u (List.mem_append_left _ mem)
  by_cases before : id' ∈ a.written
  · exact h id' ⟨before, old⟩
  · -- the update is the first one of this row
    obtain rfl : id' = object.id := (mem_written_write touched).resolve_left before
    have claim := claims ⟨object, w⟩ (List.mem_append_right _ List.mem_cons_self) rfl
    exact ready claim before

lemma Entitled.claim_foldl {rows : List InteractionJob} (h : a.Entitled q) (workerId : String)
    (now : Time) (ready : ∀ row ∈ rows, row.id ∉ a.written → Claimable q row.id) :
    (rows.foldl (claim workerId now) a).Entitled q := by
  induction rows generalizing a with
  | nil => exact h
  | cons row rows ih =>
    have first : (claim workerId now a row).Entitled q := by
      refine (h.of_updates load_updates).write fun _ untouched => ?_
      rw [load_written] at untouched
      exact ready row List.mem_cons_self untouched
    refine ih first fun row' mem untouched => ready row' (List.mem_cons_of_mem _ mem) fun old => ?_
    exact untouched (written_write (by rwa [load_written]))

end Session

namespace Server

variable {cfg : Settings} {s : Server} {n m : ℕ} {id : UUID}

/-- Every session is entitled to its claims. -/
def Entitled (s : Server) : Prop :=
  ∀ (n : ℕ) (a : Session), s.sessions[n]? = some a → a.Entitled s.queue

lemma entitled_start (jobs : JobTable) (connections : ℕ) : (start jobs connections).Entitled := by
  intro n a h
  simp only [start, List.getElem?_replicate] at h
  split at h
  · cases h
    exact Session.entitled_idle
  · cases h

/-- One session changes, and what is committed does not. -/
lemma Entitled.onSession {f : Session → Session} (h : s.Entitled)
    (keep : ∀ a, s.sessions[n]? = some a → (f a).Entitled s.queue) : (s.onSession n f).Entitled := by
  unfold Server.onSession
  split
  case h_2 => exact h
  case h_1 a found =>
    intro m b hb
    rcases of_getElem?_set hb with ⟨_, rfl⟩ | ⟨_, old⟩
    · exact keep a found
    · exact h m b old

/-- A commit leaves a row that the session has not updated. -/
lemma view_commit {a : Session} (h : id ∉ a.written) : view (a.queue s.queue) id = view s.queue id :=
  Update.view_foldl_of_not_mem h

/-- An insert leaves the rows that are there. -/
lemma view_insert {row : InteractionJob} {queue : Queue} (added : s.queue.add? row = some queue)
    (there : (s.queue.get? id).isSome) : view queue id = view s.queue id := by
  obtain ⟨_, _, _, fresh⟩ := Queue.add?_eq_some added
  refine view_add? added fun e => ?_
  rw [e, fresh] at there
  cases there

theorem entitled_step (request : Request) (sound : s.Sound) (h : s.Entitled) :
    (s.step cfg request).Entitled := by
  cases request with
  | insert row =>
    simp only [step]
    split
    case h_2 => exact h
    case h_1 added =>
      exact fun n a found => (h n a found).of_get? fun id mem =>
        congrArg JobView.row (view_insert added ((sound.sessions n a found).written id mem))
  | load n id =>
    refine h.onSession fun a found => ?_
    split
    · exact (h n a found).of_updates Session.load_updates
    · exact h n a found
  | loadStale n now =>
    exact h.onSession fun a found => (h n a found).of_updates Session.load_foldl_updates
  | write n id w =>
    refine h.onSession fun a found => ?_
    split
    case isTrue => exact h n a found
    case isFalse free =>
      simp only [Bool.or_eq_true, Bool.and_eq_true, not_or, Bool.not_eq_true] at free
      refine (h n a found).write fun claims => ?_
      rw [free.1.1] at claims
      cases claims
  | claim n workerId jobTypes limit now tie =>
    refine h.onSession fun a found => ?_
    split
    case isFalse => exact h n a found
    case isTrue =>
      refine (h n a found).claim_foldl workerId now fun row mem untouched => ?_
      have selected := Queue.of_mem_readyJobs mem
      have there := Queue.get?_of_mem selected.1
      rw [Session.get?_queue_of_not_mem untouched] at there
      exact ⟨row, there, selected.2.2.1⟩
  | commit n =>
    simp only [step]
    split
    case h_2 => exact h
    case h_1 a found =>
      intro m b hb
      rcases of_getElem?_set hb with ⟨_, rfl⟩ | ⟨ne, old⟩
      · exact Session.entitled_idle
      · refine (h m b old).of_get? fun id mem => ?_
        exact Session.get?_queue_of_not_mem (sound.exclusive m n b a ne old found id mem)
  | rollback n => exact h.onSession fun _ _ => Session.entitled_idle

end Server

end PostCall.Machine
