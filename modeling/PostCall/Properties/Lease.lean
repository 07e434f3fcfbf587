import PostCall.Library.Position
import PostCall.Machine.Shift
import PostCall.Properties.Admission

/-!
# Leases

All jobs of a batch are locked at the time of its claim, and nothing renews the lock while the worker
goes through them. The locks hold as long as the calls of a whole batch, and what the worker does before
and after each of them, are together not longer than the lock timeout: then no recovery finds a job of a
batch that is being worked on, and a job is in the hands of one worker at a time.
-/

namespace PostCall.Properties
open PostCall.Library PostCall.Python PostCall.Model PostCall.Machine

variable {cfg : Settings} {text : Text} {fromisoformat : String → Except PyError Time}
  {s s' : Shift} {c p limit n : ℕ}

/-- No two workers hold an unfinished snapshot of the same job. -/
def Exclusive (s : Fleet) : Prop :=
  ∀ (n m : ℕ) (worker worker' : LlmWorker), s.workers[n]? = some worker →
    s.workers[m]? = some worker' → ∀ snapshot ∈ worker.held, ∀ snapshot' ∈ worker'.held,
    snapshot.id = snapshot'.id → n = m

/-- By the time, no call with the report of its outcome has taken longer than `c` and `p`, and no way of
a worker with jobs left to its next call longer than `p`. -/
def Hurries (c p : ℕ) (s : Shift) (t : Time) : Prop :=
  ∀ n < s.fleet.workers.length, ∀ worker ∈ s.fleet.workers[n]?,
    (worker.calling.isSome → t ≤ s.since n + c + p) ∧
    (worker.calling.isNone → worker.pending.isEmpty ∨ t ≤ s.since n + p)

/-- Nobody crashes, every batch is claimed by a worker that has none, within the limit, every call takes
at most `c`, and what a worker does on either side of it at most `p`. What reads the clock reads no time
that is still to come. -/
def Punctual (cfg : Settings) (text : Text) (c p limit : ℕ) (s : Shift) : ShiftAction → Prop
  | .wait t => s.now ≤ t ∧ Hurries c p s t
  | .act (.claim n _ limit' recovery query _) => limit' ≤ limit ∧ recovery.now ≤ s.now ∧
      (query.now ≤ s.now ∧ s.now ≤ query.now + p) ∧
      ∀ worker ∈ s.fleet.workers[n]?, worker.held.isEmpty
  | .act (.start n _) => ∀ worker ∈ s.fleet.workers[n]?, worker.next?.isSome
  | .act (.finish n ..) => ∀ worker ∈ s.fleet.workers[n]?, worker.calling.isSome
  | .act (.crash _) => False
  | .act (.elsewhere db) => Elsewhere cfg text s.now s.fleet.db db

/-- The calls that a worker has still to make end in time. -/
structure OnTime (c p limit : ℕ) (s : Shift) (n : ℕ) (worker : LlmWorker) : Prop where
  calling : worker.calling.isSome → s.now ≤ s.since n + c + p ∧
    s.since n + c + p + worker.pending.length * (c + 2 * p) ≤
      s.claimedAt n + limit * (c + 2 * p)
  between : worker.calling.isNone → worker.pending ≠ [] → s.now ≤ s.since n + p ∧
    s.since n + worker.pending.length * (c + 2 * p) ≤ s.claimedAt n + limit * (c + 2 * p)

/-- Every unfinished snapshot has its row, locked by its claim, and is in one hand. -/
structure Leased (c p limit : ℕ) (s : Shift) : Prop where
  onTime : ∀ (n : ℕ) (worker : LlmWorker), s.fleet.workers[n]? = some worker →
    OnTime c p limit s n worker
  rows : ∀ (n : ℕ) (worker : LlmWorker), s.fleet.workers[n]? = some worker →
    ∀ snapshot ∈ worker.held, ∃ job, Running s.fleet.db snapshot (s.claimedAt n) job
  nodup : ∀ (n : ℕ) (worker : LlmWorker), s.fleet.workers[n]? = some worker →
    (worker.held.map (·.id)).Nodup
  exclusive : Exclusive s.fleet

/-- A worker that has something to do is within the limit of its batch. -/
lemma OnTime.le {worker : LlmWorker} (h : OnTime c p limit s n worker) {snapshot : ClaimedLLMJob}
    (mem : snapshot ∈ worker.held) : s.now ≤ s.claimedAt n + limit * (c + 2 * p) := by
  have positive : (0 : ℤ) ≤ worker.pending.length * (c + 2 * p) := by positivity
  cases calling : worker.calling with
  | some other =>
    obtain ⟨sofar, later⟩ := h.calling (by rw [calling]; rfl)
    linarith
  | none =>
    obtain busy | ⟨next, pending, _⟩ := LlmWorker.mem_held.1 mem
    · rw [calling] at busy
      cases busy
    · obtain ⟨sofar, later⟩ := h.between (by rw [calling]; rfl) (List.ne_nil_of_mem pending)
      have last : (p : ℤ) ≤ worker.pending.length * (c + 2 * p) := by
        have some : 1 ≤ worker.pending.length := List.length_pos_of_mem pending
        nlinarith
      linarith

namespace Leased

lemma init {db : Db} {workers : ℕ} : Leased c p limit (.init db workers) := by
  have idle : ∀ (n : ℕ) (worker : LlmWorker),
      (Shift.init db workers).fleet.workers[n]? = some worker → worker = .idle := by
    intro n worker found
    simp only [Shift.init, Fleet.init, List.getElem?_replicate] at found
    split at found
    · exact (Option.some.inj found).symm
    · cases found
  refine ⟨fun n worker found => ?_, fun n worker found snapshot mem => ?_,
    fun n worker found => ?_, fun n m worker worker' found _ snapshot mem => ?_⟩
  · rw [idle n worker found]
    exact ⟨(fun busy => by cases busy), fun _ pending => absurd rfl pending⟩
  · rw [idle n worker found] at mem
    cases mem
  · rw [idle n worker found]
    exact .nil
  · rw [idle n worker found] at mem
    cases mem

/-- One worker goes on, and the database changes: what it holds then is as it should be, and the jobs
of the others have been left alone. -/
lemma set (h : Leased c p limit s) {worker : LlmWorker}
    (workers : s'.fleet.workers = s.fleet.workers.set n worker) (now : s'.now = s.now)
    (claimedAt : ∀ m ≠ n, s'.claimedAt m = s.claimedAt m)
    (since : ∀ m ≠ n, s'.since m = s.since m)
    (kept : ∀ m ≠ n, ∀ other, s.fleet.workers[m]? = some other → ∀ snapshot ∈ other.held, ∀ job,
      Running s.fleet.db snapshot (s.claimedAt m) job →
      Running s'.fleet.db snapshot (s.claimedAt m) job)
    (onTime : OnTime c p limit s' n worker)
    (rows : ∀ snapshot ∈ worker.held, ∃ job, Running s'.fleet.db snapshot (s'.claimedAt n) job)
    (nodup : (worker.held.map (·.id)).Nodup)
    (apart : ∀ m ≠ n, ∀ other, s.fleet.workers[m]? = some other → ∀ snapshot ∈ other.held,
      ∀ snapshot' ∈ worker.held, snapshot.id ≠ snapshot'.id) : Leased c p limit s' := by
  refine ⟨fun m w found => ?_, fun m w found => ?_, fun m w found => ?_,
    fun m m' w w' found found' snapshot mem snapshot' mem' same => ?_⟩
  · rw [workers] at found
    rcases of_getElem?_set found with ⟨rfl, rfl⟩ | ⟨ne, old⟩
    · exact onTime
    · obtain ⟨calling, between⟩ := h.onTime m w old
      rw [← now, ← claimedAt m ne, ← since m ne] at calling between
      exact ⟨calling, between⟩
  · rw [workers] at found
    rcases of_getElem?_set found with ⟨rfl, rfl⟩ | ⟨ne, old⟩
    · exact rows
    · intro snapshot mem
      obtain ⟨job, row⟩ := h.rows m w old snapshot mem
      rw [claimedAt m ne]
      exact ⟨job, kept m ne w old snapshot mem job row⟩
  · rw [workers] at found
    rcases of_getElem?_set found with ⟨rfl, rfl⟩ | ⟨_, old⟩
    · exact nodup
    · exact h.nodup m w old
  · rw [workers] at found found'
    rcases of_getElem?_set found with ⟨rfl, rfl⟩ | ⟨ne, old⟩ <;>
      rcases of_getElem?_set found' with ⟨rfl, rfl⟩ | ⟨ne', old'⟩
    · rfl
    · exact absurd same.symm (apart m' ne' w' old' snapshot' mem' snapshot mem)
    · exact absurd same (apart m ne w old snapshot mem snapshot' mem')
    · exact h.exclusive m m' w w' old old' snapshot mem snapshot' mem' same

/-- Nothing happens to the fleet, and nothing is told of a worker that holds something. -/
lemma same (h : Leased c p limit s) (fleet : s'.fleet = s.fleet) (now : s'.now = s.now)
    (told : ∀ (m : ℕ) (worker : LlmWorker), s.fleet.workers[m]? = some worker → worker.held = [] ∨
      (s'.claimedAt m = s.claimedAt m ∧ s'.since m = s.since m)) : Leased c p limit s' := by
  refine ⟨fun m worker found => ?_, fun m worker found snapshot mem => ?_,
    fun m worker found => h.nodup m worker (fleet ▸ found), fleet ▸ h.exclusive⟩
  · rw [fleet] at found
    obtain ⟨calling, between⟩ := h.onTime m worker found
    rcases told m worker found with nothing | ⟨claimedAt, since⟩
    · have idle : worker.calling = none ∧ worker.pending = [] := by
        simpa [LlmWorker.held, Option.toList_eq_nil_iff] using nothing
      exact ⟨fun busy => by simp [idle.1] at busy, fun _ pending => absurd idle.2 pending⟩
    · rw [← now, ← claimedAt, ← since] at calling between
      exact ⟨calling, between⟩
  · rw [fleet] at found ⊢
    rcases told m worker found with nothing | ⟨claimedAt, _⟩
    · rw [nothing] at mem
      cases mem
    · rw [claimedAt]
      exact h.rows m worker found snapshot mem

/-- No lock of an unfinished snapshot has timed out. -/
lemma onTime_of_mem (h : Leased c p limit s)
    (short : limit * (c + 2 * p : ℤ) ≤ seconds cfg.jobLockTimeoutSeconds) {worker : LlmWorker}
    (found : s.fleet.workers[n]? = some worker) {snapshot : ClaimedLLMJob}
    (mem : snapshot ∈ worker.held) :
    s.now ≤ s.claimedAt n + seconds cfg.jobLockTimeoutSeconds := by
  have sofar := (h.onTime n worker found).le mem
  linarith

section Steps

variable (h : Leased c p limit s) (short : limit * (c + 2 * p : ℤ) ≤ seconds cfg.jobLockTimeoutSeconds)

include h

lemma wait {t : Time} (hurries : Hurries c p s t) : Leased c p limit { s with now := t } := by
  refine ⟨fun n worker found => ?_, h.rows, h.nodup, h.exclusive⟩
  obtain ⟨bound, _⟩ := List.getElem?_eq_some_iff.1 found
  obtain ⟨calling, between⟩ := hurries n bound worker found
  refine ⟨fun busy => ⟨calling busy, ((h.onTime n worker found).calling busy).2⟩,
    fun free pending => ⟨?_, ((h.onTime n worker found).between free pending).2⟩⟩
  rcases between free with done | soon
  · exact absurd (List.isEmpty_iff.1 done) pending
  · exact soon

include short

lemma elsewhere {db : Db} (other : Elsewhere cfg text s.now s.fleet.db db) :
    Leased c p limit (s.step cfg text fromisoformat (.act (.elsewhere db))) := by
  refine ⟨fun n worker found => ?_, fun n worker found snapshot mem => ?_, h.nodup, h.exclusive⟩
  · obtain ⟨calling, between⟩ := h.onTime n worker found
    exact ⟨calling, between⟩
  obtain ⟨job, row⟩ := h.rows n worker found snapshot mem
  obtain ⟨mem', of, running, lockedAt⟩ := row.elsewhere (h.onTime_of_mem short found mem) other
  exact ⟨job, mem', of, running, lockedAt⟩

/-- A batch that is claimed is of jobs that nobody has in hand. -/
lemma claim {workerId : String} {limit' : ℕ} {recovery : RecoveryClock} {query : ClaimQuery}
    {clock : UUID → Clock}
    (punctual : Punctual cfg text c p limit s (.act (.claim n workerId limit' recovery query clock))) :
    Leased c p limit (s.step cfg text fromisoformat
      (.act (.claim n workerId limit' recovery query clock))) := by
  obtain ⟨few, recovers, queries, free⟩ := punctual
  have unchanged : ∀ {f : Fleet}, f = s.fleet →
      Leased c p limit { s with
        fleet := f
        claimedAt := Function.update s.claimedAt n query.now
        since := Function.update s.since n query.now } := by
    rintro f rfl
    refine h.same rfl rfl fun m worker found => ?_
    by_cases e : m = n
    · subst e
      exact .inl (List.isEmpty_iff.1 (free worker found))
    · exact .inr ⟨Function.update_of_ne e _ _, Function.update_of_ne e _ _⟩
  simp only [Shift.step, Fleet.step, Fleet.claim]
  split
  case h_2 => exact unchanged rfl
  case h_1 idle =>
  split
  case h_2 => exact unchanged rfl
  case h_1 admitted db committed =>
  have ran := commit_eq_some.1 committed
  rw [claimAdmittedJobs_run] at ran
  obtain ⟨jobs, sub, rfl, kept⟩ := admitJobs_ok nodup_claimedJobs running_of_claimedJobs ran
  have few : jobs.length ≤ limit := by
    refine sub.length_le.trans (le_trans (le_of_eq (List.length_map _)) ?_)
    exact (length_select.trans_le (min_le_left _ _)).trans few
  have claimed : ∀ snapshot ∈ LlmWorker.held ⟨Fleet.reservations clock
      (jobs.map LLMWorkerService.snapshot), none⟩, ∃ job ∈ jobs,
      LLMWorkerService.snapshot job = snapshot := by
    intro snapshot mem
    rw [LlmWorker.held_reservations] at mem
    exact List.mem_map.1 mem
  refine h.set rfl rfl (fun m ne => Function.update_of_ne ne _ _)
    (fun m ne => Function.update_of_ne ne _ _)
    (fun m ne other found snapshot mem job row => ?_) ⟨(fun busy => by cases busy), fun _ _ => ?_⟩
    (fun snapshot mem => ?_) ?_ fun m ne other found snapshot mem snapshot' mem' same => ?_
  · exact row.claim (recovers.trans (h.onTime_of_mem short found mem)) committed
  · simp only [Fleet.reservations, List.length_map, Function.update_self]
    have fits : (jobs.length : ℤ) * (c + 2 * p) ≤ limit * (c + 2 * p) := by gcongr
    exact ⟨queries.2, by linarith⟩
  · obtain ⟨job, hj, rfl⟩ := claimed snapshot mem
    obtain ⟨_, _, e, type⟩ := of_mem_claimedJobs (sub.subset hj)
    refine ⟨job, kept job hj, .analysis rfl ?_, ?_, ?_⟩
    · rw [e]
      exact List.mem_singleton.1 type
    · rw [e]
      rfl
    · simp only [Function.update_self, e]
      rfl
  · rw [LlmWorker.held_reservations, List.map_map]
    exact nodup_claimedJobs.sublist (sub.map _)
  · -- the row of the other worker's job is running, and its lock has not timed out
    obtain ⟨job, hj, rfl⟩ := claimed snapshot' mem'
    obtain ⟨row, running⟩ := h.rows m other found snapshot mem
    obtain ⟨row', there, identity, available⟩ := claimable (sub.subset hj)
    obtain rfl : row' = row := Table.eq_of_key there running.mem
      ((congrArg JobIdentity.id identity).trans (same.symm.trans running.id))
    rcases available with idle | stale
    · exact idle running.running
    · exact running.not_stale (recovers.trans (h.onTime_of_mem short found mem)) stale

omit short in
/-- A worker that starts a call holds what it has held. -/
lemma start {now : Time} (punctual : Punctual cfg text c p limit s (.act (.start n now))) :
    Leased c p limit (s.step cfg text fromisoformat (.act (.start n now))) := by
  have elsewhere : ∀ m ≠ n, Function.update s.since n s.now m = s.since m := fun m ne =>
    Function.update_of_ne ne _ _
  simp only [Shift.step, Fleet.step, Fleet.start]
  split
  case h_2 other =>
    -- nobody has the number
    refine h.same rfl rfl fun m worker found => .inr ⟨rfl, elsewhere m ?_⟩
    rintro rfl
    obtain ⟨pending, calling⟩ := worker
    cases pending with
    | nil => cases punctual _ found
    | cons first rest =>
      cases calling with
      | none => exact other _ _ found
      | some _ => cases punctual _ found
  case h_1 first rest found =>
  obtain ⟨soon, between⟩ := (h.onTime n _ found).between rfl (List.cons_ne_nil _ _)
  have nodup := h.nodup n _ found
  have mem : ∀ snapshot, snapshot ∈ LlmWorker.held ⟨rest, some first.snapshot⟩ →
      snapshot ∈ LlmWorker.held ⟨first :: rest, none⟩ := by
    intro snapshot mem
    simpa [LlmWorker.held] using mem
  split
  case h_2 =>
    refine h.set rfl rfl (fun _ _ => rfl) elsewhere (fun _ _ _ _ _ _ _ row => row)
      ⟨(fun busy => by cases busy), fun _ pending => absurd rfl pending⟩ (fun _ mem => by cases mem) .nil
      fun _ _ _ _ _ _ _ mem => by cases mem
  case h_1 =>
    refine h.set rfl rfl (fun _ _ => rfl) elsewhere (fun _ _ _ _ _ _ _ row => row)
      ⟨fun _ => ?_, fun idle => by cases idle⟩
      (fun snapshot hs => h.rows n _ found snapshot (mem snapshot hs)) ?_
      fun m ne other found' snapshot hs snapshot' hs' same =>
        ne (h.exclusive m n other _ found' found snapshot hs snapshot' (mem snapshot' hs') same)
    · simp only [Function.update_self]
      simp only [List.length_cons, Nat.cast_add, Nat.cast_one] at between
      exact ⟨by linarith [Int.natCast_nonneg c, Int.natCast_nonneg p], by linarith⟩
    · simpa [LlmWorker.held] using nodup

omit short in
/-- A job that is done is in nobody's hands. -/
lemma finish {outcome : ProviderOutcome} {births : ChildSlot → Birth} {clock : Clock}
    (punctual : Punctual cfg text c p limit s (.act (.finish n outcome births clock))) :
    Leased c p limit (s.step cfg text fromisoformat (.act (.finish n outcome births clock))) := by
  have elsewhere : ∀ m ≠ n, Function.update s.since n s.now m = s.since m := fun m ne =>
    Function.update_of_ne ne _ _
  simp only [Shift.step, Fleet.step, Fleet.finish]
  split
  case h_2 other =>
    -- nobody has the number
    refine h.same rfl rfl fun m worker found => .inr ⟨rfl, elsewhere m ?_⟩
    rintro rfl
    obtain ⟨pending, calling⟩ := worker
    cases calling with
    | none => cases punctual _ found
    | some _ => exact other _ _ found
  case h_1 pending snapshot found =>
  have held : snapshot ∈ LlmWorker.held ⟨pending, some snapshot⟩ := List.mem_cons_self
  obtain ⟨sofar, later⟩ := (h.onTime n _ found).calling rfl
  obtain ⟨job, row⟩ := h.rows n _ found snapshot held
  have nodup := h.nodup n _ found
  simp only [LlmWorker.held, Option.toList_some, List.singleton_append, List.map_cons,
    List.nodup_cons] at nodup
  split
  case h_2 =>
    refine h.set rfl rfl (fun _ _ => rfl) elsewhere (fun _ _ _ _ _ _ _ row => row)
      ⟨(fun busy => by cases busy), fun _ pending => absurd rfl pending⟩ (fun _ mem => by cases mem) .nil
      fun _ _ _ _ _ _ _ mem => by cases mem
  case h_1 db ended =>
  have mem : ∀ other ∈ LlmWorker.held ⟨pending, none⟩,
      other ∈ LlmWorker.held ⟨pending, some snapshot⟩ := fun other hs => List.mem_cons_of_mem _ hs
  refine h.set rfl rfl (fun _ _ => rfl) elsewhere
    (fun m ne other found' s' hs job' row' => ?_) ⟨(fun busy => by cases busy), fun _ _ => ?_⟩
    (fun s' hs => ?_) nodup.2
    fun m ne other found' s' hs s'' hs' same =>
      ne (h.exclusive m n other _ found' found s' hs s'' (mem s'' hs') same)
  · refine row'.finish row.mem row.of (fun same => ne ?_) ended
    exact (h.exclusive n m _ other found found' snapshot held s' hs same).symm
  · simp only [Function.update_self]
    exact ⟨by linarith [Int.natCast_nonneg p], by linarith⟩
  · obtain ⟨job', row'⟩ := h.rows n _ found s' (mem s' hs)
    refine ⟨job', row'.finish row.mem row.of (fun same => nodup.1 ?_) ended⟩
    rw [same]
    exact List.mem_map_of_mem hs

end Steps

/-- Every step of punctual workers keeps the locks, if a batch is within the lock timeout. -/
lemma step (h : Leased c p limit s) (short : limit * (c + 2 * p : ℤ) ≤ seconds cfg.jobLockTimeoutSeconds)
    {a : ShiftAction} (punctual : Punctual cfg text c p limit s a) :
    Leased c p limit (s.step cfg text fromisoformat a) := by
  cases a with
  | wait t => exact h.wait punctual.2
  | act a =>
    cases a with
    | claim => exact h.claim short punctual
    | start => exact h.start punctual
    | finish => exact h.finish punctual
    | crash => exact punctual.elim
    | elsewhere => exact h.elsewhere short punctual

end Leased

/-- As long as the calls of a whole batch, with what the worker does on either side of each, are together
within the lock timeout, at every moment at most one worker holds an unfinished snapshot of a job, in
every run of any number of workers in which none crashes, no call takes longer than `c`, and nothing
else that a worker does longer than `p`. -/
theorem lease_kept (short : limit * (c + 2 * p : ℤ) ≤ seconds cfg.jobLockTimeoutSeconds) {db : Db}
    {workers : ℕ} {as : List ShiftAction}
    (run : Run (Shift.step cfg text fromisoformat) (Punctual cfg text c p limit) (.init db workers) as
      s) : Exclusive s.fleet :=
  (@Run.invariant _ _ _ _ _ _ _ (Leased c p limit) run .init
    fun _ _ h punctual => h.step short punctual).exclusive

noncomputable instance {a : ShiftAction} : Decidable (Punctual cfg text c p limit s a) := match a with
  | .wait t => inferInstanceAs (Decidable (s.now ≤ t ∧ ∀ n < s.fleet.workers.length,
      ∀ worker ∈ s.fleet.workers[n]?, (worker.calling.isSome → t ≤ s.since n + c + p) ∧
        (worker.calling.isNone → worker.pending.isEmpty ∨ t ≤ s.since n + p)))
  | .act (.claim n _ limit' recovery query _) => inferInstanceAs (Decidable (limit' ≤ limit ∧
      recovery.now ≤ s.now ∧ (query.now ≤ s.now ∧ s.now ≤ query.now + p) ∧
        ∀ worker ∈ s.fleet.workers[n]?, worker.held.isEmpty))
  | .act (.start n _) => inferInstanceAs (Decidable (∀ worker ∈ s.fleet.workers[n]?,
      worker.next?.isSome))
  | .act (.finish n ..) => inferInstanceAs (Decidable (∀ worker ∈ s.fleet.workers[n]?,
      worker.calling.isSome))
  | .act (.crash _) => instDecidableFalse
  | .act (.elsewhere _) => Classical.propDecidable _

/-- Two interactions have an analysis each. -/
def bothQueued : Db :=
  let rows := [1, 2].map fun n => { NewJob.plain n .llmAnalysis with interactionId := n }
  { (World.ofInteraction .plain).db with
    interactions := ⟨[1, 2].map fun n => { Interaction.plain with id := n }, by decide +kernel,
      by decide +kernel⟩
    queue := (Queue.empty.addAll? (rows.map (·.row settings))).getD .empty }

/-- A worker claims both, and needs so long for each call, and for anything else; a second worker looks
for work while the second call goes on. -/
def longBatch (call rest late : Time) : List ShiftAction := [
  .wait rest,
  .act (.claim 0 "first" 2 (.at 0) (.at 0) fun _ _ => 0),
  .act (.start 0 rest),
  .wait (rest + call + rest),
  .act (.finish 0 (.returns [("usage", .dict [("total_tokens", .int 1500)])]) Birth.plain
    fun _ => rest + call),
  .wait (rest + call + rest + rest),
  .act (.start 0 (rest + call + rest + rest)),
  .wait late,
  .act (.claim 1 "second" 2 (.at late) (.at late) fun _ _ => late)]

def shiftAfter (as : List ShiftAction) : Shift :=
  as.foldl (Shift.step settings .plain fun _ => .ok 0) (.init bothQueued 2)

/-- The jobs that each worker holds. -/
def hands (s : Shift) : List (List UUID) := s.fleet.workers.map fun worker => worker.held.map (·.id)

theorem lease_kept_plain :
    hands (shiftAfter (longBatch (seconds 140) (seconds 5) (seconds 300))) = [[2], []] ∧
    Exclusive (shiftAfter (longBatch (seconds 140) (seconds 5) (seconds 300))).fleet :=
  ⟨by decide +kernel, @lease_kept settings .plain (fun _ => .ok 0) _ 140000000 5000000 2
    (by decide +kernel) bothQueued 2 _ (Run.of_checked (by decide +kernel))⟩

/-- The lock of the second job times out during its call. -/
theorem not_exclusive : ¬ ∀ (c limit : ℕ) (db : Db) (workers : ℕ) (as : List ShiftAction) (s : Shift),
    (c : ℤ) < seconds settings.jobLockTimeoutSeconds →
    Run (Shift.step settings .plain fun _ => .ok 0) (Punctual settings .plain c 0 limit)
      (.init db workers) as s → Exclusive s.fleet := by
  intro exclusive
  have run := exclusive 200000000 2 bothQueued 2 (longBatch (seconds 200) 0 (seconds 301)) _
    (by decide +kernel) (Run.of_checked (by decide +kernel))
  have holds : ∀ n < 2, ((shiftAfter (longBatch (seconds 200) 0 (seconds 301))).fleet.workers[n]?).map
      (fun worker => worker.held.map (·.id)) = some [2] := by decide +kernel
  obtain ⟨first, found, ids⟩ := Option.map_eq_some_iff.1 (holds 0 (by decide))
  obtain ⟨second, found', ids'⟩ := Option.map_eq_some_iff.1 (holds 1 (by decide))
  obtain ⟨snapshot, mem, id⟩ := List.mem_map.1 (ids ▸ List.mem_singleton_self (2 : UUID))
  obtain ⟨snapshot', mem', id'⟩ := List.mem_map.1 (ids' ▸ List.mem_singleton_self (2 : UUID))
  cases run 0 1 first second found found' snapshot mem snapshot' mem' (id.trans id'.symm)

end PostCall.Properties
