import PostCall.Library.Position
import PostCall.Machine.Fence

/-!
# Superseded claims

The executions of a job in flight carry the number of their claim. For a result job the numbers are
different, and none is above the number of its claims: only a claim begins an execution, of a job that
it counts as claimed once more.
-/

namespace PostCall.Machine
open PostCall.Library PostCall.Python PostCall.Model

variable {cfg : Settings} {text : Text} {w : World} {a : Action} {id : UUID}

/-- The number of its claim, for an execution of the job. -/
def claimOf (id : UUID) (f : InFlight) : Option ℕ := if f.jobId = id then some f.claim else none

/-- The claims under which executions of a job are in flight. -/
def claimsOf (w : World) (id : UUID) : List ℕ := w.inflight.filterMap (claimOf id)

/-- The claim of an execution is one of its job. -/
lemma mem_claimsOf {f : InFlight} (hf : f ∈ w.inflight) : f.claim ∈ claimsOf w f.jobId :=
  List.mem_filterMap.2 ⟨f, hf, if_pos rfl⟩

/-- A job without executions has no claims in flight. -/
lemma claimsOf_eq_nil (h : ∀ f ∈ w.inflight, f.jobId ≠ id) : claimsOf w id = [] :=
  List.filterMap_eq_nil_iff.2 fun f hf => if_neg (h f hf)

/-! ### The number of claims -/

/-- An action does not take claims back. -/
lemma timesClaimed_mono (sound : Sound w) :
    w.db.queue.timesClaimed id ≤ (World.step cfg text w a).db.queue.timesClaimed id := by
  refine (step_path cfg text sound a).invariant
    (I := fun db => w.db.queue.timesClaimed id ≤ db.queue.timesClaimed id) le_rfl
    fun db l db' le m _ => le.trans ?_
  unfold Queue.timesClaimed
  rw [m.effect.history, List.count_append]
  exact Nat.le_add_left _ _

/-- No claim is taken back, and the job has been claimed since if it is running. -/
structure ClaimedSince (id : UUID) (c : ℕ) (v : JobView) : Prop where
  le : c ≤ v.events.count (.claimed id)
  row : ∃ row, v.row = some row ∧ row.id = id ∧
    (row.status = .running → c < v.events.count (.claimed id))

/-- A row that is not running may have any history before it. -/
lemma ClaimedSince.of_idle {c : ℕ} {row job : InteractionJob} {events : List JobEvent}
    {letters letters' : List DeadLetterJob} (h : ClaimedSince id c ⟨some row, events, letters⟩)
    (more : List JobEvent) (same : job.id = row.id) (idle : job.status ≠ .running) :
    ClaimedSince id c ⟨some job, more ++ events, letters'⟩ := by
  obtain ⟨_, ⟨⟩, own, _⟩ := h.row
  refine ⟨?_, job, rfl, same.trans own, fun running => absurd running idle⟩
  rw [List.count_append]
  exact h.le.trans (Nat.le_add_left _ _)

/-- A step of its life does not take claims back. -/
lemma ClaimedSince.life {c : ℕ} {v v' : JobView} {l : Label} (h : ClaimedSince id c v)
    (step : Life cfg v l v') : ClaimedSince id c v' := by
  cases step with
  | create =>
    obtain ⟨_, none, _⟩ := h.row
    cases none
  | @claim events letters job workerId now =>
    obtain ⟨_, ⟨⟩, own, _⟩ := h.row
    have le : c ≤ events.count (.claimed id) := h.le
    have counted : (JobEvent.claimed job.id :: events).count (.claimed id) =
        events.count (.claimed id) + 1 := by simp [own]
    exact ⟨by simp only [counted]; omega, _, rfl, own, fun _ => by simp only [counted]; omega⟩
  | recover => exact h.of_idle [_] rfl (by simp)
  | succeed => exact h.of_idle [_] rfl (by simp)
  | retry => exact h.of_idle [_, _] rfl (by simp)
  | bury => exact h.of_idle [_, _] rfl (by simp)
  | refuse => exact h.of_idle [_, _] rfl (by simp)

/-- A job that an action leaves running, and did not find running, has been claimed. -/
lemma timesClaimed_lt (sound : Sound w) {row job : InteractionJob} (mem : row ∈ w.db.queue.jobs.rows)
    (idle : row.status ≠ .running) (mem' : job ∈ (World.step cfg text w a).db.queue.jobs.rows)
    (same : job.id = row.id) (running : job.status = .running) :
    w.db.queue.timesClaimed row.id < (World.step cfg text w a).db.queue.timesClaimed row.id := by
  have path : Path (Life cfg) (fun _ _ => True) (view w.db.queue row.id)
      (view (World.step cfg text w a).db.queue row.id) :=
    life_step sound row.id fun _ _ _ _ _ _ _ => trivial
  have found : (view w.db.queue row.id).row = some row := Queue.get?_of_mem mem
  have found' : (view (World.step cfg text w a).db.queue row.id).row = some job :=
    same ▸ Queue.get?_of_mem mem'
  rw [timesClaimed_view, timesClaimed_view]
  have since := path.invariant (I := ClaimedSince row.id
      ((view w.db.queue row.id).events.count (.claimed row.id)))
    ⟨le_rfl, row, found, rfl, fun run => absurd run idle⟩ fun _ _ _ h step _ => h.life step
  obtain ⟨job', e, _, lt⟩ := since.row
  rw [found'] at e
  cases e
  exact lt running

/-! ### The claims in flight -/

lemma claimsOf_append {db db' : Db} {l l' : List InFlight} :
    claimsOf ⟨db, l ++ l'⟩ id = claimsOf ⟨db', l⟩ id ++ l'.filterMap (claimOf id) :=
  List.filterMap_append

/-- A claim of other jobs. -/
lemma claimsOf_claim_of_ne {α : Type} {x : Tx (List α)} {work : α → Work}
    (ne : ∀ s, (⟨work s, (w.claim x work).db.queue.timesClaimed (work s).jobId⟩ : InFlight) ∈
      (w.claim x work).inflight → (work s).jobId ≠ id) :
    claimsOf (w.claim x work) id = claimsOf w id := by
  unfold World.claim at ne ⊢
  split
  case h_2 => rfl
  case h_1 jobs db e =>
    simp only [e] at ne
    refine claimsOf_append.trans ((congrArg (claimsOf w id ++ ·) ?_).trans (List.append_nil _))
    rw [List.filterMap_eq_nil_iff]
    intro f mem
    obtain ⟨_, mem', rfl⟩ := List.mem_map.1 mem
    obtain ⟨s, _, rfl⟩ := List.mem_map.1 mem'
    exact if_neg (ne s (List.mem_append_right _ mem))

/-- A claim of result jobs begins one execution of a job, if any. -/
lemma claimsOf_claimResults {workerId : String} {limit : ℕ} {query : ClaimQuery} (sound : Sound w) :
    let w' := World.step cfg text w (.claimResults workerId limit query)
    claimsOf w' id = claimsOf w id ∨ (claimsOf w' id = claimsOf w id ++ [w'.db.queue.timesClaimed id] ∧
      w.db.queue.timesClaimed id < w'.db.queue.timesClaimed id) := by
  intro w'
  set jobs := claimedJobs workerId [.signalJobs, .leadStageUpdate] limit query w.db
  have after : w' = ⟨claimed workerId [.signalJobs, .leadStageUpdate] limit query w.db, w.inflight ++
      ((jobs.map ResultWorkerService.snapshot).map Work.result).map
        fun work => ⟨work, w'.db.queue.timesClaimed work.jobId⟩⟩ := rfl
  have begun : claimsOf w' id = claimsOf w id ++
      if id ∈ jobs.map (·.id) then [w'.db.queue.timesClaimed id] else [] := by
    rw [← filterMap_of_nodup_key (nodup_claimedJobs : (jobs.map (·.id)).Nodup)]
    conv_lhs => rw [after]
    refine claimsOf_append.trans (congrArg (claimsOf w id ++ ·) ?_)
    rw [List.map_map, List.map_map, List.filterMap_map]
    refine List.filterMap_congr fun job _ => ?_
    by_cases own : job.id = id
    · subst own
      simp [claimOf, InFlight.jobId, Work.jobId, ResultWorkerService.snapshot]
    · simp [claimOf, InFlight.jobId, Work.jobId, ResultWorkerService.snapshot, own]
  by_cases mem : id ∈ jobs.map (·.id)
  · rw [if_pos mem] at begun
    refine .inr ⟨begun, ?_⟩
    obtain ⟨job, hj, rfl⟩ := List.mem_map.1 mem
    obtain ⟨row, ready, rfl, _⟩ := of_mem_claimedJobs hj
    obtain ⟨there, _, status, _⟩ := Queue.of_mem_readyJobs ready
    have idle : row.status ≠ .running := fun running => by simp [running] at status
    exact @timesClaimed_lt cfg text w _ sound row _ there idle (mem_claimed hj) rfl rfl
  · rw [if_neg mem, List.append_nil] at begun
    exact .inl begun

/-- What an action does to the claims under which a lead stage job is executed: it takes some away, or
adds a new one. -/
theorem claimsOf_step (sound : Sound w)
    (type : ∀ row ∈ (World.step cfg text w a).db.queue.jobs.rows, row.id = id →
      row.jobType = .leadStageUpdate) :
    (claimsOf (World.step cfg text w a) id).Sublist (claimsOf w id) ∨
      (claimsOf (World.step cfg text w a) id =
          claimsOf w id ++ [(World.step cfg text w a).db.queue.timesClaimed id] ∧
        w.db.queue.timesClaimed id < (World.step cfg text w a).db.queue.timesClaimed id) := by
  have sound' : Sound (World.step cfg text w a) := sound_step sound
  have same : ∀ {l l' : List ℕ}, l = l' → l.Sublist l' := fun e => e ▸ .refl _
  -- the other workers have no execution of this job
  have worksOn : ∀ f ∈ (World.step cfg text w a).inflight, f.work.jobId = id →
      ∃ job : JobIdentity, job.jobType = .leadStageUpdate ∧ WorkOf job f.work := by
    intro f mem e
    obtain ⟨job, there, of⟩ := sound' f mem
    exact ⟨_, type job there (of.jobId.symm.trans e), of⟩
  cases a with
  | createIfAbsent => exact .inl (.refl _)
  | recoverStaleRunningJobs => exact .inl (.refl _)
  | endInteraction => exact .inl (.refl _)
  | legacyTask => exact .inl (.refl _)
  | orchestrate => exact .inl (.refl _)
  | claimAnalyses =>
    refine .inl (same (claimsOf_claim_of_ne fun s mem e => ?_))
    obtain ⟨job, lead, of⟩ := worksOn _ mem e
    cases of with
    | analysis _ llm => cases llm.symm.trans lead
  | claimRecordings =>
    refine .inl (same (claimsOf_claim_of_ne fun s mem e => ?_))
    obtain ⟨job, lead, of⟩ := worksOn _ mem e
    cases of with
    | recording _ fetch => cases fetch.symm.trans lead
  | claimResults workerId limit query =>
    exact (claimsOf_claimResults sound).imp_left same
  | processResult n fault =>
    simp only [World.step, World.processResult]
    split
    case h_2 => exact .inl (.refl _)
    case h_1 snapshot claim hf =>
      split <;> exact .inl (same (filterMap_set_of_eq hf rfl))
  | report n outcome clock =>
    simp only [World.step, World.report]
    split
    case h_2 => exact .inl (.refl _)
    case h_1 =>
      split
      · exact .inl ((List.eraseIdx_sublist _ _).filterMap _)
      · exact .inl (.refl _)
  | crash n => exact .inl ((List.eraseIdx_sublist _ _).filterMap _)

end PostCall.Machine
