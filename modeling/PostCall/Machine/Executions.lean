import PostCall.Machine.Life
import PostCall.Machine.Simulation

/-!
# Executions

What an action does to the executions in flight: it begins some, it ends one, or it lets one go on.
An execution that begins is of a job that the same transaction has claimed and left running. `Sound`
follows for every run: an execution is always one of a job that has a row, and its snapshot shows
the identity of that row.
-/

namespace PostCall.Machine
open PostCall.Library PostCall.Python PostCall.Model

/-- The attempts that a snapshot holds, for the workers that keep them. -/
def attempts? : Work → Option ℕ
  | .analysis snapshot => some snapshot.attempts
  | .recording snapshot => some snapshot.attempts
  | .result _ | .processed _ _ => none

/-- The execution goes on, for the same job under the same claim. -/
structure Continues (f f' : InFlight) : Prop where
  jobId : f'.jobId = f.jobId
  claim : f'.claim = f.claim
  attempts : attempts? f'.work = attempts? f.work
  of : ∀ job, WorkOf job f.work → WorkOf job f'.work

lemma Continues.refl (f : InFlight) : Continues f f := ⟨rfl, rfl, rfl, fun _ h => h⟩

/-- The execution of a job begins: the action found it not running, or stale, and left it running
under a new claim. -/
def Begun (cfg : Settings) (w : World) (a : Action) (db : Db) (f : InFlight) : Prop :=
  ∃ job ∈ db.queue.jobs.rows, WorkOf job.toJobIdentity f.work ∧ job.status = .running ∧
    f.claim = db.queue.timesClaimed job.id ∧
    (∀ n, attempts? f.work = some n → n = job.attempts) ∧
    ∃ row ∈ w.db.queue.jobs.rows, row.toJobIdentity = job.toJobIdentity ∧
      (row.status ≠ .running ∨ Recovers cfg w a row)

/-- The action ends an execution with a report. -/
def Ends (cfg : Settings) (text : Text) (w : World) (a : Action) (f : InFlight) : Prop :=
  ∃ n outcome clock conclusion, a = .report n outcome clock ∧ w.inflight[n]? = some f ∧
    f.work.conclusion cfg text clock outcome = some conclusion

/-- The executions after an action: some of those before it, and those that begin. -/
structure Executions (cfg : Settings) (text : Text) (w : World) (a : Action) (w' : World)
    (kept begun : List InFlight) : Prop where
  split : w'.inflight = kept ++ begun
  sublist : (kept.map (·.jobId)).Sublist (w.inflight.map (·.jobId))
  continues : ∀ f' ∈ kept, ∃ f ∈ w.inflight, Continues f f'
  ended : (w.inflight.map (·.jobId)).Nodup → ∀ f, Ends cfg text w a f → ∀ f' ∈ kept,
    f'.jobId ≠ f.jobId
  nodup : (begun.map (·.jobId)).Nodup
  begins : ∀ f ∈ begun, Begun cfg w a w'.db f

variable {cfg : Settings} {text : Text} {w : World} {a : Action}

lemma executions_of_same {db : Db} (ends : ∀ f, ¬ Ends cfg text w a f) :
    ∃ kept begun, Executions cfg text w a ⟨db, w.inflight⟩ kept begun :=
  ⟨w.inflight, [], by simp, .refl _, fun f h => ⟨f, h, .refl f⟩,
    fun _ f h => absurd h (ends f), by simp, fun _ h => nomatch h⟩

lemma executions_of_eraseIdx {db : Db} {n : ℕ}
    (ends : ∀ f, Ends cfg text w a f → w.inflight[n]? = some f) :
    ∃ kept begun, Executions cfg text w a ⟨db, w.inflight.eraseIdx n⟩ kept begun := by
  refine ⟨w.inflight.eraseIdx n, [], by simp, (List.eraseIdx_sublist _ _).map _,
    fun f h => ⟨f, List.mem_of_mem_eraseIdx h, .refl f⟩, fun nodup f h f' hf' => ?_, by simp,
    fun _ h => nomatch h⟩
  obtain ⟨i, ne, hi⟩ := List.mem_eraseIdx_iff_getElem?.1 hf'
  obtain ⟨hi, rfl⟩ := List.getElem?_eq_some_iff.1 hi
  obtain ⟨hn, rfl⟩ := List.getElem?_eq_some_iff.1 (ends f h)
  intro e
  have hi' : i < (w.inflight.map (·.jobId)).length := by simpa
  have hn' : n < (w.inflight.map (·.jobId)).length := by simpa
  have same : (w.inflight.map (·.jobId))[i] = (w.inflight.map (·.jobId))[n] := by simpa using e
  exact ne (nodup.getElem_inj_iff.1 same)

lemma executions_of_set {db : Db} {n : ℕ} {f f' : InFlight} (hf : w.inflight[n]? = some f)
    (go : Continues f f') (ends : ∀ f, ¬ Ends cfg text w a f) :
    ∃ kept begun, Executions cfg text w a ⟨db, w.inflight.set n f'⟩ kept begun := by
  refine ⟨w.inflight.set n f', [], by simp, ?_, fun g h => ?_, fun _ f h => absurd h (ends f),
    by simp, fun _ h => nomatch h⟩
  · rw [List.map_set, go.jobId]
    have same : (w.inflight.map (·.jobId)).set n f.jobId = w.inflight.map (·.jobId) := by
      refine List.ext_getElem? fun i => ?_
      by_cases h : n = i
      · subst h
        rw [List.getElem?_set_self', List.getElem?_map, hf]
        rfl
      · rw [List.getElem?_set_ne h]
    rw [same]
  · rcases List.mem_or_eq_of_mem_set h with h | rfl
    · exact ⟨g, h, .refl g⟩
    · exact ⟨f, List.mem_of_getElem? hf, go⟩

/-- A transaction of a claim: what it returns are snapshots of rows that it claimed. -/
lemma executions_of_claim {α : Type} {x : Tx (List α)} {work : α → Work}
    (toWork : InteractionJob → Work) (ends : ∀ f, ¬ Ends cfg text w a f)
    (h : ∀ snapshots db, x w.db = .ok snapshots db → ∃ jobs : List InteractionJob,
      snapshots.map work = jobs.map toWork ∧ (jobs.map (·.id)).Nodup ∧
      ∀ job ∈ jobs, job ∈ db.queue.jobs.rows ∧ job.status = .running ∧
        WorkOf job.toJobIdentity (toWork job) ∧
        ∃ row ∈ w.db.queue.jobs.rows, row.toJobIdentity = job.toJobIdentity ∧
          (row.status ≠ .running ∨ Recovers cfg w a row))
    (attempts : ∀ job n, attempts? (toWork job) = some n → n = job.attempts) :
    ∃ kept begun, Executions cfg text w a (w.claim x work) kept begun := by
  unfold World.claim commit
  cases e : x w.db with
  | error => exact executions_of_same ends
  | ok snapshots db =>
    obtain ⟨jobs, same, nodup, claimed⟩ := h snapshots db e
    -- a claim keeps all executions, and puts its own behind them
    refine ⟨w.inflight, _, rfl, .refl _, fun f h => ⟨f, h, .refl f⟩,
      fun _ f h => absurd h (ends f), ?_, fun f hf => ?_⟩
    · have ids : jobs.map (fun job => (toWork job).jobId) = jobs.map (·.id) :=
        List.map_congr_left fun job hj => (claimed job hj).2.2.1.jobId
      rw [same, List.map_map, List.map_map]
      exact ids ▸ nodup
    · rw [same, List.map_map] at hf
      obtain ⟨job, hj, rfl⟩ := List.mem_map.1 hf
      obtain ⟨mem, running, of, before⟩ := claimed job hj
      refine ⟨job, mem, of, running, ?_, fun n hn => attempts job n hn, before⟩
      simp only [Function.comp_apply, of.jobId]

/-- The jobs that the LLM worker admits keep the rows that the claim left. -/
lemma admitJobs_ok {clock : UUID → Clock} {jobs : List InteractionJob} {db db' : Db}
    {snapshots : List ClaimedLLMJob} (nodup : (jobs.map (·.id)).Nodup)
    (claimed : ∀ job ∈ jobs, job.status = .running ∧ job ∈ db.queue.jobs.rows)
    (h : LLMWorkerService.admitJobs cfg clock jobs db = .ok snapshots db') :
    ∃ admitted : List InteractionJob, admitted.Sublist jobs ∧
      snapshots = admitted.map LLMWorkerService.snapshot ∧
      ∀ job ∈ admitted, job ∈ db'.queue.jobs.rows := by
  induction jobs generalizing db snapshots with
  | nil =>
    cases h
    exact ⟨[], .slnil, rfl, fun _ h => nomatch h⟩
  | cons job jobs ih =>
    simp only [List.map_cons, List.nodup_cons, List.mem_map, not_exists, not_and] at nodup
    obtain ⟨running, mem⟩ := claimed job List.mem_cons_self
    obtain ⟨admitted, s, h₁, rest⟩ := Program.bind_ok.1 h
    obtain ⟨later, s', h₂, rest⟩ := Program.bind_ok.1 rest
    cases rest
    rcases admitJob_cases cfg db (clock job.id) job with
      ⟨e, h₃⟩ | ⟨s₃, h₃, aside⟩ | ⟨usage, admission, h₃⟩
    · rw [h₃] at h₁
      cases h₁
    · -- admitted: no later pass is about this job
      rw [h₃] at h₁
      cases h₁
      have rows : ∀ row ∈ jobs, row.status = .running ∧ row ∈ s.queue.jobs.rows := fun row hr =>
        ⟨(claimed row (List.mem_cons_of_mem _ hr)).1,
          aside.queue ▸ (claimed row (List.mem_cons_of_mem _ hr)).2⟩
      obtain ⟨admitted, sub, rfl, kept⟩ := ih nodup.2 rows h₂
      refine ⟨job :: admitted, sub.cons_cons _, rfl, fun row hr => ?_⟩
      rcases List.mem_cons.1 hr with rfl | hr
      · exact mem_of_admitJobs nodup.2 rows h₂ (aside.queue ▸ mem) nodup.1
      · exact kept row hr
    · -- refused
      rw [h₃] at h₁
      cases h₁
      obtain ⟨admitted, sub, rfl, kept⟩ := ih nodup.2 (claimed_of_refused cfg nodup.1 claimed) h₂
      exact ⟨admitted, sub.cons _, rfl, kept⟩

/-- A job that a claim returns is running after it, and was free, or has just been recovered. -/
lemma claimed_now {workerId : String} {jobTypes : List JobType} {limit : ℕ} {query : ClaimQuery}
    {job : InteractionJob} {P : Prop} (h : job ∈ claimedJobs workerId jobTypes limit query w.db)
    (of : P) :
    job ∈ (claimed workerId jobTypes limit query w.db).queue.jobs.rows ∧ job.status = .running ∧
      P ∧ ∃ row ∈ w.db.queue.jobs.rows, row.toJobIdentity = job.toJobIdentity ∧
        (row.status ≠ .running ∨ Recovers cfg w a row) := by
  obtain ⟨row, ready, rfl, _⟩ := of_mem_claimedJobs h
  obtain ⟨mem, _, status, _⟩ := Queue.of_mem_readyJobs ready
  exact ⟨mem_claimed h, rfl, of, row, mem, rfl, .inl fun running => by simp [running] at status⟩

/-- Only a report ends an execution. -/
lemma not_ends {f : InFlight}
    (h : ∀ n outcome clock, a ≠ .report n outcome clock := by rintro _ _ _ ⟨⟩) :
    ¬ Ends cfg text w a f := by
  rintro ⟨n, outcome, clock, _, e, _⟩
  exact h n outcome clock e

/-- What an action does to the executions. -/
theorem executions_step (cfg : Settings) (text : Text) (w : World) (a : Action) :
    ∃ kept begun, Executions cfg text w a (World.step cfg text w a) kept begun := by
  cases a with
  | createIfAbsent => exact executions_of_same fun _ => not_ends
  | recoverStaleRunningJobs => exact executions_of_same fun _ => not_ends
  | endInteraction => exact executions_of_same fun _ => not_ends
  | legacyTask => exact executions_of_same fun _ => not_ends
  | orchestrate => exact executions_of_same fun _ => not_ends
  | claimAnalyses workerId limit recovery query clock =>
    refine executions_of_claim (fun job => .analysis (LLMWorkerService.snapshot job))
      (fun _ => not_ends) (fun snapshots db h => ?_) fun job n hn => (Option.some.inj hn).symm
    rw [LLMWorkerService.claimAdmittedJobs, Program.bind_of_ok recoverStaleRunningJobs_run,
      Program.bind_of_ok claimReadyJobs_run] at h
    obtain ⟨admitted, sub, rfl, kept⟩ := admitJobs_ok nodup_claimedJobs running_of_claimedJobs h
    refine ⟨admitted, by rw [List.map_map]; rfl, nodup_claimedJobs.sublist (sub.map _),
      fun job hj => ?_⟩
    obtain ⟨row, mem, same, free⟩ := claimable (sub.subset hj)
    obtain ⟨_, _, e, type⟩ := of_mem_claimedJobs (sub.subset hj)
    refine ⟨kept job hj, by rw [e]; rfl, ?_, row, mem, same, ?_⟩
    · exact .analysis rfl (by rw [e]; exact List.mem_singleton.1 type)
    -- this transaction recovers first, so the row may have been running
    · exact free.imp_right fun stale => ⟨recovery, rfl, mem, stale⟩
  | claimRecordings workerId limit query =>
    simp only [World.step]
    refine executions_of_claim (fun job => .recording (RecordingWorkerService.snapshot job))
      (fun _ => not_ends) (fun snapshots db h => ?_) fun job n hn => (Option.some.inj hn).symm
    cases h
    refine ⟨_, by rw [List.map_map]; rfl, nodup_claimedJobs, fun job hj => ?_⟩
    obtain ⟨row, ready, e, type⟩ := of_mem_claimedJobs hj
    exact claimed_now hj (.recording rfl (by rw [e]; exact List.mem_singleton.1 type))
  | claimResults workerId limit query =>
    simp only [World.step]
    refine executions_of_claim (fun job => .result (ResultWorkerService.snapshot job))
      (fun _ => not_ends) (fun snapshots db h => ?_) fun job n hn => by cases hn
    cases h
    refine ⟨_, by rw [List.map_map]; rfl, nodup_claimedJobs, fun job hj => ?_⟩
    obtain ⟨row, ready, e, type⟩ := of_mem_claimedJobs hj
    exact claimed_now hj (.result rfl (by rw [e]; simpa using type))
  | processResult n fault =>
    simp only [World.step, World.processResult]
    split
    case h_2 => exact executions_of_same fun _ => not_ends
    case h_1 snapshot claim hf =>
      have go : ∀ raised, Continues ⟨.result snapshot, claim⟩ ⟨.processed snapshot raised, claim⟩ := by
        intro raised
        refine ⟨rfl, rfl, rfl, fun job h => ?_⟩
        cases h with
        | result same type => exact .processed same type
      split
      · exact executions_of_set hf (go none) fun _ => not_ends
      · exact executions_of_set hf (go _) fun _ => not_ends
  | report n outcome clock =>
    simp only [World.step, World.report]
    split
    -- no execution has the number
    case h_2 absent =>
      refine executions_of_same fun f h => ?_
      obtain ⟨_, _, _, _, e, hf, _⟩ := h
      cases e
      cases absent.symm.trans hf
    case h_1 f hf =>
      split
      · refine executions_of_eraseIdx fun f h => ?_
        obtain ⟨_, _, _, _, e, hf, _⟩ := h
        cases e
        exact hf
      -- the outcome is none of this kind of worker
      case h_2 silent =>
        refine executions_of_same fun f' h => ?_
        obtain ⟨_, _, _, _, e, hf', hc⟩ := h
        cases e
        cases hf.symm.trans hf'
        cases silent.symm.trans hc
  | crash n => exact executions_of_eraseIdx fun f h => absurd h not_ends

/-! ### Every execution has its job -/

/-- The state before the first job. -/
def Initial (w : World) : Prop := w.db.queue = Queue.empty ∧ w.inflight = []

lemma sound_of_idle (h : w.inflight = []) : Sound w := fun f hf => by
  rw [h] at hf
  cases hf

/-- An action keeps every execution one of a job that has a row. -/
theorem sound_step (sound : Sound w) : Sound (World.step cfg text w a) := by
  intro f' hf'
  obtain ⟨kept, begun, ex⟩ := executions_step cfg text w a
  rw [ex.split] at hf'
  rcases List.mem_append.1 hf' with hf' | hf'
  · obtain ⟨f, hf, go⟩ := ex.continues f' hf'
    obtain ⟨job, mem, of⟩ := sound f hf
    obtain ⟨job', mem', same⟩ := Path.identity (step_path cfg text sound a) mem
    exact ⟨job', mem', same ▸ go.of _ of⟩
  · obtain ⟨job, mem, of, _⟩ := ex.begins f' hf'
    exact ⟨job, mem, of⟩

/-- So it is in every state that a run reaches. -/
theorem sound_of_run {ok : World → Action → Prop} {w₀ : World} {as : List Action}
    (run : Run (World.step cfg text) ok w₀ as w) (sound : Sound w₀) : Sound w :=
  run.invariant sound fun _ _ h _ => sound_step h

/-! ### The life of a job in a step of the system -/

/-- An action is, for each job, a path of steps of its life. -/
theorem life_step (sound : Sound w) (id : UUID) {okLife : JobView → Label → Prop}
    (imp : ∀ db l db' k, Move cfg db l db' → Allowed cfg text w a db l → Label.At id l k →
      okLife (view db.queue id) k) :
    Path (Life cfg) okLife (view w.db.queue id) (view (World.step cfg text w a).db.queue id) :=
  life_of_path id (step_path cfg text sound a) imp

end PostCall.Machine
