import PostCall.Machine.Regular
import PostCall.Machine.Supersession
import PostCall.Properties.Fencing
import PostCall.Properties.LeadStage

/-!
# Finality

The stage of a lead is written before the status of the job is looked at, in a transaction of its own.
An execution that another claim has superseded still writes it, also when the job has succeeded long
since. In runs in which only executions under the latest claim write and succeed, and no failure is
reported of a job that has succeeded, a lead stage job that has succeeded has no later effect.
-/

namespace PostCall.Properties
open PostCall.Library PostCall.Python PostCall.Model PostCall.Machine

variable {cfg : Settings} {text : Text} {w w₀ w' : World} {a : Action} {as later : List Action}
  {id : UUID}

/-- The job has not been claimed again since. -/
def Latest (w : World) (f : InFlight) : Prop := f.claim = w.db.queue.timesClaimed f.jobId

instance {f : InFlight} : Decidable (Latest w f) := inferInstanceAs (Decidable (_ = _))

/-- An execution of a lead stage job writes the stage, or completes its running job, under the latest
claim only; and it does not report the failure of a job that has succeeded. -/
structure Fresh (w : World) (a : Action) : Prop where
  write : ∀ n fault f, a = .processResult n fault → w.inflight[n]? = some f →
    (stageWrite? w a).isSome → Latest w f
  success : ∀ n clock f snapshot, a = .report n .result clock → w.inflight[n]? = some f →
    f.work = .processed snapshot none →
    ∀ job ∈ w.db.queue.jobs.rows, job.id = f.jobId → job.jobType = .leadStageUpdate →
      job.status = .running → Latest w f
  failure : ∀ n clock f snapshot e, a = .report n .result clock → w.inflight[n]? = some f →
    f.work = .processed snapshot (some e) →
    ∀ job ∈ w.db.queue.jobs.rows, job.id = f.jobId → job.jobType = .leadStageUpdate →
      job.status ≠ .succeeded

/-- In the runs that these steps make up, only executions of other jobs change a lead. -/
def Final (cfg : Settings) (text : Text) (ok : World → Action → Prop) (w : World) (id : UUID) : Prop :=
  ∀ later w' a, Run (World.step cfg text) ok w later w' → ok w' a →
    (World.step cfg text w' a).db.leads ≠ w'.db.leads →
    ∃ n fault f, a = .processResult n fault ∧ w'.inflight[n]? = some f ∧ f.jobId ≠ id

/-! ### One job -/

/-- Of lead stage jobs: none succeeds, and failures are of jobs that have not succeeded. -/
def uncompleted (_ : JobView) : Label → Prop
  | .succeed job .. => job.jobType ≠ .leadStageUpdate
  | .fail job _ _ => job.jobType = .leadStageUpdate → job.status ≠ .succeeded
  | _ => True

/-- The row is that of a lead stage job that has succeeded. -/
def Succeeded (v : JobView) : Prop :=
  ∃ job, v.row = some job ∧ job.jobType = .leadStageUpdate ∧ job.status = .succeeded

/-- Whatever has the identifier is a lead stage job. -/
def LeadJob (w : World) (id : UUID) : Prop :=
  ∀ row ∈ w.db.queue.jobs.rows, row.id = id → row.jobType = .leadStageUpdate

/-- A job of the lead was one before. -/
lemma LeadJob.before (lead : LeadJob (World.step cfg text w a) id) (sound : Sound w) :
    LeadJob w id := by
  intro row mem own
  obtain ⟨row', mem', same⟩ := Path.identity (step_path cfg text sound a) mem
  exact (congrArg JobIdentity.jobType same).symm.trans
    (lead row' mem' ((congrArg JobIdentity.id same).trans own))

/-- A job that has succeeded is one of the lead. -/
lemma Succeeded.leadJob (done : Succeeded (view w.db.queue id)) : LeadJob w id := by
  obtain ⟨job, found, type, _⟩ := done
  rintro row mem rfl
  rw [view_row mem] at found
  cases found
  exact type

/-- Without completions, no lead stage job leaves its success or comes to it. -/
lemma not_succeeded_of_life {v v' : JobView} {l : Label} (step : Life cfg v l v')
    (ok : uncompleted v l) : ¬ Succeeded v ∧ ¬ Succeeded v' := by
  cases step with
  | create pristine =>
    obtain ⟨new, rfl⟩ := pristine
    exact ⟨(fun ⟨_, row, _⟩ => by cases row), fun ⟨_, row, _, status⟩ => by cases row; cases status⟩
  | claim ready =>
    refine ⟨fun ⟨_, row, _, status⟩ => ?_, fun ⟨_, row, _, status⟩ => by cases row; cases status⟩
    cases row
    rcases ready with ready | ready <;> cases ready.symm.trans status
  | recover running | refuse running =>
    refine ⟨fun ⟨_, row, _, status⟩ => ?_, fun ⟨_, row, _, status⟩ => by cases row; cases status⟩
    cases row
    cases running.symm.trans status
  | succeed =>
    exact ⟨fun ⟨_, row, type, _⟩ => by cases row; exact ok type,
      fun ⟨_, row, type, _⟩ => by cases row; exact ok type⟩
  | retry | bury =>
    exact ⟨fun ⟨_, row, type, status⟩ => by cases row; exact ok type status,
      fun ⟨_, row, _, status⟩ => by cases row; cases status⟩

/-- Without completions, a lead stage job that has succeeded is as it was. -/
lemma view_of_uncompleted (sound : Sound w) (steps : Steps cfg text w a id uncompleted)
    (done : Succeeded (view w.db.queue id) ∨ Succeeded (view (World.step cfg text w a).db.queue id)) :
    view (World.step cfg text w a).db.queue id = view w.db.queue id := by
  have path : Path (Life cfg) uncompleted (view w.db.queue id)
      (view (World.step cfg text w a).db.queue id) := life_step sound id steps
  have kept := path.invariant (I := fun v => v = view w.db.queue id ∨
    (¬ Succeeded (view w.db.queue id) ∧ ¬ Succeeded v)) (.inl rfl) fun v l v' inv step ok => by
      obtain ⟨before, after⟩ := not_succeeded_of_life step ok
      rcases inv with rfl | ⟨never, _⟩
      · exact .inr ⟨before, after⟩
      · exact .inr ⟨never, after⟩
  rcases kept with same | ⟨never, nor⟩
  · exact same
  · exact absurd done (not_or.2 ⟨never, nor⟩)

/-- The action completes an execution of the job whose side effect is committed. -/
def Completes (w : World) (a : Action) (id : UUID) : Prop :=
  ∃ n clock f snapshot, a = .report n .result clock ∧ w.inflight[n]? = some f ∧
    f.work = .processed snapshot none ∧ f.jobId = id

/-- Any other fresh action is without completions. -/
lemma Fresh.steps (fresh : Fresh w a) (other : ¬ Completes w a id) :
    Steps cfg text w a id uncompleted := by
  intro db l db' k m allowed at'
  cases at' with
  | birth => trivial
  | about about own =>
    cases allowed with
    | orchestrated root =>
      cases about
      simp [uncompleted, root]
    | unorchestrated root =>
      cases about
      simp [uncompleted, root]
    | @report n f outcome conclusion clock job _ l hf hc mem of moves =>
      obtain ⟨work, claim⟩ := f
      cases l with
      | succeed =>
        cases about
        obtain rfl := moves.1.1
        intro type
        cases concludes_of_conclusion hc with
        | processed => exact other ⟨n, clock, _, _, rfl, hf, rfl, of.jobId.trans own⟩
        | unprocessed => cases moves.2 _ rfl
        | analysed | unanalysed =>
          cases of with
          | analysis _ llm => cases llm.symm.trans type
        | fetched | unfetched =>
          cases of with
          | recording _ fetch => cases fetch.symm.trans type
      | fail =>
        cases about
        obtain ⟨rfl, rfl, _⟩ := moves
        intro type
        cases concludes_of_conclusion hc with
        | unprocessed => exact fresh.failure n clock _ _ _ rfl hf rfl _ mem of.jobId.symm type
        | unanalysed =>
          cases of with
          | analysis _ llm => cases llm.symm.trans type
        | unfetched =>
          cases of with
          | recording _ fetch => cases fetch.symm.trans type
      | _ => trivial
    | _ => trivial

/-! ### The claims in flight of a job that has succeeded -/

/-- The executions of a job are under different claims, none later than its latest; and when it has
succeeded none is left under that one. -/
structure Distinct (w : World) (id : UUID) : Prop where
  nodup : (claimsOf w id).Nodup
  le : ∀ c ∈ claimsOf w id, c ≤ w.db.queue.timesClaimed id
  done : Succeeded (view w.db.queue id) → w.db.queue.timesClaimed id ∉ claimsOf w id

/-- No claim of a lead stage job is later than its latest after an action, and all are different. -/
lemma Distinct.claims (h : Distinct w id) (sound : Sound w)
    (lead : LeadJob (World.step cfg text w a) id) :
    (claimsOf (World.step cfg text w a) id).Nodup ∧
      ∀ c ∈ claimsOf (World.step cfg text w a) id,
        c ≤ (World.step cfg text w a).db.queue.timesClaimed id := by
  have mono := @timesClaimed_mono cfg text w a id sound
  rcases claimsOf_step sound lead with sub | ⟨new, later⟩
  · exact ⟨h.nodup.sublist sub, fun c mem => (h.le c (sub.subset mem)).trans mono⟩
  · rw [new]
    refine ⟨h.nodup.append (List.nodup_singleton _) fun c mem mem' => ?_, fun c mem => ?_⟩
    · cases List.mem_singleton.1 mem'
      exact absurd (h.le _ mem) (not_le.2 later)
    · rcases List.mem_append.1 mem with mem | mem
      · exact (h.le c mem).trans mono
      · exact (List.mem_singleton.1 mem).le

/-- An action that leaves the job alone begins no execution of it. -/
lemma Distinct.done_of_same (h : Distinct w id) (sound : Sound w)
    (lead : LeadJob (World.step cfg text w a) id)
    (same : view (World.step cfg text w a).db.queue id = view w.db.queue id)
    (done : Succeeded (view (World.step cfg text w a).db.queue id)) :
    (World.step cfg text w a).db.queue.timesClaimed id ∉ claimsOf (World.step cfg text w a) id := by
  have count : (World.step cfg text w a).db.queue.timesClaimed id = w.db.queue.timesClaimed id := by
    rw [timesClaimed_view, same, ← timesClaimed_view]
  rw [count]
  rcases claimsOf_step sound lead with sub | ⟨_, later⟩
  · exact fun mem => h.done (same ▸ done) (sub.subset mem)
  · exact absurd count later.ne'

/-- A completion leaves the job alone, or it ends the execution under the latest claim. -/
lemma Completes.cases (completes : Completes w a id) (sound : Sound w) (fresh : Fresh w a)
    (lead : LeadJob w id) :
    view (World.step cfg text w a).db.queue id = view w.db.queue id ∨
      ∃ n f, w.inflight[n]? = some f ∧ f.jobId = id ∧ Latest w f ∧
        (World.step cfg text w a).inflight = w.inflight.eraseIdx n ∧
        (World.step cfg text w a).db.queue.timesClaimed id = w.db.queue.timesClaimed id ∧
        ¬ Succeeded (view w.db.queue id) := by
  obtain ⟨n, clock, f, snapshot, rfl, hf, work, rfl⟩ := completes
  have hc : f.work.conclusion cfg text clock .result =
      some (.ok (ResultWorkerService.complete clock snapshot)) := by rw [work]; rfl
  obtain ⟨job, mem, of⟩ := sound f (List.mem_of_getElem? hf)
  have own : job.id = f.jobId := of.jobId.symm
  rw [report_db hf hc, World.transact]
  cases e : commit (Tx.conclude cfg clock f.jobId _) w.db with
  | none => exact .inl rfl
  | some result =>
    obtain ⟨⟨⟩, db'⟩ := result
    cases completed_of_ok mem of hc (commit_eq_some.1 e) with
    | idle => exact .inl rfl
    | done before m _ after =>
      have count : db'.queue.timesClaimed f.jobId = w.db.queue.timesClaimed f.jobId := by
        rw [after.queue, Queue.timesClaimed, m.effect.history, before.queue]
        simp [Label.events, Queue.timesClaimed]
      cases m with
      | succeed _ running =>
        have latest := fresh.success n clock f snapshot rfl hf work job mem own
          (lead job mem own) running
        refine .inr ⟨n, f, hf, rfl, latest, ?_, count, ?_⟩
        · simp only [World.step, World.report, hf, hc]
        · rintro ⟨row, found, _, status⟩
          rw [← own, view_row mem] at found
          cases found
          cases running.symm.trans status

/-- A fresh action keeps the executions of a lead stage job settled. -/
lemma Distinct.step (h : Distinct w id) (sound : Sound w) (fresh : Fresh w a)
    (lead : LeadJob (World.step cfg text w a) id) : Distinct (World.step cfg text w a) id := by
  obtain ⟨nodup, le⟩ := h.claims sound lead
  refine ⟨nodup, le, fun done => ?_⟩
  by_cases completes : Completes w a id
  · rcases completes.cases sound fresh (lead.before sound) with
      same | ⟨n, f, hf, own, latest, ended, count, _⟩
    · exact h.done_of_same sound lead same done
    · subst own
      rw [count, ← latest, claimsOf, ended]
      exact not_mem_filterMap_eraseIdx hf (if_pos rfl) h.nodup
  · exact h.done_of_same sound lead
      (view_of_uncompleted sound (fresh.steps completes) (.inr done)) done

/-! ### Runs -/

/-- In a run of fresh actions, the executions of every lead stage job are settled. -/
theorem distinct_of_run (run : Run (World.step cfg text) Fresh w₀ as w) (init : Initial w₀) :
    Sound w ∧ ∀ id, LeadJob w id → Distinct w id := by
  refine run.invariant (I := fun w => Sound w ∧ ∀ id, LeadJob w id → Distinct w id)
    ⟨sound_of_idle init.2, fun id _ => ?_⟩ fun w a inv fresh => ?_
  · have none : claimsOf w₀ id = [] := claimsOf_eq_nil (by simp [init.2])
    refine ⟨by simp [none], by simp [none], fun ⟨_, row, _⟩ => ?_⟩
    rw [view_of_initial init] at row
    cases row
  · obtain ⟨sound, settled⟩ := inv
    exact ⟨sound_step sound, fun id lead =>
      (settled id (lead.before sound)).step sound fresh lead⟩

/-- In a run of fresh actions, a lead stage job that has succeeded is left alone. -/
theorem view_of_succeeded (run : Run (World.step cfg text) Fresh w later w') (sound : Sound w)
    (done : Succeeded (view w.db.queue id)) : view w'.db.queue id = view w.db.queue id := by
  refine (run.invariant (I := fun w' => Sound w' ∧ view w'.db.queue id = view w.db.queue id)
    ⟨sound, rfl⟩ fun w' a inv fresh => ?_).2
  obtain ⟨sound, same⟩ := inv
  rw [← same] at done ⊢
  refine ⟨sound_step sound, ?_⟩
  by_cases completes : Completes w' a id
  · exact (completes.cases sound fresh done.leadJob).resolve_right
      fun ⟨_, _, _, _, _, _, _, undone⟩ => undone done
  · exact view_of_uncompleted sound (fresh.steps completes) (.inl done)

/-- In a run of fresh actions, a lead stage job that has succeeded changes no lead any more. -/
theorem final_of_fresh (run : Run (World.step cfg text) Fresh w₀ as w) (init : Initial w₀) :
    ∀ job ∈ w.db.queue.jobs.rows, job.jobType = .leadStageUpdate → job.status = .succeeded →
      Final cfg text Fresh w job.id := by
  intro job mem type status later w' a run' fresh changed
  have done : Succeeded (view w.db.queue job.id) := ⟨job, view_row mem, type, status⟩
  have done' : Succeeded (view w'.db.queue job.id) := by
    rwa [view_of_succeeded run' (distinct_of_run run init).1 done]
  cases write : stageWrite? w' a with
  | none => exact absurd (leads_of_silent write) changed
  | some s =>
    obtain ⟨_, n, fault, claim, rfl, hf⟩ := execution_of_write write
    refine ⟨n, fault, _, rfl, hf, fun own => ?_⟩
    have latest : claim = w'.db.queue.timesClaimed s.id :=
      fresh.write n fault _ rfl hf (by rw [write]; rfl)
    have settled := (distinct_of_run (run.append run') init).2 job.id done'.leadJob
    have inflight : claim ∈ claimsOf w' s.id := mem_claimsOf (List.mem_of_getElem? hf)
    rw [show s.id = job.id from own] at latest inflight
    exact settled.done done' (latest ▸ inflight)

/-- Whether the side effect of an execution has raised. -/
def raised : Work → Bool
  | .processed _ (some _) => true
  | _ => false

/-- The execution in flight that an action goes on with. -/
def goesOnWith (w : World) : Action → Option InFlight
  | .processResult n _ => w.inflight[n]?
  | .report n _ _ => w.inflight[n]?
  | _ => none

/-- The execution that goes on is under the latest claim of its job, and has not raised. -/
def Calm (w : World) (a : Action) : Prop := ∀ f ∈ goesOnWith w a, Latest w f ∧ ¬ raised f.work

instance : Decidable (Calm w a) := inferInstanceAs (Decidable (∀ _ ∈ _, _))

lemma Calm.fresh (calm : Calm w a) : Fresh w a where
  write _ _ f e hf _ := by
    subst e
    exact (calm f hf).1
  success _ _ f _ e hf _ _ _ _ _ _ := by
    subst e
    exact (calm f hf).1
  failure _ _ f _ _ e hf work := by
    subst e
    have silent := (calm f hf).2
    rw [work] at silent
    exact absurd rfl silent

/-- A worker is slow to write; its job is recovered, and another worker claims it and completes it. -/
def slowWriter : List Action := [
  .createIfAbsent (leadJob 10 1 .high "not_interested" 0),
  .claimResults "slow" 1 (.at 0),
  .recoverStaleRunningJobs "recoverer" (.at (seconds 301)),
  .claimResults "worker" 1 (.at (seconds 301)),
  .processResult 1 none,
  .report 1 .result fun _ => seconds 301]

/-- The job of the later call writes. -/
def laterCall : List Action := [
  .createIfAbsent (leadJob 11 2 .high "demo_booked" (seconds 302)),
  .claimResults "worker" 1 (.at (seconds 302)),
  .processResult 1 none,
  .report 1 .result fun _ => seconds 302]

/-- The stages of the leads. -/
def stages (leads : LeadTable) : List String := leads.rows.map (·.stage)

/-- The slow worker writes nothing any more, and the job of the later call writes. -/
theorem final_of_fresh_plain : Final settings .plain Fresh (afterCalls slowWriter) 10 ∧
    (afterCalls slowWriter).inflight.map (·.jobId) = [10] ∧
    stages (afterCalls slowWriter).db.leads = ["closed_lost"] ∧
    stages (afterCalls (slowWriter ++ laterCall)).db.leads = ["booked"] ∧
    Run (World.step settings .plain) Fresh (afterCalls slowWriter) laterCall
      (afterCalls (slowWriter ++ laterCall)) := by
  have calm : ∀ w, ∀ a, Calm w a → Fresh w a := fun _ _ => Calm.fresh
  have run : Run (World.step settings .plain) Calm twoCalls slowWriter (afterCalls slowWriter) :=
    Run.of_checked (by decide +kernel)
  have later : Run (World.step settings .plain) Calm (afterCalls slowWriter) laterCall
      (laterCall.foldl (World.step settings .plain) (afterCalls slowWriter)) :=
    Run.of_checked (by decide +kernel)
  obtain ⟨job, mem, own, type, status⟩ : ∃ job ∈ (afterCalls slowWriter).db.queue.jobs.rows,
      job.id = 10 ∧ job.jobType = .leadStageUpdate ∧ job.status = .succeeded := by decide +kernel
  refine ⟨own ▸ final_of_fresh (run.mono calm) ⟨rfl, rfl⟩ job mem type status, by decide +kernel,
    by decide +kernel, by decide +kernel, ?_⟩
  have together : afterCalls (slowWriter ++ laterCall) =
      laterCall.foldl (World.step settings .plain) (afterCalls slowWriter) := List.foldl_append
  rw [together]
  exact later.mono calm

/-- The slow worker writes over the stage of the later call. -/
theorem not_final : ¬ ∀ (cfg : Settings) (text : Text) (w₀ : World) (as : List Action), Initial w₀ →
    ∀ job ∈ (as.foldl (World.step cfg text) w₀).db.queue.jobs.rows,
      job.jobType = .leadStageUpdate → job.status = .succeeded →
      Final cfg text anyStep (as.foldl (World.step cfg text) w₀) job.id := by
  intro final
  obtain ⟨job, mem, own, type, status⟩ : ∃ job ∈ (afterCalls slowWriter).db.queue.jobs.rows,
      job.id = 10 ∧ job.jobType = .leadStageUpdate ∧ job.status = .succeeded := by decide +kernel
  have run : Run (World.step settings .plain) anyStep (afterCalls slowWriter) laterCall
      (laterCall.foldl (World.step settings .plain) (afterCalls slowWriter)) := .of_foldl _
  obtain ⟨before, after, slow⟩ :
      stages (laterCall.foldl (World.step settings .plain) (afterCalls slowWriter)).db.leads =
        ["booked"] ∧
      stages (World.step settings .plain
        (laterCall.foldl (World.step settings .plain) (afterCalls slowWriter))
        (.processResult 0 none)).db.leads = ["closed_lost"] ∧
      ∀ f ∈ (laterCall.foldl (World.step settings .plain) (afterCalls slowWriter)).inflight[0]?,
        f.jobId = 10 := by decide +kernel
  obtain ⟨n, fault, f, e, hf, other⟩ := final settings .plain twoCalls slowWriter ⟨rfl, rfl⟩ job mem
    type status laterCall _ (.processResult 0 none) run trivial fun same => by
      have both := after.symm.trans ((congrArg stages same).trans before)
      exact absurd both (by decide)
  cases e
  exact other ((slow f hf).trans own.symm)

end PostCall.Properties
