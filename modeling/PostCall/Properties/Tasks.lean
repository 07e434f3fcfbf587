import PostCall.Machine.Crew

/-!
# The tasks refine the system

The workers run the tasks of the broker side by side, and a task loops over the jobs that it has
claimed. The system has neither tasks nor loops: its executions are in flight on their own, and each
action is one transaction. Whatever the tasks and the webhooks do, in any order of their transactions,
with workers that are lost between two of them and tasks that are delivered again, the system does as
well, in their names: nobody reports an execution that he has not claimed.
-/

namespace PostCall.Properties
open PostCall.Library PostCall.Python PostCall.Model PostCall.Machine

variable {cfg : Settings} {text : Text} {asked : EndRequest → Prop} {s : Crew} {n : ℕ}
  {f : InFlight} {after : TaskRun} {mine : Multiset InFlight}
  {hand : Multiset InFlight × Multiset (InteractionJob × FailedWakeup)}

/-- The system can follow a task with this name and these things in hand. -/
abbrev Follows (cfg : Settings) (text : Text) (asked : EndRequest → Prop) (n : ℕ) :
    TaskRun → Multiset InFlight × Multiset (InteractionJob × FailedWakeup) → Prop :=
  Carries (Crew.step cfg text) (Crew.Own asked) Crew.db Crew.hands n

lemma follows_done : Follows cfg text asked n .done hand := trivial

/-! ### Transactions that begin and end no execution -/

/-- A transaction of the system is one of a task. -/
lemma transact_eq_perform {α : Type} {x : Tx α} {db : Db} :
    World.transact db x = (perform x db).2 := by
  unfold World.transact commit perform
  cases x db <;> rfl

/-- A transaction of the system that the task goes on after. -/
lemma follows_andThen {α : Type} {x : Tx α} {next : α → TaskRun} (a : Action) (keeps : Crew.Keeps a)
    (own : ∀ s, Crew.Own asked s (n, .system a))
    (same : ∀ w, World.step cfg text w a = { w with db := World.transact w.db x })
    (h : ∀ value, Follows cfg text asked n (next value) hand) :
    Follows cfg text asked n (.andThen x next) hand := by
  intro s held
  have step := @Crew.step_transact cfg text s n a _ x keeps same
  refine ⟨.system a, own s, ?_, fun m _ => ?_, ?_⟩
  · rw [step]
    exact transact_eq_perform
  · rw [step]
    rfl
  · rw [step]
    cases (perform x s.db).1 with
    | error e => exact follows_done
    | ok value =>
      have kept : Crew.hands { s with db := World.transact s.db x } n = hand := held
      rw [kept]
      exact h value

/-- A round of the orchestrator is one transaction. -/
lemma follows_orchestrator {limit : ℕ} {env : OrchestratorRun}
    (h : Follows cfg text asked n after hand) :
    Follows cfg text asked n (runOrchestrator cfg text limit env after) hand :=
  follows_andThen (.orchestrate env.workerId limit env.recovery env.query env.run)
    (fun _ _ _ => rfl) (fun _ => trivial) (fun _ => rfl) fun _ => h

/-! ### The loops -/

/-- The executions that a claim of these jobs begins. -/
def begun {α : Type} (work : α → Work) (snapshots : List α) (db : Db) : List InFlight :=
  (snapshots.map work).map fun work => ⟨work, db.queue.timesClaimed work.jobId⟩

/-- A loop over claimed jobs, whose executions it has in its hands: each pass reports one. -/
lemma follows_forEach {α : Type} {process : α → TaskRun → TaskRun} {work : α → Work} {db : Db}
    (each : ∀ snapshot claim after mine, Follows cfg text asked n after (mine, 0) →
      Follows cfg text asked n (process snapshot after) (⟨work snapshot, claim⟩ ::ₘ mine, 0))
    (h : Follows cfg text asked n after 0) (snapshots : List α) :
    Follows cfg text asked n (.forEach process snapshots after) (begun work snapshots db, 0) := by
  induction snapshots with
  | nil => exact h
  | cons snapshot snapshots ih => exact each _ _ _ _ ih

/-- A claim, in the name of the task, and the loop over what it has claimed. -/
lemma follows_runOnce {α : Type} {claim : Tx (List α)} {process : α → TaskRun → TaskRun}
    {work : α → Work} (a : Action) (keeps : Crew.Keeps a)
    (own : ∀ s, Crew.Own asked s (n, .system a))
    (same : ∀ w, World.step cfg text w a = w.claim claim work)
    (each : ∀ snapshot claim after mine, Follows cfg text asked n after (mine, 0) →
      Follows cfg text asked n (process snapshot after) (⟨work snapshot, claim⟩ ::ₘ mine, 0))
    (h : Follows cfg text asked n after 0) :
    Follows cfg text asked n (.runOnce claim process after) 0 := by
  intro s held
  refine ⟨.system a, own s, ?_⟩
  cases e : claim s.db with
  | error raised db =>
    rw [@Crew.step_claim_error cfg text s n a _ claim work raised db keeps same e]
    simp only [perform, e]
    exact ⟨trivial, fun _ _ => trivial, follows_done⟩
  | ok snapshots db =>
    rw [@Crew.step_claim cfg text s n a _ claim work snapshots db keeps same e]
    have own : belongings s.executions n = 0 := congrArg Prod.fst held
    have rest : belongings s.failures n = 0 := congrArg Prod.snd held
    simp only [perform, e, Crew.hands]
    refine ⟨trivial, fun m ne => by rw [belongings_append_other ne], ?_⟩
    rw [belongings_append_own, own, rest, zero_add]
    exact follows_forEach each h snapshots

/-- An execution that a task has in its hands is one of its own in flight. -/
lemma exists_execution (held : s.hands n = (f ::ₘ mine, 0)) :
    (∃ k : ℕ, s.executions[k]? = some (n, f)) ∧ belongings s.executions n = f ::ₘ mine ∧
      belongings s.failures n = 0 := by
  have own : belongings s.executions n = f ::ₘ mine := congrArg Prod.fst held
  refine ⟨exists_of_mem_belongings ?_, own, congrArg Prod.snd held⟩
  rw [own]
  exact Multiset.mem_cons_self f mine

/-- The last transaction of an execution, with what the environment answers to it. -/
lemma follows_conclude {clock : Clock} {conclusion : Except Failure (Tx Unit)} (f : InFlight)
    (outcome : Outcome) (concludes : f.work.conclusion cfg text clock outcome = some conclusion)
    (h : Follows cfg text asked n after (mine, 0)) :
    Follows cfg text asked n (.andThen (Tx.conclude cfg clock f.jobId conclusion) fun _ => after)
      (f ::ₘ mine, 0) := by
  intro s held
  obtain ⟨⟨k, found⟩, own, rest⟩ := exists_execution held
  refine ⟨.system (.report k outcome clock), ⟨f, found⟩, ?_⟩
  rw [@Crew.step_report cfg text s n k n f outcome clock conclusion found concludes]
  refine ⟨transact_eq_perform, fun m ne => ?_, ?_⟩
  · simp only [Crew.hands, belongings_of_getElem? found, if_neg ne.symm]
  · rw [belongings_of_getElem? found, if_pos rfl, Multiset.cons_inj_right] at own
    simp only [Crew.hands, own, rest]
    cases (perform (Tx.conclude cfg clock f.jobId conclusion) s.db).1 with
    | error e => exact follows_done
    | ok => exact h

lemma follows_recording {limit : ℕ} {env : RecordingWorkerService.Env}
    (h : Follows cfg text asked n after 0) :
    Follows cfg text asked n (RecordingWorkerService.runOnce cfg text limit env after) 0 := by
  refine follows_runOnce (.claimRecordings env.workerId limit env.query) (fun _ _ _ => rfl)
    (fun _ => trivial) (fun _ => rfl) (fun snapshot claim after mine h => ?_) h
  exact follows_conclude ⟨.recording snapshot, claim⟩ (.recording (env.answer snapshot.id)) rfl h

lemma follows_analysis {limit : ℕ} {env : LLMWorkerService.Env}
    (h : Follows cfg text asked n after 0) :
    Follows cfg text asked n (LLMWorkerService.runOnceTask cfg text limit env after) 0 := by
  refine follows_runOnce
    (.claimAnalyses env.workerId limit env.recovery env.query env.claimClock) (fun _ _ _ => rfl)
    (fun _ => trivial) (fun _ => rfl) (fun snapshot claim after mine h => ?_) h
  simp only [LLMWorkerService.processTask]
  cases LLMWorkerService.contextFromSnapshot text env.fromisoformat (env.turn snapshot.id).utcnow
    snapshot with
  -- the loop raises, and leaves its executions to nobody
  | error e => exact follows_done
  | ok ctx =>
    exact follows_conclude ⟨.analysis snapshot, claim⟩
      (.analysis ((env.turn snapshot.id).provider ctx) (env.turn snapshot.id).births) rfl h

/-- The `try` block of a result execution, after which the execution is another one. -/
lemma follows_processResult {snapshot : ClaimedResultJob} {claim : ℕ} {fault : Option PyError}
    {next : Except PyError Unit → TaskRun}
    (h : ∀ outcome, Follows cfg text asked n (next outcome)
      (⟨.processed snapshot (ResultWorkerService.raised outcome), claim⟩ ::ₘ mine, 0)) :
    Follows cfg text asked n (.transaction (ResultWorkerService.process snapshot fault) next)
      (⟨.result snapshot, claim⟩ ::ₘ mine, 0) := by
  intro s held
  obtain ⟨⟨k, found⟩, own, rest⟩ := exists_execution held
  refine ⟨.system (.processResult k fault), ⟨_, found⟩, ?_⟩
  rw [@Crew.step_processResult cfg text s n k n claim snapshot fault found]
  refine ⟨rfl, fun m ne => ?_, ?_⟩
  · simp only [Crew.hands, belongings_set found, belongings_of_getElem? found, if_neg ne.symm]
  · rw [belongings_of_getElem? found, if_pos rfl, Multiset.cons_inj_right] at own
    simp only [Crew.hands, belongings_set found, if_true, own, rest]
    exact h _

lemma follows_result {limit : ℕ} {env : ResultWorkerService.Env}
    (h : Follows cfg text asked n after 0) :
    Follows cfg text asked n (ResultWorkerService.runOnce cfg limit env after) 0 := by
  refine follows_runOnce (.claimResults env.workerId limit env.query) (fun _ _ _ => rfl)
    (fun _ => trivial) (fun _ => rfl) (fun snapshot claim after mine h => ?_) h
  refine follows_processResult fun outcome => ?_
  exact follows_conclude ⟨.processed snapshot (ResultWorkerService.raised outcome), claim⟩ .result
    rfl h

/-! ### Any tasks side by side -/

/-- The system can follow every task, which starts with nothing in its hands. -/
lemma follows_task (task : CeleryTask) : Follows cfg text asked n (task.run cfg text) 0 := by
  cases task with
  | processInteractionEndBackground payload birth env =>
    exact follows_andThen (.legacyTask payload birth) (fun _ _ _ => rfl) (fun _ => trivial)
      (fun _ => rfl) fun _ => follows_orchestrator follows_done
  | runWorkflowOrchestrator limit env => exact follows_orchestrator follows_done
  | runLlmWorker limit env => exact follows_analysis follows_done
  | runRecordingWorker limit env => exact follows_recording follows_done
  | runResultWorker limit env => exact follows_result follows_done
  | runAllWorkersOnce jobClaimBatchSize orchestrator recording llm result =>
    exact follows_orchestrator (follows_recording (follows_analysis (follows_result follows_done)))

/-- The second transaction of a webhook, whose failed wakeup it has in its hands. -/
lemma follows_wakeupFailed {job : InteractionJob} {failed : FailedWakeup} :
    Follows cfg text asked n (.andThen (wakeupFailed job failed) fun _ => .done)
      (0, {(job, failed)}) := by
  intro s held
  have own : belongings s.failures n = {(job, failed)} := congrArg Prod.snd held
  obtain ⟨k, found⟩ := exists_of_mem_belongings (own ▸ Multiset.mem_singleton_self _)
  refine ⟨.record k, ⟨_, found⟩, ?_⟩
  simp only [Crew.step, found]
  refine ⟨transact_eq_perform, fun m ne => ?_, ?_⟩
  · simp only [Crew.hands, belongings_of_getElem? found, if_neg ne.symm]
  · cases (perform (wakeupFailed job failed) s.db).1 <;> exact follows_done

lemma follows_endInteraction {request : EndRequest} (ask : asked request) :
    Follows cfg text asked n (endInteractionRun cfg text request) 0 := by
  intro s held
  refine ⟨.callEnds request, ask, ?_⟩
  have own : belongings s.executions n = 0 := congrArg Prod.fst held
  have rest : belongings s.failures n = 0 := congrArg Prod.snd held
  cases e : endInteraction cfg text request s.db with
  | error raised db =>
    simp only [Crew.step, commit, perform, e]
    exact ⟨trivial, fun _ _ => trivial, follows_done⟩
  | ok job db =>
    simp only [Crew.step, commit, perform, e, Crew.hands]
    refine ⟨trivial, fun m ne => by rw [belongings_append_other ne], ?_⟩
    rw [belongings_append_own, own, rest, zero_add]
    cases request.wakeup with
    | none => exact follows_done
    | some failed => exact follows_wakeupFailed

/-- What happens next: a process takes its next transaction, or its worker is lost, or a task is
delivered, for the first time or again, or a call ends. -/
inductive Broker where
  | next (n : ℕ)
  | lose (n : ℕ)
  | deliver (task : CeleryTask)
  | callEnds (request : EndRequest)

def Broker.event (cfg : Settings) (text : Text) : Broker → Pool.Event PyError Db
  | .next n => .next n
  | .lose n => .lose n
  | .deliver task => .start (task.run cfg text)
  | .callEnds request => .start (endInteractionRun cfg text request)

/-- The database after these events, with nothing running at first. -/
def underTasks (cfg : Settings) (text : Text) (db : Db) (events : List Broker) : Db :=
  ((events.map (Broker.event cfg text)).foldl Pool.step ⟨db, []⟩).state

/-- Whose transactions were taken in these events: the tasks and webhooks are named in the order in
which they started. -/
def takers (cfg : Settings) (text : Text) (db : Db) (events : List Broker) : List ℕ :=
  emitted Pool.step Pool.taker ⟨db, []⟩ (events.map (Broker.event cfg text))

/-- Whatever tasks and webhooks do side by side, the crew does as well, with one action in the name of
each whose transaction it is: every report is of an execution that a claim of the same task began, and
a failed wakeup is recorded by the webhook that was committed before it. If no wakeup fails, this is a
run of the system, which leads to the same database. -/
theorem tasks_refine (db : Db) (events : List Broker) :
    ∃ as s, Run (Crew.step cfg text) (Crew.Own (.callEnds · ∈ events)) (.idle db) as s ∧
      s.db = underTasks cfg text db events ∧ as.map Prod.fst = takers cfg text db events ∧
      ((∀ request, .callEnds request ∈ events → request.wakeup = none) →
        ∃ bs w, Run (World.step cfg text) Served ⟨db, []⟩ bs w ∧
          w.db = underTasks cfg text db events) := by
  have start : Represents (Crew.step cfg text) (Crew.Own (.callEnds · ∈ events)) Crew.db Crew.hands
      0 (.idle db) (⟨db, []⟩ : Pool PyError Db) :=
    ⟨rfl, fun _ _ found => (by cases found), fun _ _ => rfl⟩
  have startable : ∀ event ∈ events.map (Broker.event cfg text),
      Startable (Crew.step cfg text) (Crew.Own (.callEnds · ∈ events)) Crew.db Crew.hands 0 event := by
    intro event mem
    obtain ⟨b, came, rfl⟩ := List.mem_map.1 mem
    cases b with
    | next n => trivial
    | lose n => trivial
    | deliver task => exact fun _ => follows_task task
    | callEnds request => exact fun _ => follows_endInteraction came
  obtain ⟨as, s, run, represents, names⟩ := Pool.simulated start startable
  refine ⟨as, s, run, represents.same, names, fun woken => ?_⟩
  obtain ⟨-, bs, steps⟩ := Crew.run_world run rfl woken
  exact ⟨bs, s.world, steps, represents.same⟩

end PostCall.Properties
