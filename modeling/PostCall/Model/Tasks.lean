import PostCall.Library.Process
import PostCall.Model.World

/-!
# The tasks

`src/tasks/celery_tasks.py`, with `run_once` of the recording, the LLM and the result worker. A task is
a process on the database: the loops stand between the transactions, and an exception that nothing
catches ends the task. What a task returns is left out, since nothing reads it. What the environment
decides is an argument, by the id of the job where it is about one.
-/

namespace PostCall.Model
open PostCall.Library PostCall.Python

/-- A task, or a part of one. -/
abbrev TaskRun := Process PyError Db

/-- A transaction, and what comes after it unless it raises. -/
def TaskRun.andThen {α : Type} (x : Tx α) (after : α → TaskRun) : TaskRun :=
  .transaction x fun
    | .ok a => after a
    | .error _ => .done

/-- `for snapshot in snapshots`. -/
def TaskRun.forEach {α : Type} (process : α → TaskRun → TaskRun) : List α → TaskRun → TaskRun
  | [], after => after
  | snapshot :: snapshots, after => process snapshot (forEach process snapshots after)

/-- `run_once` of a worker that claims in a transaction of its own. -/
def TaskRun.runOnce {α : Type} (claim : Tx (List α)) (process : α → TaskRun → TaskRun)
    (after : TaskRun) : TaskRun :=
  .andThen claim fun snapshots => forEach process snapshots after

/-- What the environment decides about a run of the orchestrator. -/
structure OrchestratorRun where
  workerId : String
  recovery : RecoveryClock
  query : ClaimQuery
  run : UUID → JobRun

/-- `_run_orchestrator`. -/
def runOrchestrator (cfg : Settings) (text : Text) (limit : ℕ) (env : OrchestratorRun)
    (after : TaskRun) : TaskRun :=
  .andThen (WorkflowOrchestrator.runOnce cfg text env.workerId limit env.recovery env.query env.run)
    fun _ => after

namespace RecordingWorkerService

structure Env where
  workerId : String
  query : ClaimQuery
  clock : UUID → Clock
  answer : UUID → ExotelAnswer

/-- `_process`: the poll, and the transaction that reports it. -/
def processTask (cfg : Settings) (text : Text) (env : Env) (snapshot : ClaimedRecordingJob)
    (after : TaskRun) : TaskRun :=
  let clock := env.clock snapshot.id
  .andThen (Tx.conclude cfg clock snapshot.id
    (process cfg text clock snapshot (env.answer snapshot.id))) fun _ => after

def runOnce (cfg : Settings) (text : Text) (limit : ℕ) (env : Env) (after : TaskRun) : TaskRun :=
  .runOnce (claimJobs env.workerId limit env.query) (processTask cfg text env) after

end RecordingWorkerService

namespace LLMWorkerService

structure Env where
  workerId : String
  recovery : RecoveryClock
  query : ClaimQuery
  claimClock : UUID → Clock
  fromisoformat : String → Except PyError Time
  turn : UUID → Turn

/-- `_process_snapshot`: the context, the call of the provider, and the transaction that reports it. -/
def processTask (cfg : Settings) (text : Text) (env : Env) (snapshot : ClaimedLLMJob)
    (after : TaskRun) : TaskRun :=
  let turn := env.turn snapshot.id
  match contextFromSnapshot text env.fromisoformat turn.utcnow snapshot with
  | .error _ => .done
  | .ok ctx =>
    .andThen (Tx.conclude cfg turn.clock snapshot.id
      (processSnapshot cfg text turn.births turn.clock snapshot (turn.provider ctx))) fun _ => after

def runOnceTask (cfg : Settings) (text : Text) (limit : ℕ) (env : Env) (after : TaskRun) :
    TaskRun :=
  .runOnce (claimAdmittedJobs cfg env.workerId limit env.recovery env.query env.claimClock)
    (processTask cfg text env) after

end LLMWorkerService

namespace ResultWorkerService

structure Env where
  workerId : String
  query : ClaimQuery
  clock : UUID → Clock
  fault : UUID → Option PyError

/-- What a `try` block raised. -/
def raised : Except PyError Unit → Option PyError
  | .ok _ => none
  | .error e => some e

/-- `_process`: the `try` block, and the transaction that reports it. -/
def processTask (cfg : Settings) (env : Env) (snapshot : ClaimedResultJob) (after : TaskRun) :
    TaskRun :=
  let clock := env.clock snapshot.id
  .transaction (process snapshot (env.fault snapshot.id)) fun outcome =>
    TaskRun.andThen (Tx.conclude cfg clock snapshot.id (report clock snapshot (raised outcome)))
      fun _ => after

def runOnce (cfg : Settings) (limit : ℕ) (env : Env) (after : TaskRun) : TaskRun :=
  .runOnce (claimJobs env.workerId limit env.query) (processTask cfg env) after

end ResultWorkerService

/-- The tasks of the broker, with what the environment decides about each. The limit of the first, and
that of the LLM worker in the last, are those of the source. -/
inductive CeleryTask where
  | processInteractionEndBackground (payload : Dict) (birth : Birth) (env : OrchestratorRun)
  | runWorkflowOrchestrator (limit : ℕ) (env : OrchestratorRun)
  | runLlmWorker (limit : ℕ) (env : LLMWorkerService.Env)
  | runRecordingWorker (limit : ℕ) (env : RecordingWorkerService.Env)
  | runResultWorker (limit : ℕ) (env : ResultWorkerService.Env)
  | runAllWorkersOnce (jobClaimBatchSize : ℕ) (orchestrator : OrchestratorRun)
      (recording : RecordingWorkerService.Env) (llm : LLMWorkerService.Env)
      (result : ResultWorkerService.Env)

/-- The webhook: its transaction, and one more when the wakeup of the worker fails. -/
def endInteractionRun (cfg : Settings) (text : Text) (request : EndRequest) : TaskRun :=
  .andThen (endInteraction cfg text request) fun job =>
    match request.wakeup with
    | none => .done
    | some failed => .andThen (wakeupFailed job failed) fun _ => .done

def CeleryTask.run (cfg : Settings) (text : Text) : CeleryTask → TaskRun
  | .processInteractionEndBackground payload birth env =>
    .andThen (persistLegacyPayload cfg text payload birth) fun _ =>
      runOrchestrator cfg text 1 env .done
  | .runWorkflowOrchestrator limit env => runOrchestrator cfg text limit env .done
  | .runLlmWorker limit env => LLMWorkerService.runOnceTask cfg text limit env .done
  | .runRecordingWorker limit env => RecordingWorkerService.runOnce cfg text limit env .done
  | .runResultWorker limit env => ResultWorkerService.runOnce cfg limit env .done
  | .runAllWorkersOnce jobClaimBatchSize orchestrator recording llm result =>
    runOrchestrator cfg text jobClaimBatchSize orchestrator <|
    RecordingWorkerService.runOnce cfg text jobClaimBatchSize recording <|
    LLMWorkerService.runOnceTask cfg text 10 llm <|
    ResultWorkerService.runOnce cfg jobClaimBatchSize result .done

end PostCall.Model
