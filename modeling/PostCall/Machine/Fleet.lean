import PostCall.Machine.Frame
import PostCall.Machine.Ledger

/-!
# The calls of the provider

Any number of LLM workers, each of which claims a batch and then calls the provider for one job of it
after another. A reservation is charged to the window that the claim reads; a call starts when the
worker comes to the job. The times of both are the environment's, as is how long a call takes.
`elsewhere` is what the rest of the system does, which leaves the ledger alone. The calls that have
started, newest first, and the window of a reservation are history variables.
-/

namespace PostCall.Machine
open PostCall.Library PostCall.Python PostCall.Model LLMWorkerService

/-- What a minute window has a limit of. -/
inductive Resource where
  | tokens
  | requests

namespace Resource

/-- The column that counts what is reserved. -/
def counter : Resource → Counter
  | .tokens => .reservedTokens
  | .requests => .requestsReserved

def limit (cfg : Settings) : Resource → ℕ
  | .tokens => cfg.llmTokensPerMinute
  | .requests => cfg.llmRequestsPerMinute

/-- What a call with this estimate is charged. -/
def cost (tokenEstimate : ℤ) : Resource → ℤ
  | .tokens => max tokenEstimate 1
  | .requests => 1

lemma cost_nonneg {tokenEstimate : ℤ} (r : Resource) : 0 ≤ r.cost tokenEstimate := by
  cases r with
  | tokens => exact le_trans zero_le_one (le_max_right _ _)
  | requests => exact zero_le_one

lemma reserved_counter {tokenEstimate : ℤ} (r : Resource) :
    reserved (max tokenEstimate 1) r.counter = r.cost tokenEstimate := by
  cases r <;> rfl

end Resource

/-- An admitted job, and the window that its reservation was charged to. -/
structure Reservation where
  snapshot : ClaimedLLMJob
  windowStart : Time

/-- A call of the provider, and when it started. -/
structure ProviderCall where
  snapshot : ClaimedLLMJob
  startedAt : Time

/-- A worker: the jobs of its batch that are still to come, and the one whose call is going on. -/
structure LlmWorker where
  pending : List Reservation
  calling : Option ClaimedLLMJob

namespace LlmWorker

/-- A worker between two batches. -/
def idle : LlmWorker := ⟨[], none⟩

/-- The job whose call comes next, if none is going on. -/
def next? : LlmWorker → Option Reservation
  | ⟨next :: _, none⟩ => some next
  | _ => none

end LlmWorker

structure Fleet where
  db : Db
  workers : List LlmWorker
  calls : List ProviderCall

/-- What the `n`th worker does next, or what happens elsewhere. -/
inductive FleetAction where
  | claim (n : ℕ) (workerId : String) (limit : ℕ) (recovery : RecoveryClock) (query : ClaimQuery)
      (clock : UUID → Clock)
  | start (n : ℕ) (now : Time)
  | finish (n : ℕ) (outcome : ProviderOutcome) (births : ChildSlot → Birth) (clock : Clock)
  | crash (n : ℕ)
  | elsewhere (db : Db)

namespace Fleet

/-- Idle workers, before anything was counted. -/
def init (db : Db) (workers : ℕ) : Fleet :=
  ⟨{ db with usage := .empty }, List.replicate workers .idle, []⟩

/-- The reservations of a batch. -/
def reservations (clock : UUID → Clock) (snapshots : List ClaimedLLMJob) : List Reservation :=
  snapshots.map fun snapshot => ⟨snapshot, minuteWindow (clock snapshot.id 0)⟩

/-- The claim of an idle worker. -/
def claim (s : Fleet) (n : ℕ) (clock : UUID → Clock)
    (x : Tx (List ClaimedLLMJob)) : Fleet :=
  match s.workers[n]? with
  | some ⟨[], none⟩ =>
    match commit x s.db with
    | some (admitted, db) =>
      { s with db := db, workers := s.workers.set n ⟨reservations clock admitted, none⟩ }
    | none => s
  | _ => s

/-- The next job of a batch: its context is built, and the provider is called. -/
def start (text : Text) (fromisoformat : String → Except PyError Time) (s : Fleet) (n : ℕ)
    (now : Time) : Fleet :=
  match s.workers[n]? with
  | some ⟨next :: pending, none⟩ =>
    match contextFromSnapshot text fromisoformat now next.snapshot with
    | .ok _ => { s with
        workers := s.workers.set n ⟨pending, some next.snapshot⟩
        calls := ⟨next.snapshot, now⟩ :: s.calls }
    | .error _ => { s with workers := s.workers.set n .idle }
  | _ => s

/-- The end of a call, with the last transaction of the job. If that raises, so does the loop. -/
def finish (cfg : Settings) (text : Text) (s : Fleet) (n : ℕ) (outcome : ProviderOutcome)
    (births : ChildSlot → Birth) (clock : Clock) : Fleet :=
  match s.workers[n]? with
  | some ⟨pending, some snapshot⟩ =>
    match attempt (Tx.conclude cfg clock snapshot.id
        (processSnapshot cfg text births clock snapshot outcome)) s.db with
    | .ok db => { s with db := db, workers := s.workers.set n ⟨pending, none⟩ }
    | .error _ => { s with workers := s.workers.set n .idle }
  | _ => s

/-- The end of a call that the worker does not make. -/
lemma finish_of_idle {cfg : Settings} {text : Text} {s : Fleet} {n : ℕ} {outcome : ProviderOutcome}
    {births : ChildSlot → Birth} {clock : Clock}
    (idle : ¬ ∃ pending snapshot, s.workers[n]? = some ⟨pending, some snapshot⟩) :
    s.finish cfg text n outcome births clock = s := by
  unfold finish
  split
  case h_1 pending snapshot found => exact absurd ⟨pending, snapshot, found⟩ idle
  case h_2 => rfl

/-- One action. -/
def step (cfg : Settings) (text : Text) (fromisoformat : String → Except PyError Time) (s : Fleet) :
    FleetAction → Fleet
  | .claim n workerId limit recovery query clock =>
    s.claim n clock (claimAdmittedJobs cfg workerId limit recovery query clock)
  | .start n now => s.start text fromisoformat n now
  | .finish n outcome births clock => s.finish cfg text n outcome births clock
  | .crash n => { s with workers := s.workers.set n .idle }
  | .elsewhere db => { s with db := { db with usage := s.db.usage } }

end Fleet

/-! ### What the end of a job leaves of the ledger -/

/-- Nothing more was reserved. -/
def SameReserved (db db' : Db) : Prop :=
  ∀ k (r : Resource), counter db'.usage k r.counter = counter db.usage k r.counter

instance : IsPreorder Db SameReserved where
  refl _ _ _ := rfl
  trans _ _ _ h h' k r := (h' k r).trans (h k r)

section Programs

variable {cfg : Settings} {text : Text} {db db' : Db} {births : ChildSlot → Birth} {clock : Clock}

lemma SameReserved.of_usage (h : db'.usage = db.usage) : SameReserved db db' :=
  fun _ _ => by rw [h]

lemma reserved_of_books {α : Type} {x : Tx α} (h : Within SameBooks x) : Within SameReserved x :=
  h.mono fun _ _ books => .of_usage books.usage

lemma reserved_recordUsage {usage : UsageTable} {customer : UUID} {tokens : Number} {now : Time}
    {budget : Option ℤ} (h : db.usage.recordUsage cfg customer tokens now budget = .ok usage) :
    SameReserved db { db with usage := usage } := by
  intro k r
  have none : used 0 r.counter = 0 := by cases r <;> rfl
  have other : r.counter ≠ .usedTokens := by cases r <;> exact Counter.noConfusion
  rw [(recordUsage_recorded h).counter_of_ne other, none, ite_self, ite_self, add_zero, add_zero]

lemma reserved_recordAnalysis {snapshot : ClaimedLLMJob} {result : AnalysisResult} :
    Within SameReserved (recordAnalysis cfg text clock snapshot result) := by
  refine .bind (.modify fun _ => .of_usage rfl) fun _ => ?_
  refine .bind .ofExcept fun tokensUsed => .bind .ofExcept fun budget => ?_
  intro db
  rw [Program.bind_of_ok Program.get_run]
  cases recorded : db.usage.recordUsage cfg snapshot.customerId tokensUsed (clock 1) budget with
  | error e => exact refl_of SameReserved db
  | ok usage =>
    refine trans_of SameReserved (reserved_recordUsage recorded) ?_
    rw [Program.ofExcept_ok, pure_bind, Program.bind_of_ok Program.modify_run]
    split
    · exact refl_of SameReserved _
    · exact refl_of SameReserved _

lemma reserved_succeed {snapshot : ClaimedLLMJob} {result : AnalysisResult} {job : InteractionJob} :
    Within SameReserved (succeed cfg text births clock snapshot result job) := by
  refine .bind reserved_recordAnalysis fun _ => ?_
  refine .bind (reserved_of_books books_markSucceeded) fun _ => ?_
  refine .bind (reserved_of_books books_queueResultJobs) fun _ => ?_
  split
  · exact .throw
  · exact reserved_of_books books_emit

/-- The last transaction of a job reserves nothing. -/
theorem reserved_conclude {snapshot : ClaimedLLMJob} {outcome : ProviderOutcome} :
    Within SameReserved (Tx.conclude cfg clock snapshot.id
      (processSnapshot cfg text births clock snapshot outcome)) := by
  unfold processSnapshot
  cases processPostCall cfg outcome with
  | error failure => exact reserved_of_books books_handleFailure
  | ok result =>
    refine .bind .get fun _ => ?_
    split
    · exact .pure
    · split
      · exact reserved_succeed
      · exact .pure

end Programs

end PostCall.Machine
