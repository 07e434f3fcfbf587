import PostCall.Machine.Fleet
import PostCall.Machine.Totals

/-!
# The account of the calls

What the workers have reserved and not been answered yet, and the analyses that they have processed, as
history variables over the workers: which window each reservation was charged to, in which window the
analysis was processed, and whether the ledger recorded it.
-/

namespace PostCall.Machine
open PostCall.Library PostCall.Python PostCall.Model LLMWorkerService

/-- A number of tokens, as the ledger adds it; what is no number is none. -/
def asCount (j : Json) : Number :=
  match Json.asTokens j with
  | .ok tokens => tokens
  | .error _ => .int 0

/-- The tokens that an analysis says it took. -/
def totalTokens (cfg : Settings) (response : Dict) : Number :=
  match parseResponse cfg response with
  | .ok result => asCount result.tokensUsed
  | .error _ => .int 0

/-- Whether the row of a job is running. -/
def isRunning (db : Db) (id : UUID) : Bool := (db.queue.get? id).any (·.status = .running)

/-- An analysis that a call gave and a worker has processed. -/
structure Response where
  customerId : UUID
  recorded : Bool
  reservedIn : Time
  processedIn : Time

structure Account where
  fleet : Fleet
  held : List (List Reservation)
  responses : List Response

/-- The reservations of a worker that have not been answered, the one of the call going on before
those to come. -/
def regroup (worker : LlmWorker) (held : List Reservation) : List Reservation :=
  match worker.calling with
  | none => worker.pending
  | some _ => held

namespace Account

/-- The account of idle workers. -/
def init (db : Db) (workers : ℕ) : Account := ⟨.init db workers, List.replicate workers [], []⟩

/-- The analysis that an action processes. -/
def response? (cfg : Settings) (text : Text) (s : Account) : FleetAction → Option Response
  | .finish n (.returns response) births clock =>
    match s.fleet.workers[n]?, s.held[n]? with
    | some ⟨_, some snapshot⟩, some (reservation :: _) =>
      let committed := (attempt (Tx.conclude cfg clock snapshot.id
        (processSnapshot cfg text births clock snapshot (.returns response))) s.fleet.db).isOk
      some {
        customerId := snapshot.customerId
        recorded := isRunning s.fleet.db snapshot.id && (parseResponse cfg response).isOk && committed
        reservedIn := reservation.windowStart
        processedIn := minuteWindow (clock 1) }
    | _, _ => none
  | _ => none

/-- One action, and what the account has of it. -/
def step (cfg : Settings) (text : Text) (fromisoformat : String → Except PyError Time) (s : Account)
    (a : FleetAction) : Account :=
  let fleet := s.fleet.step cfg text fromisoformat a
  ⟨fleet, List.zipWith regroup fleet.workers s.held, (s.response? cfg text a).toList ++ s.responses⟩

end Account

/-! ### What a response leaves of the ledger -/

variable {cfg : Settings} {text : Text} {fromisoformat : String → Except PyError Time} {db db' : Db}
  {births : ChildSlot → Birth} {clock : Clock} {snapshot : ClaimedLLMJob}

/-- The ledger is as before. -/
def SameUsage (db db' : Db) : Prop := db'.usage = db.usage

instance : IsPreorder Db SameUsage where
  refl _ := rfl
  trans _ _ _ h h' := h'.trans h

/-- What leaves the books alone leaves the ledger alone. -/
lemma usage_of_books {α : Type} {x : Tx α} (h : Within SameBooks x) : Within SameUsage x :=
  h.mono fun _ _ books => books.usage

/-- The analysis of a running job is recorded with its tokens. -/
lemma recorded_succeed {result : AnalysisResult} {job : InteractionJob} {u : Unit}
    (h : succeed cfg text births clock snapshot result job db = .ok u db') :
    ∃ tokens, Json.asTokens result.tokensUsed = .ok tokens ∧
      Debited db.usage db'.usage snapshot.customerId (minuteWindow (clock 1)) tokens := by
  obtain ⟨tokens, s, recorded, rest⟩ := Program.bind_ok.1 h
  have nonneg : 0 ≤ tokens.val := by
    obtain ⟨job', s₁, _, rest⟩ := Program.bind_ok.1 rest
    obtain ⟨_, s₂, _, rest⟩ := Program.bind_ok.1 rest
    split at rest
    case isTrue => cases rest
    case isFalse nonneg => exact not_lt.1 nonneg
  have after : SameUsage s db' := by
    refine Within.of_ok (Within.bind (usage_of_books books_markSucceeded) fun _ =>
      .bind (usage_of_books books_queueResultJobs) fun _ => ?_) rest
    split
    · exact .throw
    · exact usage_of_books books_emit
  unfold recordAnalysis at recorded
  rw [Program.bind_of_ok Program.modify_run] at recorded
  obtain ⟨_, _, read, recorded⟩ := Program.bind_ok.1 recorded
  obtain ⟨counted, rfl⟩ := Program.ofExcept_run_ok.1 read
  obtain ⟨budget, _, read, recorded⟩ := Program.bind_ok.1 recorded
  obtain ⟨_, rfl⟩ := Program.ofExcept_run_ok.1 read
  rw [Program.bind_of_ok Program.get_run] at recorded
  obtain ⟨usage, _, read, recorded⟩ := Program.bind_ok.1 recorded
  obtain ⟨charged, rfl⟩ := Program.ofExcept_run_ok.1 read
  rw [Program.bind_of_ok Program.modify_run] at recorded
  split at recorded
  case isFalse => cases recorded
  case isTrue =>
    cases recorded
    refine ⟨tokens, counted, ?_⟩
    rw [show db'.usage = usage from after]
    exact ⟨recordUsage_recorded charged, inRange_recordUsage charged, nonneg⟩

/-- What the `try` block returns is the analysis of an answer. -/
lemma of_processPostCall {outcome : ProviderOutcome} {result : AnalysisResult}
    (h : processPostCall cfg outcome = .ok result) :
    ∃ response, outcome = .returns response ∧ parseResponse cfg response = .ok result := by
  cases outcome with
  | returns response =>
    simp only [processPostCall] at h
    split at h
    case h_2 => cases h
    case h_1 parsed =>
      cases h
      exact ⟨response, rfl, parsed⟩
  | rateLimited => cases h
  | raises => cases h

/-- A failure is not recorded. -/
lemma usage_of_failure {failure : Failure} {jobId : UUID} :
    Within SameUsage (Tx.conclude cfg clock jobId (.error failure)) :=
  usage_of_books books_handleFailure

/-- A response is recorded if it can be read and its job is running. -/
theorem usage_of_response {response : Dict} {u : Unit}
    (h : Tx.conclude cfg clock snapshot.id
      (processSnapshot cfg text births clock snapshot (.returns response)) db = .ok u db') :
    if isRunning db snapshot.id ∧ (parseResponse cfg response).isOk then
      Debited db.usage db'.usage snapshot.customerId (minuteWindow (clock 1))
        (totalTokens cfg response)
    else SameUsage db db' := by
  cases read : parseResponse cfg response with
  | error e =>
    simp only [processSnapshot, processPostCall, read] at h
    rw [if_neg (by simp [Except.isOk, Except.toBool])]
    exact usage_of_failure.of_ok h
  | ok result =>
    simp only [processSnapshot, processPostCall, read] at h
    change complete cfg text births clock snapshot result db = .ok u db' at h
    rw [complete, Program.bind_of_ok Program.get_run] at h
    cases found : db.queue.get? snapshot.id with
    | none =>
      rw [found] at h
      cases h
      simp [isRunning, found, SameUsage]
    | some job =>
      simp only [found] at h
      by_cases running : job.status = .running
      · rw [if_pos running] at h
        obtain ⟨tokens, counted, charged⟩ := recorded_succeed h
        rw [if_pos (by simp [isRunning, found, running, Except.isOk, Except.toBool])]
        simpa only [totalTokens, asCount, read, counted] using charged
      · rw [if_neg running] at h
        cases h
        simp [isRunning, found, running, SameUsage]

/-- Nothing else that the provider does is recorded. -/
lemma usage_of_outcome {outcome : ProviderOutcome} (silent : ∀ response, outcome ≠ .returns response) :
    Within SameUsage (Tx.conclude cfg clock snapshot.id
      (processSnapshot cfg text births clock snapshot outcome)) := by
  cases outcome with
  | returns response => exact absurd rfl (silent response)
  | rateLimited => exact usage_of_failure
  | raises => exact usage_of_failure

/-! ### What is held -/

/-- What is held of a worker: what is pending, and before it the reservation of its call. -/
inductive HeldBy : LlmWorker → List Reservation → Prop where
  | waiting {pending} :
    HeldBy ⟨pending, none⟩ pending
  | calling {pending snapshot windowStart} :
    HeldBy ⟨pending, some snapshot⟩ (⟨snapshot, windowStart⟩ :: pending)

/-- A worker that has done nothing holds what it has held. -/
lemma HeldBy.regroup {worker : LlmWorker} {held : List Reservation} (h : HeldBy worker held) :
    regroup worker held = held := by
  cases h <;> rfl

/-- What is held of the workers of the fleet. -/
def Linked (s : Account) : Prop := List.Forall₂ HeldBy s.fleet.workers s.held

section Held

variable {workers : List LlmWorker} {held : List (List Reservation)} {n : ℕ} {worker : LlmWorker}
  {old : List Reservation}

lemma zipWith_regroup (h : List.Forall₂ HeldBy workers held) :
    List.zipWith regroup workers held = held := by
  induction h with
  | nil => rfl
  | cons first _ ih => rw [List.zipWith_cons_cons, first.regroup, ih]

/-- One worker goes on. -/
lemma zipWith_regroup_set (h : List.Forall₂ HeldBy workers held) (hn : held[n]? = some old) :
    List.zipWith regroup (workers.set n worker) held = held.set n (regroup worker old) := by
  induction h generalizing n with
  | nil => cases hn
  | @cons _ _ workers held first rest ih =>
    cases n with
    | zero =>
      obtain rfl := Option.some.inj hn
      simp only [List.set_cons_zero, List.zipWith_cons_cons, zipWith_regroup rest]
    | succ n => simp only [List.set_cons_succ, List.zipWith_cons_cons, first.regroup, ih hn]

/-- What a worker holds is in its place. -/
lemma heldBy_of_getElem? (h : List.Forall₂ HeldBy workers held) (hn : workers[n]? = some worker) :
    ∃ old, held[n]? = some old ∧ HeldBy worker old := by
  induction h generalizing n with
  | nil => cases hn
  | cons first _ ih =>
    cases n with
    | zero =>
      obtain rfl := Option.some.inj hn
      exact ⟨_, rfl, first⟩
    | succ n => exact ih hn

/-- One worker goes on, with what it holds then. -/
lemma linked_set {left : List Reservation} (h : List.Forall₂ HeldBy workers held)
    (of : HeldBy worker left) :
    List.Forall₂ HeldBy (workers.set n worker) (held.set n left) := by
  induction h generalizing n with
  | nil => exact .nil
  | cons first rest ih =>
    cases n with
    | zero => exact .cons of rest
    | succ n => exact .cons first ih

end Held

end PostCall.Machine
