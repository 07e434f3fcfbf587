import Mathlib.Data.List.InsertIdx
import PostCall.Machine.Keys
import PostCall.Model.Tasks

/-!
# The system with names

The system, with who takes its actions. An execution belongs to the one whose claim began it, and a
wakeup that failed to the webhook whose transaction was committed before it. The two transactions of a
webhook are actions of their own here, since others may come between them.
-/

namespace PostCall.Machine
open PostCall.Library PostCall.Python PostCall.Model

/-- The database, the executions in flight with their owners, and the wakeups that failed and have not
been recorded yet, with theirs. -/
structure Crew where
  db : Db
  executions : List (ℕ × InFlight)
  failures : List (ℕ × InteractionJob × FailedWakeup)

/-- What someone does: an action of the system, or one of the two transactions of a webhook. -/
inductive CrewAction where
  | system (a : Action)
  | callEnds (request : EndRequest)
  | record (k : ℕ)

namespace Crew

/-- Nobody has anything to do. -/
def idle (db : Db) : Crew := ⟨db, [], []⟩

/-- The system, without the names. -/
def world (s : Crew) : World := ⟨s.db, s.executions.map Prod.snd⟩

/-- Whose the executions are, after an action of `n` that has left this many in flight. -/
def owners (s : Crew) (n : ℕ) (left : ℕ) : Action → List ℕ
  | .report k _ _ =>
    if left < s.executions.length then (s.executions.map Prod.fst).eraseIdx k
    else s.executions.map Prod.fst
  | .crash k => (s.executions.map Prod.fst).eraseIdx k
  | _ => s.executions.map Prod.fst ++ List.replicate (left - s.executions.length) n

/-- One action, and in whose name. -/
def step (cfg : Settings) (text : Text) (s : Crew) : ℕ × CrewAction → Crew
  | (n, .system a) =>
    let w := World.step cfg text s.world a
    { s with db := w.db, executions := (s.owners n w.inflight.length a).zip w.inflight }
  | (n, .callEnds request) =>
    match commit (endInteraction cfg text request) s.db with
    | some (job, db) => { s with
        db := db
        failures := s.failures ++ (request.wakeup.toList.map (job, ·)).map (n, ·) }
    | none => s
  | (_, .record k) =>
    match s.failures[k]? with
    | some (_, job, failed) => { s with
        db := World.transact s.db (wakeupFailed job failed)
        failures := s.failures.eraseIdx k }
    | none => s

/-- Everyone goes on with executions that his own claims began, and records the failures of his own
wakeups. Jobs are created by tasks and by the webhooks that are asked for. -/
def Own (asked : EndRequest → Prop) (s : Crew) : ℕ × CrewAction → Prop
  | (n, .system (.report k _ _)) => ∃ f, s.executions[k]? = some (n, f)
  | (n, .system (.processResult k _)) => ∃ f, s.executions[k]? = some (n, f)
  | (_, .system (.createIfAbsent _)) => False
  | (_, .system (.endInteraction _)) => False
  | (_, .system (.crash _)) => False
  | (_, .system _) => True
  | (_, .callEnds request) => asked request
  | (n, .record k) => ∃ failure, s.failures[k]? = some (n, failure)

/-- What someone has in hand. -/
def hands (s : Crew) (n : ℕ) : Multiset InFlight × Multiset (InteractionJob × FailedWakeup) :=
  (belongings s.executions n, belongings s.failures n)

variable {cfg : Settings} {text : Text} {s s' : Crew} {n k : ℕ} {a : Action}
  {asked : EndRequest → Prop}

/-! ### What an action does to the owners -/

/-- The action ends no execution. -/
def Keeps (a : Action) : Prop :=
  ∀ s : Crew, ∀ n left, s.owners n left a =
    s.executions.map Prod.fst ++ List.replicate (left - s.executions.length) n

/-- The owners of as many executions as before are those from before. -/
lemma zip_owners (keeps : Keeps a) :
    (s.owners n s.world.inflight.length a).zip s.world.inflight = s.executions := by
  refine (List.zip_of_prod ?_ rfl).symm
  rw [keeps, world, List.length_map, Nat.sub_self, List.replicate_zero, List.append_nil]

/-- A transaction that begins and ends no execution. -/
lemma step_transact {α : Type} {x : Tx α} (keeps : Keeps a)
    (same : ∀ w, World.step cfg text w a = { w with db := World.transact w.db x }) :
    s.step cfg text (n, .system a) = { s with db := World.transact s.db x } := by
  simp only [step, same, zip_owners keeps]
  rfl

/-- A claim begins its executions in the name of who made it. -/
lemma step_claim {α : Type} {claim : Tx (List α)} {work : α → Work} {snapshots : List α} {db : Db}
    (keeps : Keeps a) (same : ∀ w, World.step cfg text w a = w.claim claim work)
    (e : claim s.db = .ok snapshots db) :
    s.step cfg text (n, .system a) = { s with
      db := db
      executions := s.executions ++ ((snapshots.map work).map fun work =>
        (⟨work, db.queue.timesClaimed work.jobId⟩ : InFlight)).map (n, ·) } := by
  have claimed : s.world.claim claim work = ⟨db, s.executions.map Prod.snd ++
      (snapshots.map work).map fun work => ⟨work, db.queue.timesClaimed work.jobId⟩⟩ := by
    simp only [World.claim, commit, world, e]
  simp only [step, same, claimed]
  rw [keeps]
  generalize ((snapshots.map work).map fun work =>
    (⟨work, db.queue.timesClaimed work.jobId⟩ : InFlight)) = begun
  congr 1
  refine (List.zip_of_prod ?_ ?_).symm
  · rw [List.map_append, List.map_map, List.length_append, List.length_map, Nat.add_sub_cancel_left]
    congr 1
    exact List.map_const' ..
  · rw [List.map_append, List.map_map]
    exact congrArg _ (List.map_id _)

/-- A claim that raises begins nothing. -/
lemma step_claim_error {α : Type} {claim : Tx (List α)} {work : α → Work} {raised : PyError}
    {db : Db} (keeps : Keeps a) (same : ∀ w, World.step cfg text w a = w.claim claim work)
    (e : claim s.db = .error raised db) : s.step cfg text (n, .system a) = s := by
  have unclaimed : s.world.claim claim work = s.world := by
    simp only [World.claim, commit, world, e]
  simp only [step, same, unclaimed, zip_owners keeps]
  rfl

/-- A report ends its execution. -/
lemma step_report {m : ℕ} {f : InFlight} {outcome : Outcome} {clock : Clock}
    {conclusion : Except Failure (Tx Unit)} (found : s.executions[k]? = some (m, f))
    (concludes : f.work.conclusion cfg text clock outcome = some conclusion) :
    s.step cfg text (n, .system (.report k outcome clock)) = { s with
      db := World.transact s.db (Tx.conclude cfg clock f.jobId conclusion)
      executions := s.executions.eraseIdx k } := by
  obtain ⟨lt, _⟩ := List.getElem?_eq_some_iff.1 found
  have inflight : s.world.inflight[k]? = some f := by
    rw [world, List.getElem?_map, found]
    rfl
  have reported : World.step cfg text s.world (.report k outcome clock) =
      ⟨World.transact s.db (Tx.conclude cfg clock f.jobId conclusion),
        (s.executions.map Prod.snd).eraseIdx k⟩ := by
    simp only [World.step, World.report, inflight, concludes]
    rfl
  have less : ((s.executions.map Prod.snd).eraseIdx k).length < s.executions.length := by
    rw [List.length_eraseIdx, List.length_map, if_pos lt]
    omega
  simp only [step, reported, owners, if_pos less]
  congr 1
  refine (List.zip_of_prod ?_ ?_).symm
  · exact (List.eraseIdx_map _ _ _).symm
  · exact (List.eraseIdx_map _ _ _).symm

/-- The `try` block of a result execution leaves another execution of the same owner. -/
lemma step_processResult {m claim : ℕ} {snapshot : ClaimedResultJob} {fault : Option PyError}
    (found : s.executions[k]? = some (m, ⟨.result snapshot, claim⟩)) :
    s.step cfg text (n, .system (.processResult k fault)) = { s with
      db := (perform (ResultWorkerService.process snapshot fault) s.db).2
      executions := s.executions.set k (m, ⟨.processed snapshot (ResultWorkerService.raised
        (perform (ResultWorkerService.process snapshot fault) s.db).1), claim⟩) } := by
  obtain ⟨lt, owned⟩ := List.getElem?_eq_some_iff.1 found
  have inflight : s.world.inflight[k]? = some ⟨.result snapshot, claim⟩ := by
    rw [world, List.getElem?_map, found]
    rfl
  have processed : World.step cfg text s.world (.processResult k fault) =
      ⟨(perform (ResultWorkerService.process snapshot fault) s.db).2,
        (s.executions.map Prod.snd).set k ⟨.processed snapshot (ResultWorkerService.raised
          (perform (ResultWorkerService.process snapshot fault) s.db).1), claim⟩⟩ := by
    simp only [World.step, World.processResult, inflight, perform]
    simp only [world]
    cases ResultWorkerService.process snapshot fault s.db <;> rfl
  simp only [step, processed, owners]
  congr 1
  -- the place has the owner that it had
  have kept : (s.executions.map Prod.fst).set k m = s.executions.map Prod.fst := by
    refine List.ext_getElem? fun i => ?_
    rw [List.getElem?_set]
    split
    case isTrue e => simp [← e, lt, owned]
    case isFalse => rfl
  refine (List.zip_of_prod ?_ ?_).symm
  · rw [List.map_set, kept, List.length_set, List.length_map, Nat.sub_self, List.replicate_zero,
      List.append_nil]
  · exact List.map_set ..

/-! ### Without the names -/

/-- No action is left with fewer owners than executions. -/
lemma length_le_owners (own : Own asked s (n, .system a)) :
    (World.step cfg text s.world a).inflight.length ≤
      (s.owners n (World.step cfg text s.world a).inflight.length a).length := by
  cases a with
  | report k outcome clock =>
    obtain ⟨f, found⟩ := own
    obtain ⟨lt, _⟩ := List.getElem?_eq_some_iff.1 found
    have le : (World.step cfg text s.world (.report k outcome clock)).inflight.length ≤
        s.executions.length := by
      have all : s.world.inflight.length = s.executions.length := List.length_map _
      simp only [World.step, World.report]
      split
      · split
        · exact (List.length_eraseIdx_le _ _).trans all.le
        · exact all.le
      · exact all.le
    simp only [owners]
    split
    case isTrue less =>
      rw [List.length_eraseIdx, List.length_map, if_pos lt]
      omega
    case isFalse => rwa [List.length_map]
  | crash => exact own.elim
  | _ =>
    simp only [owners, List.length_append, List.length_map, List.length_replicate]
    omega

/-- An action of the system is one of the system, whoever takes it. -/
lemma world_system (own : Own asked s (n, .system a)) :
    (s.step cfg text (n, .system a)).world = World.step cfg text s.world a := by
  have inflight := List.map_snd_zip (@length_le_owners cfg text s n a asked own)
  simp only [step, world] at inflight ⊢
  rw [inflight]

/-- The first transaction of a webhook is that of one whose wakeup reaches the broker. -/
lemma world_callEnds {request : EndRequest} : (s.step cfg text (n, .callEnds request)).world =
    World.step cfg text s.world (.endInteraction { request with wakeup := none }) := by
  have same : endInteraction cfg text { request with wakeup := none } =
      endInteraction cfg text request := rfl
  simp only [step, World.step, World.endInteraction, world, same]
  cases commit (endInteraction cfg text request) s.db <;> rfl

/-- If every wakeup reaches the broker, the crew makes a run of the system. -/
lemma run_world {as : List (ℕ × CrewAction)} (run : Run (Crew.step cfg text) (Own asked) s as s')
    (start : s.failures = []) (woken : ∀ request, asked request → request.wakeup = none) :
    s'.failures = [] ∧ ∃ bs, Run (World.step cfg text) Served s.world bs s'.world := by
  induction run with
  | nil => exact ⟨start, [], .nil⟩
  | @snoc as s₁ x run own ih =>
    obtain ⟨none, bs, steps⟩ := ih
    obtain ⟨n, action⟩ := x
    cases action with
    | system a =>
      have served : Served s₁.world a := by
        rintro new rfl
        exact own
      refine ⟨none, bs ++ [a], ?_⟩
      rw [world_system own]
      exact steps.snoc served
    | callEnds request =>
      refine ⟨?_, bs ++ [.endInteraction { request with wakeup := .none }], ?_⟩
      · simp only [step, woken request own]
        cases commit (endInteraction cfg text request) s₁.db with
        | none => exact none
        | some result => exact (List.append_nil _).trans none
      · rw [world_callEnds]
        exact steps.snoc fun _ h => by cases h
    | record k =>
      obtain ⟨failure, found⟩ := own
      rw [none] at found
      cases found

end Crew

end PostCall.Machine
