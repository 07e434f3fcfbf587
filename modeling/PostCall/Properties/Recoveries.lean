import PostCall.Machine.Fence
import PostCall.Machine.Overlaps

/-!
# Recoveries

A recovery reads the stale rows without a lock and updates them by primary key, whatever has become of
them. Until it has written a job, others may have reported it, or recovered and claimed it again; the
update then takes that back. It does not as long as no transaction commits a recovery or a report of a
job that another recovery has read and not yet written.
-/

namespace PostCall.Properties
open PostCall.Library PostCall.Python PostCall.Model PostCall.Machine

variable {cfg : Settings} {s s₀ : Server} {n : ℕ} {id : UUID} {requests : List Machine.Request}

/-- What a connection sees of a job. -/
def seen (s : Server) (n : ℕ) (id : UUID) : Option InteractionJob :=
  s.sessions[n]?.bind fun a => (a.queue s.queue).get? id

/-- The running job has been moved to its end, or is running under another claim. -/
def MovedOn (q q' : Queue) (id : UUID) : Prop :=
  ∃ row, q.get? id = some row ∧ row.status = .running ∧ ∃ row', q'.get? id = some row' ∧
    (row'.status = .succeeded ∨ row'.status = .deadLettered ∨
      row'.status = .running ∧ q.timesClaimed id < q'.timesClaimed id)

/-- The request is another read of a recovery on this connection. -/
def rereads (n : ℕ) : Machine.Request → Bool
  | .loadStale m _ => m = n
  | _ => false

/-- A transaction that commits has neither recovered nor reported a job that another recovery has read
and not yet written. -/
def Undisturbed (s : Server) : Machine.Request → Prop
  | .commit m => ∀ b ∈ s.sessions[m]?, ∀ n a, n ≠ m → s.sessions[n]? = some a →
      ∀ id ∈ a.stale, id ∉ a.written → ∀ u ∈ b.updates, u.id = id → u.write.isClaim
  | _ => True

lemma onSession_of_idle {f : Session → Session}
    (idle : ∀ a, s.sessions[n]? = some a → f a = a) : s.onSession n f = s := by
  unfold Server.onSession
  split
  case h_2 => rfl
  case h_1 a found =>
    rw [idle a found]
    obtain ⟨bound, rfl⟩ := List.getElem?_eq_some_iff.1 found
    rw [List.set_getElem_self]

/-- A job that the connection has read as stale is as it was then, and running unless the connection
has written it. -/
def Unmoved (q₀ : Queue) (n : ℕ) (id : UUID) (s : Server) : Prop :=
  ∀ a, s.sessions[n]? = some a → id ∈ a.stale → view s.queue id = view q₀ id ∧
    (id ∈ a.written ∨ ∃ row, s.queue.get? id = some row ∧ row.status = .running)

namespace Unmoved

variable {q₀ : Queue}

/-- A change of one session that leaves what it has read as stale, and keeps what it has written. -/
lemma onSession {m : ℕ} {f : Session → Session} (h : Unmoved q₀ n id s)
    (keep : ∀ a, m = n → id ∈ (f a).stale →
      id ∈ a.stale ∧ (id ∈ a.written → id ∈ (f a).written)) : Unmoved q₀ n id (s.onSession m f) := by
  unfold Server.onSession
  split
  case h_2 => exact h
  case h_1 a found =>
    intro b hb stale
    rcases of_getElem?_set hb with ⟨rfl, rfl⟩ | ⟨_, old⟩
    · obtain ⟨stale, written⟩ := keep a rfl stale
      obtain ⟨same, held⟩ := h a found stale
      exact ⟨same, held.imp_left written⟩
    · exact h b old stale

/-- What is committed for the job stays. -/
lemma of_view {s' : Server} (h : Unmoved q₀ n id s)
    (keep : ∀ a, s'.sessions[n]? = some a → id ∈ a.stale →
      s.sessions[n]? = some a ∧ view s'.queue id = view s.queue id) : Unmoved q₀ n id s' := by
  intro a ha stale
  obtain ⟨before, kept⟩ := keep a ha stale
  obtain ⟨unmoved, held⟩ := h a before stale
  refine ⟨kept.trans unmoved, held.imp_right fun ⟨row, found, running⟩ => ⟨row, ?_, running⟩⟩
  exact (congrArg JobView.row kept).trans found

end Unmoved

/-- A step that does not read for a recovery again leaves the stale jobs unmoved. -/
lemma unmoved_step {q₀ : Queue} {r : Machine.Request} (sound : s.Sound) (entitled : s.Entitled)
    (h : Unmoved q₀ n id s) (undisturbed : Undisturbed s r) (same : rereads n r = false) :
    Unmoved q₀ n id (s.step cfg r) := by
  cases r with
  | insert row =>
    simp only [Server.step]
    split
    case h_2 => exact h
    case h_1 queue added =>
      refine h.of_view fun a ha stale => ⟨ha, Server.view_insert added ?_⟩
      obtain ⟨_, written | ⟨row, found, _⟩⟩ := h a ha stale
      · exact (sound.sessions n a ha).written id written
      · rw [found]
        rfl
  | load m id' =>
    refine h.onSession fun a _ => ?_
    split
    · rw [Session.load_stale, Session.load_written]
      exact fun stale => ⟨stale, fun written => written⟩
    · exact fun stale => ⟨stale, fun written => written⟩
  | loadStale m now =>
    refine h.onSession fun a e _ => ?_
    exact absurd e (of_decide_eq_false same)
  | write m id' w =>
    refine h.onSession fun a _ => ?_
    split
    · exact fun stale => ⟨stale, fun written => written⟩
    · rw [Session.write_stale]
      exact fun stale => ⟨stale, Session.written_write⟩
  | claim m workerId jobTypes limit now tie =>
    refine h.onSession fun a _ => ?_
    split
    · exact fun stale => ⟨Session.claim_foldl_stale ▸ stale, Session.written_claim_foldl⟩
    · exact fun stale => ⟨stale, fun written => written⟩
  | rollback m => exact h.onSession fun a _ stale => absurd stale List.not_mem_nil
  | commit m =>
    simp only [Server.step]
    split
    case h_2 => exact h
    case h_1 b found =>
      refine h.of_view fun a ha stale => ?_
      rcases of_getElem?_set ha with ⟨_, rfl⟩ | ⟨ne, old⟩
      · cases stale
      refine ⟨old, Server.view_commit fun touched => ?_⟩
      obtain ⟨_, held⟩ := h a old stale
      by_cases written : id ∈ a.written
      · exact sound.exclusive n m a b ne old found id written touched
      · -- the other transaction could have claimed the row only if it had not been running
        have claims := undisturbed b found n a ne old id stale written
        obtain ⟨row, there, running⟩ := held.resolve_left written
        exact not_claimable_of_running there running (entitled m b found id ⟨touched, claims⟩)

/-- What a recovery reads is running, and it reads no row twice. -/
lemma unmoved_loadStale {now : Time} :
    Unmoved s.queue n id (s.step cfg (.loadStale n now)) := by
  intro b hb stale
  simp only [Server.step, Server.onSession] at hb ⊢
  split at hb
  case h_2 none => rw [none] at hb; cases hb
  case h_1 a found =>
    rcases of_getElem?_set hb with ⟨_, rfl⟩ | ⟨ne, _⟩
    case inr => exact absurd rfl ne
    refine ⟨rfl, ?_⟩
    by_cases written : id ∈ a.written
    · left
      simp only [Session.written, Session.load_foldl_updates]
      exact written
    · right
      obtain ⟨row, mem, rfl⟩ := List.mem_map.1 stale
      obtain ⟨there, old⟩ := Queue.mem_staleJobs.1 mem
      have there := Queue.get?_of_mem there
      rw [Session.get?_queue_of_not_mem written] at there
      exact ⟨row, there, InteractionJob.running_of_stale old⟩

/-- In every interleaving of overlapping transactions, among them any number of recoveries, claims and
reports: as long as none commits a recovery or a report of a job that another recovery has read and
not yet written, a job is at the write of a recovery as it was at its read, and one that was moved on
in between is not changed by the write. -/
theorem recovery_spares {jobs : JobTable} {connections : ℕ} {before between : List Machine.Request}
    {s' : Server} {now : Time}
    (run : Run (Server.step cfg) Undisturbed (.start jobs connections) before s)
    (later : Run (Server.step cfg) Undisturbed (s.step cfg (.loadStale n now)) between s')
    (once : ∀ r ∈ between, rereads n r = false) (id : UUID) (workerId : String) (moved : Time) :
    (∀ a ∈ s'.sessions[n]?, id ∈ a.stale → s'.queue.get? id = s.queue.get? id) ∧
      (MovedOn s.queue s'.queue id →
        seen (s'.step cfg (.write n id (.recover workerId moved))) n id = seen s' n id) := by
  have keep : ∀ (s : Server) r, s.Sound ∧ s.Entitled → (s.step cfg r).Sound ∧ (s.step cfg r).Entitled :=
    fun s r h => ⟨Server.sound_step r h.1, Server.entitled_step r h.1 h.2⟩
  have start := run.invariant (I := fun s => s.Sound ∧ s.Entitled)
    ⟨Server.sound_start jobs connections, Server.entitled_start jobs connections⟩
    fun s r h _ => keep s r h
  have unmoved := (later.of_forall_mem once).invariant
    (I := fun s' => (s'.Sound ∧ s'.Entitled) ∧ Unmoved s.queue n id s')
    ⟨keep s _ start, unmoved_loadStale⟩
    fun s' r h ok => ⟨keep s' r h.1, unmoved_step h.1.1 h.1.2 h.2 ok.1 ok.2⟩
  refine ⟨fun a ha stale => congrArg JobView.row (unmoved.2 a ha stale).1, ?_⟩
  rintro ⟨row, found, running, row', found', ended⟩
  -- the connection has not read the job as stale: then nothing would have happened to it
  have unread : ∀ a, s'.sessions[n]? = some a → a.stale.contains id = false := by
    intro a ha
    by_contra stale
    have same := (unmoved.2 a ha (by simpa using stale)).1
    have rows : s'.queue.get? id = s.queue.get? id := congrArg JobView.row same
    rw [found, found'] at rows
    cases rows
    rcases ended with ended | ended | ⟨_, again⟩
    · rw [running] at ended
      cases ended
    · rw [running] at ended
      cases ended
    · rw [timesClaimed_view, timesClaimed_view, same] at again
      exact lt_irrefl _ again
  refine congrArg (seen · n id) (onSession_of_idle fun a ha => if_pos ?_)
  simp only [Write.isClaim, Write.isRecovery, unread a ha, Bool.not_false, Bool.and_self,
    Bool.false_or, Bool.true_or]

/-- A job is claimed, and not reported for a long time. -/
def claimedLongAgo : List Machine.Request := [
  .insert ((NewJob.plain 1 .llmAnalysis).row settings),
  .claim 0 "first" [.llmAnalysis] 5 0 fun _ => 0,
  .commit 0]

/-- Its worker reports it. -/
def reported : List Machine.Request := [
  .load 0 1,
  .write 0 1 (.succeed [] 1500 (seconds 301)),
  .commit 0]

def serverAfter (requests : List Machine.Request) : Server :=
  requests.foldl (Server.step settings) (.start .empty 2)

/-- A second connection reads the job as stale, and these statements come before its write. -/
def afterRead (between : List Machine.Request) : Server :=
  between.foldl (Server.step settings)
    ((serverAfter claimedLongAgo).step settings (.loadStale 1 (seconds 301)))

/-- The report is not committed before the write, which waits for it. -/
theorem recovery_spares_plain : (afterRead (reported.take 2)).queue.get? 1 =
    (serverAfter claimedLongAgo).queue.get? 1 := by
  have silent : ∀ (s : Server) r, (∀ m, r ≠ .commit m) → Undisturbed s r := by
    intro s r h
    cases r with
    | commit m => exact absurd rfl (h m)
    | _ => trivial
  have run : Run (Server.step settings) Undisturbed (.start .empty 2) claimedLongAgo
      (serverAfter claimedLongAgo) := by
    refine .cons (silent _ _ nofun) (.cons (silent _ _ nofun) (.cons ?_ .nil))
    -- the other connection is idle
    rintro b hb (_ | _ | n) a ne ha id stale
    · exact absurd rfl ne
    · cases ha
      cases stale
    · cases ha
  have later : Run (Server.step settings) Undisturbed ((serverAfter claimedLongAgo).step settings
      (.loadStale 1 (seconds 301))) (reported.take 2) (afterRead (reported.take 2)) :=
    .cons (silent _ _ nofun) (.cons (silent _ _ nofun) .nil)
  obtain ⟨same, _⟩ := recovery_spares run later (by decide) 1 "second" (seconds 301)
  exact same _ rfl (by decide +kernel)

/-- The report comes between the read of the recovery and its write. -/
theorem not_spares :
    ¬ ∀ (before between : List Machine.Request) (n : ℕ) (now moved : Time) (id : UUID)
      (workerId : String), (∀ r ∈ between, rereads n r = false) →
      let s := serverAfter before
      let s' := between.foldl (Server.step settings) (s.step settings (.loadStale n now))
      MovedOn s.queue s'.queue id →
        seen (s'.step settings (.write n id (.recover workerId moved))) n id = seen s' n id := by
  intro spares
  have before : ((serverAfter claimedLongAgo).queue.get? 1).map (·.status) = some .running := by
    decide +kernel
  have after : ((afterRead reported).queue.get? 1).map (·.status) = some .succeeded := by
    decide +kernel
  obtain ⟨row, found, running⟩ := Option.map_eq_some_iff.1 before
  obtain ⟨row', found', succeeded⟩ := Option.map_eq_some_iff.1 after
  have same := spares claimedLongAgo reported 1 (seconds 301) (seconds 301) 1 "second"
    (by decide) ⟨row, found, running, row', found', .inl succeeded⟩
  have changed : (seen ((afterRead reported).step settings (.write 1 1 (.recover "second"
      (seconds 301)))) 1 1).map (·.status) ≠ (seen (afterRead reported) 1 1).map (·.status) := by
    decide +kernel
  exact changed (congrArg (Option.map (·.status)) same)

end PostCall.Properties
